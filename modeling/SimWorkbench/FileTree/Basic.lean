import SimWorkbench.Bytes
import SimWorkbench.FileTree.OsError
import SimWorkbench.Path.Basic

/-!
# File trees

A file tree maps locations, the lists of names from the root down, to directories, files and
devices. A path leads to a location by a walk along its segments, from the root or from a current
directory; every segment but the last has to be a directory that exists.

There are no links, neither symbolic nor hard ones: different locations are different files, and what
is below a directory is reached by going through it. The results that one file is written and no other
rest on this: `Invocation.compile_confined`, `Grounds.neighbours_untouched`, `SharedScratch.isolation`,
and `Arena.Record.found_inside`.
-/
namespace SimWorkbench

/-- The names from the root down. -/
abbrev Location := List String

/-- The absolute path of a location. -/
def Location.path (l : Location) : Path := ⟨"/" ++ "/".intercalate l⟩

/-- The rights to a file. Nine bits say whether its owner, its group and others may read, write and
execute it; three bits in front of them say in whose name it runs. -/
abbrev Mode := Nat

namespace Mode

/-- What everybody may read and the owner may write. -/
def plain : Mode := 0o644

/-- What everybody may read and execute and the owner may write. -/
def program : Mode := 0o755

/-- Whether anybody may execute the file. -/
def isExecutable (m : Mode) : Bool := m &&& 0o111 != 0

end Mode

/-- Files that are no storage. -/
inductive Device where
  /-- Swallows what is written and yields nothing. -/
  | null
  /-- Has no room for what is written. -/
  | full
  /-- What a process has open under a number. -/
  | stream (descriptor : Nat)
  deriving DecidableEq, Repr

/-- What stands at a location. -/
inductive Entry where
  | directory
  | file (content : Bytes) (mode : Mode)
  /-- A program of the system, known by its name. -/
  | tool (name : String)
  | device (d : Device)
  deriving DecidableEq, Repr

namespace Entry

def isDirectory (e : Entry) : Bool := e == .directory

/-- Whether the entry is a regular file. -/
def isFile : Entry → Bool
  | file .. | tool _ => true
  | directory | device _ => false

/-- The rights to the entry. -/
def mode : Entry → Mode
  | file _ m => m
  | tool _ | directory => .program
  | device _ => 0o666

end Entry

/-- The entries below the root; each location occurs once. -/
structure FileTree where
  entries : List (Location × Entry)
  deriving DecidableEq, Repr, Inhabited

namespace FileTree

def empty : FileTree := ⟨[]⟩

/-- The entry at a location; the root is always a directory. -/
def get? (t : FileTree) (l : Location) : Option Entry :=
  if l.isEmpty then some .directory else t.entries.lookup l

/-- The tree without the entry at `l`. -/
def erase (t : FileTree) (l : Location) : FileTree :=
  ⟨t.entries.filter fun x => x.1 != l⟩

/-- The tree with `e` at `l`. -/
def insert (t : FileTree) (l : Location) (e : Entry) : FileTree :=
  ⟨(l, e) :: (t.erase l).entries⟩

/-- The entries strictly below a directory, with their locations seen from there. -/
def below (t : FileTree) (l : Location) : List (Location × Entry) :=
  t.entries.filterMap fun x =>
    if l.isPrefixOf x.1 && l != x.1 then some (x.1.drop l.length, x.2) else none

/-- The tree without `l` and what lies below it. -/
def eraseAll (t : FileTree) (l : Location) : FileTree :=
  ⟨t.entries.filter fun x => !l.isPrefixOf x.1⟩

theorem get?_insert_self (t : FileTree) {l : Location} (e : Entry) (h : l ≠ []) :
    (t.insert l e).get? l = some e := by
  simp [get?, insert, h]

/-- The last segment of a path, seen from the directory that holds it. -/
inductive Last where
  /-- The directory itself. -/
  | here
  /-- The directory above it. -/
  | up
  /-- A name in it, and whether a slash follows. -/
  | name (text : String) (slashed : Bool)
  deriving DecidableEq, Repr

/-- One segment of a walk through directories. -/
def enter (t : FileTree) (dir : Location) (segment : String) : Except OsError Location :=
  if segment = "." then .ok dir
  else if segment = ".." then .ok dir.dropLast
  else if 255 < segment.utf8ByteSize then .error .nameTooLong
  else
    match t.get? (dir ++ [segment]) with
    | none => .error .notFound
    | some .directory => .ok (dir ++ [segment])
    | some _ => .error .notDirectory

/-- Walks along the segments of a path up to the last one. -/
def walk (t : FileTree) (here : Location) (p : Path) : Except OsError (Location × Last) :=
  if p.text.isEmpty then .error .notFound
  else if p.text.toList.contains '\x00' then .error .zeroInName
  else if 4096 ≤ p.text.utf8ByteSize then .error .nameTooLong
  else
    let start := if p.isAbsolute then [] else here
    let names := (p.segments.filter (· ≠ [])).map String.ofList
    let slashed := p.text.toList.getLast? == some '/'
    match t.get? start, names.getLast? with
    | some .directory, none => .ok (start, .here)
    | some .directory, some final => do
      let dir ← names.dropLast.foldlM t.enter start
      if final = "." then .ok (dir, .here)
      else if final = ".." then .ok (dir, .up)
      else if 255 < final.utf8ByteSize then .error .nameTooLong
      else .ok (dir, .name final slashed)
    | _, _ => .error .notFound

/-- The location that a walk leads to. -/
def Last.location (dir : Location) : Last → Location
  | .here => dir
  | .up => dir.dropLast
  | .name text _ => dir ++ [text]

/-- The location of what a path names, and the entry there. -/
def locate (t : FileTree) (here : Location) (p : Path) : Except OsError (Location × Entry) := do
  let (dir, last) ← t.walk here p
  match t.get? (last.location dir), last with
  | none, _ => .error .notFound
  | some entry, .name _ true =>
    if entry.isDirectory then .ok (last.location dir, entry) else .error .notDirectory
  | some entry, _ => .ok (last.location dir, entry)

/-- The entry that a path names. -/
def entryAt? (t : FileTree) (here : Location) (p : Path) : Option Entry :=
  ((t.locate here p).toOption).map Prod.snd

def isFile (t : FileTree) (here : Location) (p : Path) : Bool :=
  ((t.entryAt? here p).map Entry.isFile).getD false

def isDirectory (t : FileTree) (here : Location) (p : Path) : Bool :=
  ((t.entryAt? here p).map Entry.isDirectory).getD false

def exists? (t : FileTree) (here : Location) (p : Path) : Bool := (t.entryAt? here p).isSome

end FileTree
end SimWorkbench
