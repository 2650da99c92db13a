import SimWorkbench.FileTree.Basic
import SimWorkbench.Text.Utf8

/-!
# File operations

Reading, writing, renaming, copying and removing, as the operating system does them: each either
happens as a whole or is refused with a cause and leaves the tree as it was. Only making a
directory with its parents and removing a tree can stop half-way.
-/
namespace SimWorkbench.FileTree

/-- The contents of a file. -/
def read (t : FileTree) (here : Location) (p : Path) : Except OsError Bytes := do
  match ← t.locate here p with
  | (_, .directory) => .error .isDirectory
  | (_, .file content _) => .ok content
  | (_, .tool _) | (_, .device _) => .ok []

/-- The contents of a file that holds text. -/
def readText (t : FileTree) (here : Location) (p : Path) : Except OsError String := do
  match Text.Utf8.toString? (← t.read here p) with
  | some text => .ok text
  | none => .error .notText

/-- Where a write to `p` goes: an existing file, or a free name in a directory. -/
def writeTarget (t : FileTree) (here : Location) (p : Path) :
    Except OsError (Location × Option Entry) := do
  match ← t.walk here p with
  | (dir, .name text false) =>
    match t.get? (dir ++ [text]) with
    | some .directory => .error .isDirectory
    | entry => .ok (dir ++ [text], entry)
  | _ => .error .isDirectory

/-- Writes a file; an existing one keeps its mode, a new one gets the mode given. -/
def writeAs (t : FileTree) (here : Location) (p : Path) (content : Bytes) (mode : Mode) :
    Except OsError FileTree := do
  match ← t.writeTarget here p with
  | (_, some (.device _)) => .ok t
  | (l, some (.file _ kept)) => .ok (t.insert l (.file content kept))
  | (l, _) => .ok (t.insert l (.file content mode))

/-- Writes a file that nobody may execute unless its mode already said so. -/
def write (t : FileTree) (here : Location) (p : Path) (content : Bytes) :
    Except OsError FileTree := t.writeAs here p content .plain

/-- Gives a file other rights. -/
def setMode (t : FileTree) (here : Location) (p : Path) (mode : Mode) :
    Except OsError FileTree := do
  match ← t.locate here p with
  | (l, .file content _) => .ok (t.insert l (.file content mode))
  | _ => .ok t

/-- Copies a file with its mode. -/
def copy (t : FileTree) (here : Location) (p q : Path) : Except OsError FileTree := do
  let (_, entry) ← t.locate here p
  match entry with
  | .directory => .error .invalidArgument
  | _ =>
    let (l, _) ← t.writeTarget here q
    .ok (t.insert l entry)

/-- Removes a file. -/
def remove (t : FileTree) (here : Location) (p : Path) : Except OsError FileTree := do
  match ← t.walk here p with
  | (dir, .name text slashed) =>
    match t.get? (dir ++ [text]) with
    | none => .error .notFound
    | some .directory => .error .isDirectory
    | some _ => if slashed then .error .notDirectory else .ok (t.erase (dir ++ [text]))
  | _ => .error .isDirectory

/-- Moves the file `p` to the name `q`, in place of a file of that name. -/
def rename (t : FileTree) (here : Location) (p q : Path) : Except OsError FileTree := do
  match ← t.walk here p, ← t.walk here q with
  | (dirP, .name nameP slashedP), (dirQ, .name nameQ slashedQ) =>
    match t.get? (dirP ++ [nameP]) with
    | none => .error .notFound
    | some .directory => .error .busy
    | some entry =>
      if slashedP || slashedQ then .error .notDirectory
      else
        match t.get? (dirQ ++ [nameQ]) with
        | some .directory => .error .isDirectory
        | _ => .ok ((t.erase (dirP ++ [nameP])).insert (dirQ ++ [nameQ]) entry)
  | _, _ => .error .busy

/-- Makes a directory in an existing one. -/
def makeDir (t : FileTree) (here : Location) (p : Path) : Except OsError FileTree := do
  match ← t.walk here p with
  | (dir, .name text _) =>
    match t.get? (dir ++ [text]) with
    | some _ => .error .alreadyExists
    | none => .ok (t.insert (dir ++ [text]) .directory)
  | _ => .error .alreadyExists

/-- What a directory maker answers: the tree then, and the refusal if there was one. -/
abbrev Outcome := FileTree × Option OsError

/-- Makes the last directory of a path, or accepts the one that is there. -/
def makeLast (t : FileTree) (here : Location) (p : Path) : Outcome :=
  match t.makeDir here p with
  | .ok t' => (t', none)
  | .error e => if t.isDirectory here p then (t, none) else (t, some e)

/-- Makes a directory, first the missing ones above it. The first argument bounds the number of
parents. -/
def makeDirsFrom : Nat → FileTree → Location → Path → Outcome
  | 0, t, _, _ => (t, some .notFound)
  | depth + 1, t, here, p =>
    if p.text.isEmpty then (t, none)
    else
      match t.makeDir here p, p.parent? with
      | .error .notFound, some above =>
        match makeDirsFrom depth t here above with
        | (t', none) => t'.makeLast here p
        | refused => refused
      | _, _ => t.makeLast here p

/-- Makes a directory and the missing ones above it. The empty path is always there. -/
def makeDirs (t : FileTree) (here : Location) (p : Path) : Outcome :=
  makeDirsFrom (p.segments.length + 1) t here p

/-- The tree without what lies below a directory; the directory itself stays. -/
def emptied (t : FileTree) (l : Location) : FileTree :=
  ⟨t.entries.filter fun x => !(l.isPrefixOf x.1 && l != x.1)⟩

/-- Removes a directory and everything below it. What is below goes first. Then the path is followed
once more, to remove the directory by its name: if the path led through what is gone now, the
directory counts as removed already, and stays. -/
def removeTree (t : FileTree) (here : Location) (p : Path) : Outcome :=
  match t.locate here p with
  | .error e => (t, some e)
  | .ok (l, entry) =>
    if !entry.isDirectory then (t, some .notDirectory)
    else
      let bare := t.emptied l
      match bare.walk here p with
      | .error .notFound => (bare, none)
      | .error e => (bare, some e)
      | .ok (_, .here) => (bare, some .invalidArgument)
      | .ok (_, .up) => (bare, some .notEmpty)
      | .ok (_, .name ..) => (bare.erase l, none)

end SimWorkbench.FileTree
