import SimWorkbench.Text.Lines
import SimWorkbench.Utility.Concatenate
import SimWorkbench.Utility.Permission

/-!
# Copying files

Files are copied to a name or into a directory, and directories with all that is below them. What
happens to a file that is there already is a matter of options: it is kept, replaced, or given
another name.
-/
namespace SimWorkbench.Utility

open Shell

/-- What becomes of a file that is there already. -/
inductive Conflict where
  | replace
  | keep
  /-- The user decides. -/
  | ask
  deriving DecidableEq, Repr

/-- The names under which files that are replaced are kept. -/
inductive Backups where
  | none
  | simple
  | numbered
  /-- Numbered if there are numbered ones already. -/
  | existing
  deriving DecidableEq, Repr

/-- What may be made in the place of copies. -/
inductive Linking where
  | hard
  | symbolic
  deriving DecidableEq, Repr

def Linking.text : Linking → String
  | hard => "hard link"
  | symbolic => "symbolic link"

/-- How files are copied. -/
structure Copying where
  name : Chars
  links : Option Linking
  recursive : Bool
  verbose : Bool
  conflict : Conflict
  /-- Only files are replaced that are older. -/
  update : Bool
  backups : Backups
  ending : Chars
  keepsMode : Bool
  removes : Bool
  /-- Whether a file that stands in the way of a link is removed. -/
  forces : Bool
  attributesOnly : Bool

def copyForms : List OptionForm :=
  [⟨'a', .nothing, true, ["archive"]⟩, ⟨'A', .nothing, false, ["attributes-only"]⟩,
   ⟨'b', .nothing, true, []⟩, ⟨'B', .perhaps, false, ["backup"]⟩,
   ⟨'c', .nothing, false, ["copy-contents"]⟩, ⟨'D', .nothing, false, ["debug"]⟩,
   ⟨'L', .nothing, true, ["dereference"]⟩, ⟨'f', .nothing, true, ["force"]⟩,
   ⟨'i', .nothing, true, ["interactive"]⟩, ⟨'l', .nothing, true, ["link"]⟩,
   ⟨'n', .nothing, true, ["no-clobber"]⟩, ⟨'P', .nothing, true, ["no-dereference"]⟩,
   ⟨'m', .argument, false, ["no-preserve"]⟩, ⟨'T', .nothing, true, ["no-target-directory"]⟩,
   ⟨'x', .nothing, true, ["one-file-system"]⟩, ⟨'h', .nothing, false, ["parents", "path"]⟩,
   ⟨'k', .perhaps, false, ["preserve"]⟩, ⟨'R', .nothing, true, ["recursive"]⟩,
   ⟨'r', .nothing, true, []⟩, ⟨'X', .nothing, false, ["remove-destination"]⟩,
   ⟨'y', .argument, false, ["sparse"]⟩, ⟨'w', .perhaps, false, ["reflink"]⟩,
   ⟨'/', .nothing, false, ["strip-trailing-slashes"]⟩, ⟨'S', .argument, true, ["suffix"]⟩,
   ⟨'s', .nothing, true, ["symbolic-link"]⟩, ⟨'t', .argument, true, ["target-directory"]⟩,
   ⟨'u', .nothing, true, []⟩, ⟨'U', .perhaps, false, ["update"]⟩,
   ⟨'v', .nothing, true, ["verbose"]⟩, ⟨'o', .perhaps, false, ["context"]⟩,
   ⟨'Z', .nothing, true, []⟩, ⟨'d', .nothing, true, []⟩, ⟨'p', .nothing, true, []⟩,
   ⟨'H', .nothing, true, []⟩, ⟨'?', .nothing, false, ["help"]⟩,
   ⟨'!', .nothing, false, ["version"]⟩]

/-- A path without slashes at its end. -/
def withoutSlashes (path : Chars) : Chars :=
  match (path.reverse.dropWhile (· == '/')).reverse with
  | [] => path.take 1
  | trimmed => trimmed

/-- The last component of a path. -/
def lastComponent (path : Chars) : Chars :=
  ((withoutSlashes path).reverse.takeWhile (· ≠ '/')).reverse

/-- A name in a directory, without slashes that are not needed. -/
def inDirectory (directory name : Chars) : Chars :=
  let base := (directory.reverse.dropWhile (· == '/')).reverse
  let rest := name.dropWhile (· == '/')
  if base.isEmpty && directory.isEmpty then name else base ++ '/' :: rest

/-- The name under which a file is kept that is replaced. -/
def Copying.backupName (w : Copying) (s : State) (path : Chars) : Chars :=
  let numbered (n : Nat) : Chars := path ++ ".~".toList ++ decimal n ++ ['~']
  let isTaken (n : Nat) : Bool := s.files.exists? s.dir (toPath (numbered n))
  let size := s.files.entries.length + 1
  let last := ((List.range size).reverse.find? fun n => isTaken (n + 1)).map (· + 1)
  match w.backups, last with
  | .numbered, _ => numbered (last.getD 0 + 1)
  | .existing, some n => numbered (n + 1)
  | _, _ => path ++ w.ending

/-- Whether the user agrees. -/
def isAgreed : Exec Bool := do
  match ← peek 0 with
  | .error _ => return false
  | .ok (text, complete) =>
    let line := text.takeWhile (· ≠ '\n')
    unless complete || line.length < text.length do throw .waiting
    skipInput 0 (line.length + 1)
    return line.head? = some 'y' || line.head? = some 'Y'

/-- How recently something was changed: how many files were changed since. -/
def ageOf (s : State) (place : Location) : Nat :=
  s.files.entries.findIdx fun x => x.1 == place

/-- What is told about a copy. -/
def tellCopy (w : Copying) (source target : Chars) (backup : Option Chars) : Exec Unit := do
  if w.verbose then
    discard (emitOn 1 (quoted source ++ " -> ".toList ++ quoted target ++
      (backup.map fun b => " (backup: ".toList ++ quoted b ++ [')']).getD [] ++ ['\n']))

/-- The content of what is copied. -/
def contentOf : Entry → Exec Bytes
  | .file content _ => return content
  | .device (.stream n) => do
    match ← readAll n with
    | .ok text => return toBytes text
    | .error _ => return []
  | _ => return []

/-- How far the copying of an operand has come. -/
structure CopyRun where
  done : Bool
  /-- The first directory that was made. -/
  made : Option Location
  /-- Whether a directory was about to be copied into itself. -/
  isInside : Bool

/-- Makes a link. There are none in a file tree: what a link leads to is put in its place. -/
def linkFile (w : Copying) (link : Linking) (source target : Chars) (entry : Entry) :
    Exec Bool := do
  let s ← get
  tellCopy w source target none
  let fail (reason : Chars) : Exec Bool := do
    grumble w.name ("cannot create ".toList ++ link.text.toList ++ " ".toList ++ quoted target ++
      " to ".toList ++ quoted source ++ ": ".toList ++ reason)
    return false
  let isNear (place : Location) : Bool := place.dropLast == s.dir
  match s.files.writeTarget s.dir (toPath target) with
  | .error e => fail e.plain.toList
  | .ok (place, old) =>
    if link = .symbolic && source.head? ≠ some '/' && !isNear place then
      grumble w.name (target ++
        ": can make relative symbolic links only in current directory".toList)
      return false
    if old.isSome && !w.removes && !w.forces then fail "File exists".toList
    else
      putEntry place entry
      return true

/-- Copies what is no directory. -/
def copyFile (w : Copying) (source target : Chars) (entry : Entry) (old : Option Entry) :
    Exec Bool := do
  if let some link := w.links then return ← linkFile w link source target entry
  let s ← get
  let backup := if w.backups ≠ .none && old.isSome then some (w.backupName s target) else none
  if w.removes && w.verbose && old.isSome && backup.isNone then
    discard (emitOn 1 ("removed ".toList ++ quoted target ++ ['\n']))
  tellCopy w source target backup
  let content ← if w.attributesOnly then pure [] else contentOf entry
  let plain : Mode := entry.mode &&& 0o777
  let mode := if w.keepsMode then entry.mode else ModeChange.without plain s.withheld
  match s.files.writeTarget s.dir (toPath target) with
  | .error e =>
    let isSlashed : Bool := target.getLast? == some '/'
    let e := if e = .isDirectory && isSlashed then .notDirectory else e
    grumble w.name ("cannot create regular file ".toList ++ quoted target ++ ": ".toList ++
      e.plain.toList)
    return false
  | .ok (place, old) =>
    match old with
    | some (.device .full) =>
      if content.isEmpty then return true
      grumble w.name ("error writing ".toList ++ quoted target ++
        ": No space left on device".toList)
      return false
    | some (.device (.stream n)) => return (← emitOn n (ofBytes content)).isNone
    | some (.device .null) => return true
    | _ =>
      if let (some name, some entry) := (backup, old) then
        if let .ok (there, _) := s.files.writeTarget s.dir (toPath name) then putEntry there entry
      let isNew := old.isNone || backup.isSome || w.removes
      match entry, old with
      | .tool tool, _ => putEntry place (.tool tool)
      | _, some (.file before kept) =>
        let content := if w.attributesOnly && !isNew then before else content
        putEntry place (.file content (if isNew || w.keepsMode then mode else kept))
      | _, _ => putEntry place (.file content mode)
      return true

/-- What a file that is there already means for a copy: that it is made, that it is left out, or that
it fails. -/
def settleConflict (w : Copying) (source target : Chars) (from' : Location × Entry)
    (there : Location × Entry) (created : List Location) : Exec (Option Bool) := do
  let fail (text : Chars) : Exec (Option Bool) := do
    grumble w.name text
    return some false
  let isTree := from'.2.isDirectory
  if w.conflict ≠ .keep && from'.1 = there.1 then
    return ← fail (quoted source ++ " and ".toList ++ quoted target ++
      " are the same file".toList)
  if !isTree then
    if w.update && ageOf (← get) there.1 ≤ ageOf (← get) from'.1 then return some true
    match w.conflict with
    | .keep => return some true
    | .ask =>
      emit 2 (w.name ++ ": overwrite ".toList ++ quoted target ++ "? ".toList)
      unless ← isAgreed do return some false
    | .replace => pure ()
  if isTree && !there.2.isDirectory then
    return ← fail ("cannot overwrite non-directory ".toList ++ quoted target ++
      " with directory ".toList ++ quoted source)
  if !there.2.isDirectory && created.contains there.1 then
    return ← fail ("will not overwrite just-created ".toList ++ quoted target ++ " with ".toList ++
      quoted source)
  if !isTree && there.2.isDirectory then
    return ← fail ("cannot overwrite directory ".toList ++ quoted target ++
      " with non-directory".toList)
  return none

/-- Copies something and all that is below it. `created` are the places that earlier operands were
copied to; the number bounds the depth. -/
def copyTree (w : Copying) (top : Chars × Chars) (created : List Location) :
    Nat → Chars → Chars → CopyRun → Exec CopyRun
  | 0, _, _, run => return run
  | n + 1, source, target, run => do
    let failed := { run with done := false }
    let s ← get
    match s.files.locate s.dir (toPath source) with
    | .error e =>
      grumble w.name ("cannot stat ".toList ++ quoted source ++ ": ".toList ++ e.plain.toList)
      return failed
    | .ok (from', entry) =>
      if entry.isDirectory && !w.recursive then
        grumble w.name ("-r not specified; omitting directory ".toList ++ quoted source)
        return failed
      let there ← match s.files.locate s.dir (toPath target) with
        | .ok found => pure (some found)
        | .error .notFound => pure none
        | .error e =>
          grumble w.name ("cannot stat ".toList ++ quoted target ++ ": ".toList ++ e.plain.toList)
          return failed
      if let some found := there then
        match ← settleConflict w source target (from', entry) found created with
        | some true => return run
        | some false => return failed
        | none => pure ()
      if !entry.isDirectory then
        if ← copyFile w source target entry (there.map Prod.snd) then return run else return failed
      if run.made = some from' then
        grumble w.name ("cannot copy a directory, ".toList ++ quoted top.1 ++
          ", into itself, ".toList ++ quoted top.2)
        return { failed with isInside := true }
      let made ← match there with
        | some _ => pure run.made
        | none =>
          match s.files.makeDir s.dir (toPath target) with
          | .error e =>
            grumble w.name ("cannot create directory ".toList ++ quoted target ++ ": ".toList ++
              e.plain.toList)
            return failed
          | .ok files =>
            let place := match files.locate s.dir (toPath target) with
              | .ok (place, _) => place
              | .error _ => []
            putEntry place .directory
            tellCopy w source target none
            pure (run.made.or (some place))
      let names := ((← get).files.below from').reverse.filterMap fun x =>
        match x.1 with
        | [name] => some (ofText name)
        | _ => none
      names.foldlM (fun run name => do
        if run.isInside then return run
        copyTree w top [] n (inDirectory source name) (inDirectory target name) run)
        { run with made }

/-- How deep directories may be copied. -/
def maxCopyDepth : Nat := 300

/-- Makes the directories above a target below `directory` that the source has; tells whether that
worked. -/
def makeParents (w : Copying) (directory source : Chars) : Exec Bool := do
  let parts := (source.splitOn '/').dropLast
  let steps := (List.range parts.length).map fun n => ['/'].intercalate (parts.take (n + 1))
  steps.foldlM (fun done step => do
    let s ← get
    let target := inDirectory directory step
    if !done || step.isEmpty || s.files.isDirectory s.dir (toPath target) then return done
    match s.files.locate s.dir (toPath step) with
    | .error e =>
      grumble w.name ("failed to get attributes of ".toList ++ quoted step ++ ": ".toList ++
        e.plain.toList)
      return false
    | .ok _ =>
      match s.files.makeDir s.dir (toPath target) with
      | .error e =>
        grumble w.name ("cannot make directory ".toList ++ quoted target ++ ": ".toList ++
          e.plain.toList)
        return false
      | .ok files =>
        if let .ok (place, _) := files.locate s.dir (toPath target) then putEntry place .directory
        if w.verbose then
          discard (emitOn 1 (step ++ " -> ".toList ++ target ++ ['\n']))
        return true) true

/-- Copies operands into a directory. `seen` are the sources so far, `created` the targets. -/
def copyInto (w : Copying) (directory : Chars) (withParents trims several : Bool) :
    List Location → List Location → Bool → List Chars → Exec Bool
  | _, _, done, [] => return done
  | seen, created, done, operand :: rest => do
    let source := if trims then withoutSlashes operand else operand
    let base := lastComponent source
    let target := inDirectory directory
      (if withParents then withoutSlashes source else if base = ['.', '.'] then ['.'] else base)
    let s ← get
    let place? := match s.files.locate s.dir (toPath source) with
      | .ok (place, entry) => if entry.isDirectory then none else some place
      | .error _ => none
    let isRepeated : Bool := several && w.backups = .none && (place?.map seen.contains).getD false
    if isRepeated then
      grumble w.name ("warning: source file ".toList ++ quoted source ++
        " specified more than once".toList)
      copyInto w directory withParents trims several seen created done rest
    else
      let hasParents ← if withParents then makeParents w directory source else pure true
      let run ← if hasParents then
          copyTree w (source, target) (if several then created else []) maxCopyDepth source target
            ⟨true, none, false⟩
        else pure ⟨false, none, false⟩
      let s ← get
      let made := match s.files.locate s.dir (toPath target) with
        | .ok (place, _) => if run.done then [place] else []
        | .error _ => []
      copyInto w directory withParents trims several (place?.toList ++ seen) (made ++ created)
        (done && run.done) rest

/-- The words that an option can have, of which a given one has to be one or begin it. -/
def matchWord (option : String) (choices : List (List String)) (word : Chars) :
    Except Misuse Nat :=
  let hits := choices.zipIdx.filter fun c => c.1.any fun x => word.isPrefixOf x.toList
  match choices.zipIdx.find? (fun c => c.1.any fun x => x.toList = word), hits with
  | some hit, _ => .ok hit.2
  | none, [hit] => .ok hit.2
  | none, _ =>
    .error ((if hits.isEmpty then "invalid" else "ambiguous").toList ++ " argument ".toList ++
      plainlyQuoted word ++ " for ".toList ++ plainlyQuoted option.toList ++
      "\nValid arguments are:".toList ++ choices.flatMap fun names =>
        "\n  - ".toList ++ ", ".toList.intercalate (names.map fun x => plainlyQuoted x.toList))

/-- The choice of what becomes of old files, and whether only older ones are replaced. -/
def conflictOf (options : List Given) : Except Misuse (Conflict × Bool) :=
  options.foldlM (fun (state : Conflict × Bool) o =>
    match o.key, o.argument with
    | 'i', _ => .ok (.ask, state.2)
    | 'n', _ => .ok (.keep, state.2)
    | 'u', _ | 'U', none => .ok (state.1, true)
    | 'U', some word => do
      match ← matchWord "--update" [["all"], ["none"], ["older"]] word with
      | 0 => return (.replace, false)
      | 1 => return (.keep, false)
      | _ => return (.replace, true)
    | _, _ => .ok state) (.replace, false)

/-- The names for old files that options ask for. -/
def backupsOf (call : Call) : Except Misuse Backups := do
  let choices := [["none", "off"], ["simple", "never"], ["existing", "nil"], ["numbered", "t"]]
  match call.last? 'B' with
  | some word =>
    match ← matchWord "backup type" choices word with
    | 0 => return .none
    | 1 => return .simple
    | 2 => return .existing
    | _ => return .numbered
  | none => return if call.has 'b' || call.has 'B' || call.has 'S' then .existing else .none

/-- Whether an option asks for modes to be kept. -/
def keepsModeOf (call : Call) : Except Misuse Bool := do
  let choices := [["mode"], ["timestamps"], ["ownership"], ["links"], ["context"], ["xattr"],
    ["all"]]
  let asked ← call.options.mapM fun o => do
    match o.key, o.argument with
    | 'a', _ | 'p', _ | 'k', none => return some true
    | 'k', some words =>
      let numbers ← (words.splitOn ',').mapM (matchWord "--preserve" choices)
      return if numbers.any fun n => n = 0 || n = 6 then some true else none
    | 'm', some words =>
      let numbers ← (words.splitOn ',').mapM (matchWord "--no-preserve" choices)
      return if numbers.any fun n => n = 0 || n = 6 then some false else none
    | _, _ => return none
  return ((asked.filterMap id).getLast?).getD false

/-- What options ask to be made in the place of copies. -/
def linksOf (call : Call) : Except Misuse (Option Linking) :=
  match call.has 'l', call.has 's' with
  | true, true => .error "cannot make both hard and symbolic links".toList
  | true, false => .ok (some .hard)
  | false, true => .ok (some .symbolic)
  | false, false => .ok none

def Copying.ofCall (name : Chars) (call : Call) : Except Misuse Copying := do
  let (conflict, update) ← conflictOf call.options
  return { name, links := ← linksOf call, recursive := call.has 'r' || call.has 'R' || call.has 'a',
           verbose := call.has 'v' || call.has 'D', conflict, update,
           backups := ← backupsOf call, ending := (call.last? 'S').getD ['~'],
           keepsMode := ← keepsModeOf call, removes := call.has 'X', forces := call.has 'f',
           attributesOnly := call.has 'A' }

/-- Why nothing is copied at all, and whether help is advised. -/
abbrev CopyFault := Chars × Bool

/-- Copies operands as a call asks for it; tells whether all could be copied. -/
def copyOperands (w : Copying) (call : Call) : ExceptT CopyFault Exec Bool := do
  let operands := call.operands
  let s ← get
  let targets := call.options.filter fun o => o.key == 't'
  let target? := call.last? 't'
  if 1 < targets.length then throw ("multiple target directories specified".toList, false)
  match operands, target? with
  | [], _ => throw ("missing file operand".toList, true)
  | [only], none =>
    throw ("missing destination file operand after ".toList ++ quoted only, true)
  | _, _ => pure ()
  let directoryFault (path : Chars) : Option OsError :=
    match s.files.locate s.dir (toPath path) with
    | .ok (_, .directory) => none
    | .ok _ => some .notDirectory
    | .error e => some e
  let into (directory : Chars) (files : List Chars) : ExceptT CopyFault Exec Bool :=
    ExceptT.lift (copyInto w directory (call.has 'h') (call.has '/') (1 < files.length) [] [] true
      files)
  let toName : ExceptT CopyFault Exec Bool := do
    if call.has 'h' then
      throw ("with --parents, the destination must be a directory".toList, true)
    let source := operands.headD []
    let target := operands.getLastD []
    let isSame := call.has 'f' && w.backups ≠ .none && source = target &&
      s.files.isFile s.dir (toPath target)
    let (w, target) := if isSame then ({ w with backups := .none }, w.backupName s target)
      else (w, target)
    return (← ExceptT.lift (copyTree w (source, target) [] maxCopyDepth source target
      ⟨true, none, false⟩)).done
  match call.has 'T', target? with
  | true, some _ =>
    throw ("cannot combine --target-directory (-t) and --no-target-directory (-T)".toList, false)
  | true, none =>
    if let extra :: _ := operands.drop 2 then
      throw ("extra operand ".toList ++ quoted extra, true)
    toName
  | false, some directory =>
    match directoryFault directory with
    | some e =>
      throw ("target directory ".toList ++ quoted directory ++ ": ".toList ++ e.plain.toList, false)
    | none => into directory operands
  | false, none =>
    let last := operands.getLastD []
    match directoryFault last with
    | none => into last operands.dropLast
    | some e =>
      if 2 < operands.length then
        throw ("target ".toList ++ quoted last ++ ": ".toList ++ e.plain.toList, false)
      toName

/-- The utility that copies files. -/
def copyFiles (words : List Chars) : Exec Unit := do
  let name := words.headD []
  let refuse (fault : CopyFault) : Exec Unit := do
    grumble name fault.1
    if fault.2 then adviseHelp name
    setStatus 1
  match readCall copyForms words.tail with
  | .error misuse => refuse (misuse, true)
  | .ok call =>
    match Copying.ofCall name call with
    | .error misuse => refuse (misuse, true)
    | .ok w =>
      if call.has 'n' then
        grumble name ("warning: behavior of -n is non-portable and may change in future; " ++
          "use --update=none instead").toList
      if call.has 'n' && w.backups ≠ .none then
        refuse ("options --backup and --no-clobber are mutually exclusive".toList, true)
      else
        match ← (copyOperands w call).run with
        | .ok done => setStatus (if done then 0 else 1)
        | .error fault => refuse fault

end SimWorkbench.Utility
