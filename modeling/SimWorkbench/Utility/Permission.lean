import SimWorkbench.FileTree.ModeChange
import SimWorkbench.Utility.Options

/-!
# Changing modes

The modes of files are changed as the first operand says, or made that of another file. A mode with
a dash in front may also stand among the options; then it is told where bits that are withheld from
new files made a difference.
-/
namespace SimWorkbench.Utility

open Shell

/-- A word in single quotes, with backslashes before quotes in it. -/
def plainlyQuoted (word : Chars) : Chars :=
  '\'' :: (word.flatMap fun c =>
    if c == '\'' || c == '\\' then ['\\', c] else (escapeOf? c).getD [c]) ++ ['\'']

/-- Options that are modes. -/
def modeKeys : List Char := "rwxXstugoa,+=01234567".toList

def permissionForms : List OptionForm :=
  [⟨'c', .nothing, true, ["changes"]⟩, ⟨'R', .nothing, true, ["recursive"]⟩,
   ⟨'!', .nothing, false, ["no-preserve-root"]⟩, ⟨'#', .nothing, false, ["preserve-root"]⟩,
   ⟨'f', .nothing, true, ["quiet", "silent"]⟩, ⟨'@', .argument, false, ["reference"]⟩,
   ⟨'v', .nothing, true, ["verbose"]⟩, ⟨'?', .nothing, false, ["help"]⟩,
   ⟨'%', .nothing, false, ["version"]⟩] ++ modeKeys.map fun c => ⟨c, .perhaps, true, []⟩

/-- Nine letters for the rights, three for each class; special bits show where execution does. -/
def modeLetters (mode : Mode) : Chars :=
  let one (shift special : Nat) (letter : Char) : Chars :=
    let bits := (mode >>> shift) % 8
    let runs := bits % 2 = 1
    [if bits ≥ 4 then 'r' else '-', if bits % 4 ≥ 2 then 'w' else '-',
     if mode &&& special ≠ 0 then (if runs then letter else letter.toUpper)
     else if runs then 'x' else '-']
  one 6 0o4000 's' ++ one 3 0o2000 's' ++ one 0 0o1000 't'

/-- A mode as four octal digits and as letters. -/
def modeText (mode : Mode) : Chars :=
  let digits := Nat.toDigits 8 mode
  List.replicate (4 - digits.length) '0' ++ digits ++ " (".toList ++ modeLetters mode ++ [')']

/-- What is to be done with modes. -/
structure ModeWork where
  name : Chars
  changes : List ModeChange
  recursive : Bool
  silent : Bool
  /-- What is told: only changes, or everything. -/
  tellsChanges : Bool
  tellsAll : Bool
  /-- Whether the mode stood among the options. -/
  surprises : Bool

/-- The files a path leads to: itself, and if that is asked for all that is below it. -/
def filesBelow (s : State) (recursive : Bool) (path : Chars) : List Chars :=
  match s.files.locate s.dir (toPath path) with
  | .ok (place, .directory) =>
    if recursive then
      let names := (s.files.below place).map fun x => ofText ("/".intercalate x.1)
      path :: (names.mergeSort fun a b => !(b < a)).map fun n =>
        if path.getLast? = some '/' then path ++ n else path ++ '/' :: n
    else [path]
  | _ => [path]

/-- Changes the mode of one file; tells whether that worked. -/
def changeMode (w : ModeWork) (path : Chars) : Exec Bool := do
  let s ← get
  match s.files.locate s.dir (toPath path) with
  | .error e =>
    unless w.silent do
      grumble w.name ("cannot access ".toList ++ quoted path ++ ": ".toList ++ e.plain.toList)
    if w.tellsAll then discard (emitOn 1 (quoted path ++ " could not be accessed\n".toList))
    return false
  | .ok (place, entry) =>
    let old := entry.mode
    let after (withheld : Mode) : Mode :=
      ModeChange.applyAll w.changes entry.isDirectory withheld old
    let new := after s.withheld
    if let .file content _ := entry then
      unless new = old do putEntry place (.file content new)
    if w.tellsAll || (w.tellsChanges && new ≠ old) then
      discard (emitOn 1 ("mode of ".toList ++ quoted path ++
        (if new = old then " retained as ".toList
         else " changed from ".toList ++ modeText old ++ " to ".toList) ++ modeText new ++ ['\n']))
    if w.surprises && ModeChange.without new (after 0) ≠ 0 then
      grumble w.name (quotedIfNeeded path ++ ": new permissions are ".toList ++ modeLetters new ++
        ", not ".toList ++ modeLetters (after 0))
      return false
    return true

/-- The changes that operands and options ask for, and the files they are for; or what is wrong, and
whether help is advised. -/
def modeWork? (s : State) (name : Chars) (call : Call) :
    Except (Chars × Bool) (ModeWork × List Chars) := do
  let own := (call.options.filter fun o => modeKeys.contains o.key).map Given.word
  let make (changes : List ModeChange) : ModeWork :=
    { name, changes, recursive := call.has 'R', silent := call.has 'f',
      tellsChanges := call.lastOf? ['c', 'v'] = some 'c',
      tellsAll := call.lastOf? ['c', 'v'] = some 'v', surprises := !own.isEmpty }
  match call.last? '@' with
  | some reference =>
    unless own.isEmpty do throw ("cannot combine mode and --reference options".toList, true)
    if call.operands.isEmpty then throw ("missing operand".toList, true)
    match s.files.locate s.dir (toPath reference) with
    | .ok (_, entry) =>
      return (make [⟨.set, .named, ModeChange.allBits, entry.mode, ModeChange.allBits⟩],
        call.operands)
    | .error e =>
      throw ("failed to get attributes of ".toList ++ quoted reference ++ ": ".toList ++
        e.plain.toList, false)
  | none =>
    let (mode, files) ← match own, call.operands with
      | [], [] => throw ("missing operand".toList, true)
      | [], [mode] => throw ("missing operand after ".toList ++ plainlyQuoted mode, true)
      | [], mode :: files => pure (mode, files)
      | _, [] => throw ("missing operand".toList, true)
      | words, files => pure ([','].intercalate words, files)
    match ModeChange.read? mode with
    | some changes => return (make changes, files)
    | none => throw ("invalid mode: ".toList ++ plainlyQuoted mode, true)

/-- The utility that changes modes. -/
def changeModes (words : List Chars) : Exec Unit := do
  let name := words.headD []
  let refuse (fault : Chars) (advises : Bool) : Exec Unit := do
    grumble name fault
    if advises then adviseHelp name
    setStatus 1
  match readCall permissionForms words.tail with
  | .error misuse => refuse misuse true
  | .ok call =>
    match modeWork? (← get) name call with
    | .error (fault, advises) => refuse fault advises
    | .ok (work, paths) =>
      let done ← paths.mapM fun path => do
        return (← (filesBelow (← get) work.recursive path).mapM (changeMode work)).all id
      setStatus (if done.all id then 0 else 1)

end SimWorkbench.Utility
