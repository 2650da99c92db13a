import SimWorkbench.FileTree.ModeChange
import SimWorkbench.Shell.Parameters

/-!
# The current directory and the rights to new files

A script knows the directory it works in by a name. Double dots in a path take away the segment in
front of them before any file is looked at.
-/
namespace SimWorkbench.Shell

/-- The names of a path behind those of the directory `done`, whose last name comes first. -/
def lexicalNames : List Chars → List Chars → List Chars
  | done, [] => done
  | done, segment :: rest =>
    if segment = [] || segment = ['.'] then lexicalNames done rest
    else if segment = ['.', '.'] then lexicalNames done.tail rest
    else lexicalNames (segment :: done) rest

/-- The absolute path that a path means, seen from a directory. Two slashes in front stay two. -/
def lexicalPath (here path : Chars) : Chars :=
  let doubled (text : Chars) : Bool :=
    "//".toList.isPrefixOf text && !"///".toList.isPrefixOf text
  let isAbsolute := path.head? == some '/'
  let start := if isAbsolute then [] else ((here.splitOn '/').filter (· ≠ [])).reverse
  let names := lexicalNames start (path.splitOn '/')
  (if doubled (if isAbsolute then path else here) then "//".toList else ['/']) ++
    ['/'].intercalate names.reverse

/-- Whether a path is not looked for in the directories of a list. -/
def isAnchored (path : Chars) : Bool :=
  match path with
  | '/' :: _ | ['.'] | '.' :: '/' :: _ | ['.', '.'] | '.' :: '.' :: '/' :: _ => true
  | _ => false

/-- Goes to a directory; tells whether there is one. -/
def enterDirectory (path : Chars) : Exec Bool := do
  let s ← get
  let name := lexicalPath s.dirName path
  match s.files.locate s.dir (toPath name) with
  | .ok (place, .directory) =>
    declareVariable "OLDPWD".toList (some s.dirName) true false
    modify fun s =>
      { s with dir := place, dirName := name,
               known := s.known.map fun k => { k with stale := true } }
    declareVariable "PWD".toList (some name) true false
    return true
  | _ => return false

/-- The command that goes to another directory: to a given one, back to the one before, or home. -/
def cdCommand (words : List Chars) : Exec Unit := do
  let o ← readOptions [('L', false), ('P', false)] words
  let s ← get
  let goesBack : Bool := o.words.head? == some ['-']
  let wanted := match o.words with
    | word :: _ => if goesBack then (s.value? "OLDPWD".toList).getD [] else word
    | [] => (s.value? "HOME".toList).getD []
  let candidates : List (Chars × Bool) :=
    if isAnchored wanted then []
    else
      let target := if wanted.isEmpty then ['.'] else wanted
      (((s.value? "CDPATH".toList).getD []).splitOn ':').map fun d =>
        if d.isEmpty then (target, false)
        else (if d.getLast? == some '/' then d ++ target else d ++ '/' :: target, true)
  let found := candidates.find? fun c => s.files.isDirectory s.dir (toPath c.1)
  let (path, shows) := found.getD (wanted, false)
  if ← enterDirectory path then
    if goesBack || shows then print ((← get).dirName ++ ['\n'])
    setStatus 0
  else abort ("can't cd to ".toList ++ wanted)

/-- The command that prints the current directory. -/
def pwdCommand (words : List Chars) : Exec Unit := do
  discard (readOptions [('L', false), ('P', false)] words)
  print ((← get).dirName ++ ['\n'])
  setStatus 0

/-- Rights as letters for the three classes. -/
def rightLetters (mode : Mode) : Chars :=
  let letters (shift : Nat) : Chars :=
    let bits := (mode >>> shift) % 8
    (if bits ≥ 4 then ['r'] else []) ++ (if bits % 4 ≥ 2 then ['w'] else []) ++
      (if bits % 2 = 1 then ['x'] else [])
  "u=".toList ++ letters 6 ++ ",g=".toList ++ letters 3 ++ ",o=".toList ++ letters 0

/-- An octal number of four digits. -/
def octalDigits (n : Nat) : Chars :=
  let digits := Nat.toDigits 8 n
  List.replicate (4 - digits.length) '0' ++ digits

/-- The changes of rights that a text describes. One comma may be left over at its end. -/
def rightChanges? (text : Chars) : Option (List ModeChange) :=
  let text := if text.length > 1 && text.getLast? = some ',' then text.dropLast else text
  if text.isEmpty then some []
  else if text.any fun c => c == 't' || c.isDigit then none
  else ModeChange.read? text

/-- The command that says which rights new files do not get. -/
def umaskCommand (words : List Chars) : Exec Unit := do
  let o ← readOptions [('S', false)] words
  let withheld := (← get).withheld
  let granted := ModeChange.without 0o777 withheld
  match o.words with
  | [] => print ((if o.has 'S' then rightLetters granted else octalDigits withheld) ++ ['\n'])
  | word :: _ =>
    if (word.head?.map Char.isDigit).getD false then
      unless word.all ModeChange.isOctal do abortNumber word
      modify fun s => { s with withheld := digitsValue 8 word % 512 }
    else
      match rightChanges? word with
      | some changes =>
        let granted := ModeChange.applyAll changes false 0 granted
        modify fun s => { s with withheld := ModeChange.without 0o777 granted }
      | none => abort ("Illegal mode: ".toList ++ word)
  setStatus 0

end SimWorkbench.Shell
