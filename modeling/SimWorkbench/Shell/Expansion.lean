import SimWorkbench.Shell.Arithmetic
import SimWorkbench.Shell.Script

/-!
# Expansion of words

Parameters, commands and arithmetic in a word give way to their values. Expanding runs commands and
running expands words; here both are given, with one level of nesting less.
-/
namespace SimWorkbench.Shell

/-- The separators of fields: blanks unless the script says otherwise. -/
def separators (s : State) : Chars := (s.value? "IFS".toList).getD " \t\n".toList

/-- Variables that the language knows; they keep their marks when they are unset. -/
def isLasting (s : State) (name : Chars) : Bool :=
  ["IFS", "MAIL", "MAILPATH", "OPTIND", "PATH", "PS1", "PS2", "PS4"].contains
      (String.ofList name) ||
    s.frames.any fun frame => frame.any fun
      | .variable other _ => other == name
      | .settings _ => false

/-- Takes up again the reading of options at the word that a text tells. -/
def resumeOptions (text : Chars) : Exec Unit := do
  match count? text with
  | some n => modify fun s =>
    { s with arguments := { s.arguments with optionWord := max n 1, optionPlace := none } }
  | none => abort ("Illegal number: ".toList ++ text)

/-- Gives a variable a value, or takes it away, and adds marks. -/
def declareVariable (name : Chars) (value : Option Chars) (exported readOnly : Bool) :
    Exec Unit := do
  unless isName name do abort (name ++ ": bad variable name".toList)
  let s ← get
  let old := s.find? name
  if old.any Variable.readOnly then abort (name ++ ": is read only".toList)
  if name = "OPTIND".toList then resumeOptions (value.getD [])
  let exported := exported || s.isOn .allexport
  let kept : Bool := isLasting s name
  modify fun s =>
    if value.isNone && !exported && !readOnly && !kept then s.restore name none
    else s.restore name
      (some ⟨name, value, exported || old.any Variable.exported, readOnly⟩)

/-- Gives a variable a value, if it may have one. -/
def setVariable (name value : Chars) : Exec Unit := declareVariable name (some value) false false

/-- The value of a parameter; none if it is unset. Arguments are joined, with gaps between them where
they can be fields of their own. -/
def parameterValue? (s : State) (manner : Manner) (name : Chars) : Option Chars :=
  let words := s.arguments.words
  let joint : Chars := match s.value? "IFS".toList with
    | some ifs => ifs.take 1
    | none => [' ']
  match name with
  | ['@'] => some ((if manner.splits then [gap] else joint).intercalate words)
  | ['*'] =>
    some ((if manner.splits && !manner.quoted then [gap] else joint).intercalate words)
  | ['?'] => some (decimal s.status)
  | ['#'] => some (decimal words.length)
  | ['$'] => some (decimal s.root)
  | ['!'] => s.lastJob.map fun n => decimal n
  | ['-'] => some (Setting.letters s.settings)
  | _ =>
    if name.all Char.isDigit then
      let n := digitsValue 10 name
      if n = 0 then some s.name else words[n - 1]?
    else s.value? name

/-- A value without the part that a pattern takes from its front or its end. A pattern takes
characters up to the first gap behind the place where it begins. -/
def dropPart (items : List Item) (atEnd longest : Bool) (text : Chars) : Chars :=
  let matches' (part : Chars) : Bool := Item.matchesAll items (part.takeWhile (· ≠ gap))
  let first := text.takeWhile (· ≠ gap)
  let places := List.range (first.length + 1)
  match atEnd, longest with
  | false, false => text.drop ((places.find? fun n => matches' (first.take n)).getD 0)
  | false, true =>
    if matches' first then []
    else text.drop ((places.reverse.find? fun n => matches' (first.take n)).getD 0)
  | true, true =>
    match places.find? fun n => matches' (first.drop n) with
    | some n => text.take n
    | none => text
  | true, false =>
    match (List.range (text.length + 1)).reverse.find? fun n => matches' (text.drop n) with
    | some n => text.take n
    | none => text

/-- What an expansion gave, as its manner asks: outside quotes it can be cut into fields. -/
def expansion (s : State) (manner : Manner) (name text : Chars) : Expanded :=
  if manner.quoted then
    if name.head? = some '@' && !s.arguments.words.isEmpty then .ofRegion text true true
    else .ofChars text true
  else .ofRegion text false false

/-- Directories of the users of the system. -/
def homes : List (String × String) :=
  [("root", "/root"), ("daemon", "/usr/sbin"), ("bin", "/bin"), ("sys", "/dev"),
   ("games", "/usr/games"), ("man", "/var/cache/man"), ("mail", "/var/mail"),
   ("www-data", "/var/www"), ("nobody", "/nonexistent")]

/-- The directory that a name behind a tilde stands for. -/
def homeOf? (s : State) (name : Chars) : Option Chars :=
  if name.isEmpty then s.value? "HOME".toList
  else (homes.lookup (String.ofList name)).map String.toList

/-- The characters of a text, in which tildes have given way to directories. `mayStart` says that a
tilde can stand here; `isLast` that nothing is behind the text. -/
def expandTildes (s : State) (manner : Manner) (isLast : Bool) :
    Nat → Bool → Bool → Chars → List (Char × Bool)
  | 0, _, _, _ => []
  | _, _, _, [] => []
  | n + 1, mayStart, seen, c :: rest =>
    let ends (d : Char) : Bool := d == '/' || (d == ':' && (manner.colons || manner.equals))
    let goOn : List (Char × Bool) :=
      let isEquals := c == '=' && manner.equals && !seen
      let isColon := c == ':' && manner.colons && (seen || !manner.equals)
      (c, false) :: expandTildes s manner isLast n (isEquals || isColon) (seen || c == '=') rest
    if mayStart && c == '~' then
      let name := rest.takeWhile fun d => !ends d
      let after := rest.drop name.length
      match if after.isEmpty && !isLast then none else homeOf? s name with
      | some home =>
        home.map (fun d => (d, true)) ++ expandTildes s manner isLast n false seen after
      | none => goOn
    else goOn

/-- The cells of characters that stand in the script. -/
def expandChars (s : State) (manner : Manner) (first isLast : Bool) (text : Chars)
    (quoted : Bool) : Expanded :=
  let marked :=
    if quoted || manner.quoted || !(manner.tilde || manner.equals || manner.colons) then
      text.map fun c => (c, quoted)
    else
      expandTildes s manner isLast (text.length + 1) (first && manner.tilde) (!first) text
  let cells := (marked.map fun x => Cell.char x.1 x.2).toArray
  -- Runs of characters that were not quoted are regions of their own.
  let runs := (marked.zipIdx.splitBy fun a b => a.1.2 == b.1.2).filterMap fun run =>
    match run with
    | ((_, false), start) :: _ => some (⟨start, start + run.length, false⟩ : Region)
    | _ => none
  ⟨cells, if manner.inner && !manner.quoted && !quoted then runs.toArray else #[]⟩

/-- Ends the script because a parameter has no value. -/
def abortUnset {α : Type} (name : Chars) (text : Option Chars) (alsoEmpty : Bool) : Exec α :=
  abort (name ++ ": ".toList ++ text.getD
    ("parameter not set".toList ++ if alsoEmpty then " or null".toList else []))

/-- The value of a parameter, changed as its use asks. -/
def expandParameter (r : Recursion) (manner : Manner) (name : Chars) (use : ParameterUse)
    (word : List Piece) : Exec Expanded := do
  let s ← get
  let value? := parameterValue? s manner name
  let own (value : Chars) : Expanded := expansion s manner name value
  let other : Exec Expanded := r.word { manner with inner := true, tilde := true } word
  let isAbsent (alsoEmpty : Bool) : Bool := value?.isNone || (alsoEmpty && value? == some [])
  let known : Exec Unit := do
    if value?.isNone && s.isOn .nounset then abortUnset name none false
  match use with
  | .malformed => abort "Bad substitution".toList
  | .value =>
    known
    let front := (value?.map own).getD .empty
    if word.isEmpty then return front else return front ++ (← other)
  | .length =>
    known
    return expansion s manner [] (decimal (value?.getD []).length)
  | .default alsoEmpty => if isAbsent alsoEmpty then other else return own (value?.getD [])
  | .alternative alsoEmpty => if isAbsent alsoEmpty then return .empty else other
  | .assign alsoEmpty =>
    if isAbsent alsoEmpty then
      setVariable name (← r.word .text word).chars
      return expansion (← get) manner name ((parameterValue? (← get) manner name).getD [])
    else return own (value?.getD [])
  | .demand alsoEmpty =>
    if isAbsent alsoEmpty then
      if word.isEmpty then abortUnset name none alsoEmpty
      else abortUnset name (some (← r.word .text word).chars) alsoEmpty
    else return own (value?.getD [])
  | .dropEnd longest | .dropFront longest =>
    known
    match value? with
    | none => return .empty
    | some value =>
      let pattern := cellMarks (← r.word .text word).cells.toList
      return own (dropPart (wildcards pattern) (use = .dropEnd longest) longest value)

/-- The text that a command prints, without the line ends behind it. Its status is put aside. -/
def substituted (r : Recursion) (body : Option Tree) : Exec Chars := do
  match body with
  | none => return []
  | some tree =>
    let status := (← get).status
    let text ← captured (child r (r.tree false tree))
    modify fun s => { s with substitution := s.status, status := status }
    return ((text.filter (· ≠ '\x00')).reverse.dropWhile (· == '\n')).reverse

/-- The value of an arithmetic expression; its assignments are carried out. -/
def calculate (text : Chars) : Exec Chars := do
  let s ← get
  let scope : Arithmetic.Scope :=
    ⟨s.value?, fun name => (s.find? name).any Variable.readOnly⟩
  match Arithmetic.evaluate scope text with
  | .ok (value, assigned) =>
    assigned.reverse.forM fun a => setVariable a.1 a.2
    return decimal value
  | .error (.wrong what) =>
    abort ("arithmetic expression: ".toList ++ what.toList ++ ": \"".toList ++ text ++ ['"'])
  | .error (.noNumber word) => abort ("Illegal number: ".toList ++ word)
  | .error (.readOnly name) => abort (name ++ ": is read only".toList)
  | .error .crash => throw (.killed 8)

/-- Expands pieces from left to right; `inQuotes` says whether a quotation mark is open. -/
def expandPieces (r : Recursion) (manner : Manner) : Bool → Bool → List Piece → Expanded →
    Exec Expanded
  | _, _, [], done => return done
  | first, inQuotes, .mark :: .parameter ['@'] .value [] :: .mark :: rest, done => do
    if inQuotes then
      expandPieces r manner false false (.parameter ['@'] .value [] :: .mark :: rest)
        (done ++ ⟨#[.mark], #[]⟩)
    else
      let e ← expandParameter r { manner with quoted := true } ['@'] .value []
      expandPieces r manner (first && false) false rest (done ++ e)
  | _, inQuotes, .mark :: rest, done =>
    expandPieces r manner false (!inQuotes) rest (done ++ ⟨#[.mark], #[]⟩)
  | first, inQuotes, .chars text quoted :: rest, done => do
    let inner := { manner with quoted := manner.quoted || inQuotes }
    let e := expandChars (← get) inner first rest.isEmpty text (quoted || inQuotes)
    expandPieces r manner false inQuotes rest (done ++ e)
  | _, inQuotes, .parameter name use word :: rest, done => do
    let e ← expandParameter r { manner with quoted := manner.quoted || inQuotes } name use word
    expandPieces r manner false inQuotes rest (done ++ e)
  | _, inQuotes, .command body :: rest, done => do
    let text ← substituted r body
    let e := expansion (← get) { manner with quoted := manner.quoted || inQuotes } [] text
    expandPieces r manner false inQuotes rest (done ++ e)
  | _, inQuotes, .arithmetic word :: rest, done => do
    let text ← calculate (← r.word .document word).chars
    let e := expansion (← get) { manner with quoted := manner.quoted || inQuotes } [] text
    expandPieces r manner false inQuotes rest (done ++ e)
  termination_by _ _ pieces => pieces.length

/-- Expands a word. -/
def expandWord (r : Recursion) (manner : Manner) (word : List Piece) : Exec Expanded :=
  expandPieces r manner true false word .empty

/-- The names in a directory that a pattern takes. A dot in front has to stand in the pattern. -/
def matchingNames (s : State) (directory : Chars) (pattern : List Mark) : List Chars :=
  let place : Path := ⟨if directory.isEmpty then "." else toText directory⟩
  match s.files.locate s.dir place with
  | .ok (l, .directory) =>
    let names := (s.files.below l).filterMap fun x =>
      match x.1 with
      | [name] => some (ofText name)
      | _ => none
    let dotted := (pattern.head?.map Prod.fst) == some '.'
    let items := wildcards pattern
    ((if dotted then [['.'], ['.', '.']] else []) ++ names).filter fun name =>
      (dotted || name.head? != some '.') && Item.matchesAll items name
  | _ => []

/-- The paths of files that begin as given and go on as patterns say, one for each segment. -/
def matchingPaths (s : State) : Chars → List (List Mark) → List Chars
  | done, [] => if s.files.exists? s.dir ⟨toText done⟩ then [done] else []
  | done, pattern :: rest =>
    let names :=
      if asksForNames pattern then matchingNames s done pattern else [pattern.map Prod.fst]
    names.flatMap fun name =>
      matchingPaths s (done ++ name ++ (if rest.isEmpty then [] else ['/'])) rest

/-- A field, or the names of the files that it asks for, in order. -/
def expandNames (s : State) (field : List Cell) : List Chars :=
  let pattern := unescaped (cellMarks field)
  if !s.isOn .noglob && asksForNames pattern then
    match matchingPaths s [] (pattern.splitOnP fun x => x.1 == '/') with
    | [] => [cellChars field]
    | paths => paths.mergeSort fun a b => !(b < a)
  else [cellChars field]

/-- The fields that words give. -/
def expandFields (r : Recursion) (words : List (List Piece)) : Exec (List Chars) := do
  let found ← words.mapM fun w => do
    let e ← r.word .field w
    let s ← get
    return (e.fields (separators s) none).flatMap (expandNames s)
  return found.flatten

/-- The text of a word that is not cut into fields. -/
def expandText (r : Recursion) (manner : Manner) (word : List Piece) : Exec Chars :=
  return (← r.word manner word).chars

end SimWorkbench.Shell
