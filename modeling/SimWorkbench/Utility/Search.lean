import SimWorkbench.Regex.Reader
import SimWorkbench.Shell.Pattern
import SimWorkbench.Utility.Concatenate
import SimWorkbench.Utility.Selection

/-!
# Searching files

Files, directories with all that is below them, and the input are searched for lines that match
patterns. The status tells whether a line was selected, and whether something went wrong.
-/
namespace SimWorkbench.Utility

open Shell

/-- The options of the utility that searches. -/
def searchForms : List OptionForm :=
  [⟨'G', .nothing, true, ["basic-regexp"]⟩, ⟨'E', .nothing, true, ["extended-regexp"]⟩,
   ⟨'F', .nothing, true, ["fixed-regexp", "fixed-strings"]⟩,
   ⟨'P', .nothing, true, ["perl-regexp"]⟩, ⟨'A', .argument, true, ["after-context"]⟩,
   ⟨'B', .argument, true, ["before-context"]⟩, ⟨'@', .argument, false, ["binary-files"]⟩,
   ⟨'j', .nothing, false, ["line-buffered"]⟩, ⟨'b', .nothing, true, ["byte-offset"]⟩,
   ⟨'C', .argument, true, ["context"]⟩, ⟨'k', .perhaps, false, ["color", "colour"]⟩,
   ⟨'c', .nothing, true, ["count"]⟩, ⟨'D', .argument, true, ["devices"]⟩,
   ⟨'d', .argument, true, ["directories"]⟩, ⟨'-', .argument, false, ["exclude"]⟩,
   ⟨'#', .argument, false, ["exclude-from"]⟩, ⟨'/', .argument, false, ["exclude-dir"]⟩,
   ⟨'f', .argument, true, ["file"]⟩, ⟨'l', .nothing, true, ["files-with-matches"]⟩,
   ⟨'L', .nothing, true, ["files-without-match"]⟩, ⟨'g', .argument, false, ["group-separator"]⟩,
   ⟨'?', .nothing, false, ["help"]⟩, ⟨'+', .argument, false, ["include"]⟩,
   ⟨'i', .nothing, true, ["ignore-case"]⟩, ⟨'O', .nothing, false, ["no-ignore-case"]⟩,
   ⟨'T', .nothing, true, ["initial-tab"]⟩, ⟨'N', .argument, false, ["label"]⟩,
   ⟨'n', .nothing, true, ["line-number"]⟩, ⟨'x', .nothing, true, ["line-regexp"]⟩,
   ⟨'m', .argument, true, ["max-count"]⟩, ⟨'h', .nothing, true, ["no-filename"]⟩,
   ⟨'K', .nothing, false, ["no-group-separator"]⟩, ⟨'s', .nothing, true, ["no-messages"]⟩,
   ⟨'Z', .nothing, true, ["null"]⟩, ⟨'z', .nothing, true, ["null-data"]⟩,
   ⟨'o', .nothing, true, ["only-matching"]⟩, ⟨'q', .nothing, true, ["quiet"]⟩,
   ⟨'r', .nothing, true, ["recursive"]⟩, ⟨'R', .nothing, true, ["dereference-recursive"]⟩,
   ⟨'e', .argument, true, ["regexp"]⟩, ⟨'v', .nothing, true, ["invert-match"]⟩,
   ⟨'q', .nothing, true, ["silent"]⟩, ⟨'a', .nothing, true, ["text"]⟩,
   ⟨'U', .nothing, true, ["binary"]⟩, ⟨'u', .nothing, true, ["unix-byte-offsets"]⟩,
   ⟨'V', .nothing, true, ["version"]⟩, ⟨'H', .nothing, true, ["with-filename"]⟩,
   ⟨'w', .nothing, true, ["word-regexp"]⟩, ⟨'I', .nothing, true, []⟩,
   ⟨'X', .argument, true, []⟩, ⟨'y', .nothing, true, []⟩] ++
  "0123456789".toList.map fun c => ⟨c, .nothing, true, []⟩

/-- What is done with directories. -/
inductive AtDirectory where
  | read
  | enter
  | skip
  deriving DecidableEq, Repr

/-- What is done with texts that are not made of lines. -/
inductive AtBinary where
  | tell
  | asText
  | skip
  deriving DecidableEq, Repr

/-- What is told of a file. -/
inductive Telling where
  | lines
  | count
  /-- Its name, if lines are selected in it or if none are. -/
  | names (selected : Bool)
  | nothing
  deriving DecidableEq, Repr

/-- A search that has been asked for. -/
structure Search where
  name : Chars
  query : Query
  layout : Layout
  around : Surroundings
  telling : Telling
  limit : Option Nat
  withNames : Option Bool
  operands : Nat
  inputLabel : Chars
  hidesFaults : Bool
  atDirectory : AtDirectory
  atBinary : AtBinary
  skipsDevices : Bool
  /-- Patterns for names that are left out, or the only ones that are not. -/
  names : List (Bool × List Item)
  directoryNames : List (List Item)

/-- How a search has gone so far. -/
structure SearchRun where
  hasFailed : Bool
  hasSelected : Bool
  hasGroup : Bool

/-- How deep directories are searched. -/
def maxSearchDepth : Nat := 300

namespace Search

/-- Whether a name is left out: the last pattern that matches it decides, and if none does, whether
the first one was for names that are not left out. -/
def leavesOut (w : Search) (anywhere : Bool) (name : Chars) : Bool :=
  let parts := name.splitOn '/'
  let tails := (List.range parts.length).map fun n => ['/'].intercalate (parts.drop n)
  let candidates := if anywhere then tails else [name]
  match w.names.reverse.find? fun x => candidates.any (Item.matchesAll x.2) with
  | some (keeps, _) => !keeps
  | none => (w.names.head?.map Prod.fst).getD false

/-- Tells that something could not be searched. -/
def fault (w : Search) (run : SearchRun) (label : Chars) (text : String) : Exec SearchRun := do
  unless w.hidesFaults do grumble w.name (label ++ ": ".toList ++ text.toList)
  return { run with hasFailed := true }

/-- Prints to the output; the search ends if that fails. -/
def tell (w : Search) (text : Chars) : Exec Unit := do
  if let some e ← emitOn 1 text then
    grumble w.name ("write error: ".toList ++ e.plain.toList)
    throw (.exit 2)

/-- Whether a descriptor leads to the file that the output goes to. -/
def feedsOutput (s : State) (descriptor : Nat) : Bool :=
  let channel? (d : Nat) : Option Channel :=
    ((s.descriptors.lookup d).bind s.openFile?).map OpenFile.channel
  match channel? descriptor, channel? 1 with
  | some (.file place), some (.file place') => place = place'
  | _, _ => false

/-- Whether the place in what a descriptor yields can be chosen. -/
def isSeekable (s : State) (descriptor : Nat) : Bool :=
  match ((s.descriptors.lookup descriptor).bind s.openFile?).map OpenFile.channel with
  | some (.file _) => true
  | _ => false

/-- How wide numbers are that count the lines or bytes of a text. -/
def numberWidth (w : Search) (s : State) (descriptor : Nat) : Nat :=
  if !w.layout.tabs then 0
  else
    let size := match (s.descriptors.lookup descriptor).bind s.openFile? with
      | some { channel := .file place, .. } =>
        match s.files.get? place with
        | some (.file content _) => content.length
        | _ => 0
      | _ => Nat.pow 2 64 - 2
    (decimal (size + if w.layout.numbers then 1 else 0)).length

/-- Searches what a descriptor yields. -/
def searchDescriptor (w : Search) (label : Chars) (withName : Bool) (descriptor : Nat)
    (run : SearchRun) : Exec SearchRun := do
  let s ← get
  match ← peek descriptor with
  | .error e => w.fault run label e.plain
  | .ok (text, complete) =>
    if w.telling = .lines && w.limit ≠ some 1 && feedsOutput s descriptor then
      return ← w.fault run label "input file is also the output"
    let isBinary : Bool := w.layout.lineEnd ≠ '\x00' && w.atBinary ≠ .asText &&
      text.contains '\x00'
    let layout := { w.layout with label := if withName then some label else none,
                                  width := w.numberWidth s descriptor }
    let isOnce : Bool := match w.telling with
      | .names _ | .nothing => true
      | .count => false
      | .lines => isBinary
    let ends (c : Char) : Bool := c == w.layout.lineEnd || (isBinary && c == '\x00')
    let left := if isOnce then some (min 1 (w.limit.getD 1)) else w.limit
    let start : Found := ⟨[], false, 0, left, 0, run.hasGroup, 0, []⟩
    let around : Surroundings := if isOnce then ⟨none, none, none⟩ else w.around
    let found := if isBinary && w.atBinary = .skip then start
      else start.through w.query layout around (linesOf ends text)
    let isDone : Bool := found.left = some 0 && found.pending = 0
    unless complete || isDone do throw .waiting
    let stays : Bool := !isOnce && found.left = some 0 && isSeekable s descriptor
    skipInput descriptor (if stays then min found.reached text.length else text.length)
    let isSelected : Bool := found.count ≠ 0
    match w.telling with
    | .lines =>
      if !isBinary then w.tell found.pieces.reverse.flatten
      else if isSelected then grumble w.name (label ++ ": binary file matches".toList)
    | .count =>
      w.tell ((if withName then layout.name label [':'] else []) ++ decimal found.count ++ ['\n'])
    | .names selected => if selected = isSelected then w.tell (layout.name label ['\n'])
    | .nothing => pure ()
    return { run with hasSelected := run.hasSelected || isSelected,
                      hasGroup := run.hasGroup || isSelected }

/-- Searches a file, or a directory as it is asked for. `isOperand` says that the name was given and
not found in a directory; the number bounds the depth. -/
def searchPath (w : Search) (isOperand : Bool) : Nat → Chars → SearchRun → Exec SearchRun
  | 0, _, run => return run
  | n + 1, label, run => do
    if w.telling = .nothing && run.hasSelected then return run
    let s ← get
    match s.files.locate s.dir (toPath (if label.isEmpty then ['.'] else label)) with
    | .error e => w.fault run label e.plain
    | .ok (place, .directory) =>
      let base := ((label.reverse.dropWhile (· == '/')).reverse.splitOn '/').getLastD []
      if w.directoryNames.any fun items => Item.matchesAll items base then return run
      match w.atDirectory with
      | .read => w.fault run label OsError.isDirectory.plain
      | .skip => return run
      | .enter =>
        let names := (s.files.below place).reverse.filterMap fun x =>
          match x.1 with
          | [name] => some (ofText name)
          | _ => none
        names.foldlM (fun run name =>
          let inner := if label.isEmpty then name
            else if label.getLast? = some '/' then label ++ name else label ++ '/' :: name
          searchPath w false n inner run) run
    | .ok (_, entry) =>
      let base := if isOperand then label else (label.splitOn '/').getLastD []
      if w.leavesOut isOperand base then return run
      let isDevice : Bool := match entry with
        | .device _ => true
        | _ => false
      let passes : Bool := w.skipsDevices || (w.atDirectory = .enter && !isOperand)
      if isDevice && passes then return run
      let withName := w.withNames.getD (2 ≤ w.operands || !isOperand)
      match ← openForReading label with
      | .error e => w.fault run label e.plain
      | .ok file =>
        withOpen fileDescriptor file (w.searchDescriptor label withName fileDescriptor run)

/-- Searches operands one after the other. -/
def searchAll (w : Search) : SearchRun → List Chars → Exec SearchRun
  | run, [] => return run
  | run, label :: rest => do
    if w.telling = .nothing && run.hasSelected then return run
    let run ← if label = ['-'] then
        w.searchDescriptor w.inputLabel (w.withNames.getD (2 ≤ w.operands)) 0 run
      else w.searchPath true maxSearchDepth label run
    searchAll w run rest

end Search

/-- Where a pattern comes from: a file and the line in it. -/
abbrev Origin := Option (Chars × Nat)

/-- The kinds of patterns. -/
inductive PatternKind where
  | text
  | regex (dialect : Dialect)
  deriving DecidableEq, Repr

/-- What the options have asked for so far. -/
structure Request where
  kind : Option PatternKind
  patterns : Option (List (Chars × Origin))
  before : Option Nat
  after : Option Nat
  around : Option Nat
  /-- Digits that were given as options, and the word they stood in. -/
  digits : Chars × Chars
  mark : Option Chars
  names : List (Bool × List Item)

/-- Ends the search with a message. -/
def failSearch {α : Type} (name : Chars) (text : Chars) : Exec α := do
  grumble name text
  throw (.exit 2)

/-- Says how the utility is used. -/
def adviseSearch : Exec Unit :=
  emit 2 ("Usage: grep [OPTION]... PATTERNS [FILE]...\n" ++
    "Try 'grep --help' for more information.\n").toList

/-- The number that a whole word spells. -/
def wholeNumber? (word : Chars) : Option Int :=
  let n := readNumeral 10 word
  if n.found && n.rest.isEmpty then some n.value else none

/-- A number of lines that was given with an option. -/
def contextLength (name : Chars) (word : Chars) : Exec Nat :=
  match wholeNumber? word with
  | some (.ofNat n) => return n
  | _ => failSearch name (word ++ ": invalid context length argument".toList)

/-- The lines of a file, for options that take one. -/
def linesOfFile (name : Chars) (label : Chars) : Exec (List Chars) := do
  let fault {α : Type} (e : OsError) : Exec α :=
    failSearch name (label ++ ": ".toList ++ e.plain.toList)
  let content ← if label = ['-'] then readAll 0
    else match ← openForReading label with
      | .error e => fault e
      | .ok file => withOpen fileDescriptor file (readAll fileDescriptor)
  match content with
  | .error e => fault e
  | .ok text => return (linesOf (· == '\n') text).map Line.text

/-- What a word can mean that says what is done with directories. -/
def atDirectory? (word : Chars) : List AtDirectory :=
  [("read", AtDirectory.read), ("recurse", .enter), ("skip", .skip)].filterMap fun choice =>
    if word.isPrefixOf choice.1.toList then some choice.2 else none

/-- The items of a pattern for names. -/
def nameItems (pattern : Chars) : List Item := wildcards (pattern.map fun c => (c, false))

/-- Takes an option. -/
def Request.take (name : Chars) (r : Request) (o : Given) : Exec Request := do
  let word := o.argument.getD []
  let kind (k : PatternKind) : Exec Request :=
    match r.kind with
    | some k' =>
      if k = k' then return r else failSearch name "conflicting matchers specified".toList
    | none => return { r with kind := some k }
  let patterns (more : List (Chars × Origin)) : Request :=
    { r with patterns := some (r.patterns.getD [] ++ more) }
  match o.key with
  | 'G' => kind (.regex .basic)
  | 'E' => kind (.regex .extended)
  | 'P' => kind (.regex .perl)
  | 'F' => kind .text
  | 'X' =>
    match String.ofList word with
    | "grep" => kind (.regex .basic)
    | "egrep" | "awk" | "gawk" | "posixawk" => kind (.regex .extended)
    | "fgrep" => kind .text
    | "perl" => kind (.regex .perl)
    | _ => failSearch name ("invalid matcher ".toList ++ word)
  | 'e' => return patterns ((word.splitOn '\n').map fun p => (p, none))
  | 'f' =>
    let lines ← linesOfFile name word
    return patterns (lines.zipIdx.map fun x => (x.1, some (word, x.2 + 1)))
  | 'A' => return { r with after := some (← contextLength name word) }
  | 'B' => return { r with before := some (← contextLength name word) }
  | 'C' => return { r with around := some (← contextLength name word) }
  | 'm' =>
    if (wholeNumber? word).isSome then return r
    else failSearch name "invalid max count".toList
  | 'g' => return { r with mark := some word }
  | 'K' => return { r with mark := none }
  | 'D' =>
    if word = "read".toList || word = "skip".toList then return r
    else failSearch name "unknown devices method".toList
  | 'd' =>
    match atDirectory? word with
    | [_] => return r
    | choices =>
      grumble name ((if choices.isEmpty then "invalid" else "ambiguous").toList ++
        " argument '".toList ++ word ++
        "' for '--directories'\nValid arguments are:\n  - 'read'\n  - 'recurse'\n  - 'skip'".toList)
      adviseSearch
      throw (.exit 1)
  | '@' =>
    if ["binary", "text", "without-match"].any fun c => c.toList = word then return r
    else failSearch name "unknown binary-files type".toList
  | 'u' =>
    grumble name "warning: --unix-byte-offsets (-u) is obsolete".toList
    return r
  | '-' => return { r with names := r.names ++ [(false, nameItems word)] }
  | '+' => return { r with names := r.names ++ [(true, nameItems word)] }
  | '#' =>
    let lines ← linesOfFile name word
    return { r with names := r.names ++ lines.map fun p => (false, nameItems p) }
  | c =>
    if c.isDigit then
      let digits := if r.digits.2 = o.word then r.digits.1 ++ [c] else [c]
      return { r with digits := (digits, o.word), around := some (digitsValue 10 digits) }
    else return r

/-- The expressions of patterns, and those that tell where matches lie; faults are told and end the
search. -/
def expressionsOf (name : Chars) (kind : PatternKind) (patterns : List (Chars × Origin)) :
    Exec (List Regex × List Regex) :=
  match kind with
  | .text =>
    let expressions := patterns.map fun p => Regex.ofText p.1
    return (expressions, expressions)
  | .regex dialect => do
    let read := patterns.map fun p => (Regex.read dialect false p.1, p.2)
    let place (origin : Origin) : Chars :=
      match origin with
      | some (file, line) => file ++ ':' :: decimal line ++ ": ".toList
      | none => []
    let faults := read.filterMap fun
      | (.error e, origin) => some (e, origin)
      | (.ok _, _) => none
    faults.forM fun f => grumble name (place f.2 ++ f.1.message.toList)
    unless faults.isEmpty do throw (.exit 2)
    let good := read.filterMap fun
      | (.ok x, _) => some x
      | (.error _, _) => none
    good.forM fun x => x.2.forM fun remark =>
      match remark with
      | .operatorAtStart _ => grumble name ("warning: " ++ remark.message).toList
      | .bareClass | .badBraces => failSearch name remark.message.toList
    let places := patterns.filterMap fun p => (Regex.read dialect true p.1).toOption.map Prod.fst
    return (good.map Prod.fst, places)

/-- What is done with directories: the last option that says so counts. -/
def atDirectoryOf (options : List Given) : AtDirectory :=
  options.foldl (fun last o =>
    match o.key with
    | 'r' | 'R' => .enter
    | 'd' => ((atDirectory? (o.argument.getD [])).head?).getD last
    | _ => last) .read

/-- What is done with texts that are not made of lines. -/
def atBinaryOf (options : List Given) : AtBinary :=
  options.foldl (fun last o =>
    match o.key, String.ofList (o.argument.getD []) with
    | 'a', _ | '@', "text" => .asText
    | 'I', _ | '@', "without-match" => .skip
    | '@', _ => .tell
    | _, _ => last) .tell

/-- What is told of each file. -/
def tellingOf (call : Call) : Telling :=
  if call.has 'q' then .nothing
  else match call.lastOf? ['l', 'L'] with
    | some key => .names (key == 'l')
    | none => if call.has 'c' then .count else .lines

/-- The search that a call asks for. -/
def Search.ofCall (name : Chars) (call : Call) (r : Request)
    (expressions : List Regex × List Regex) (operands : Nat) : Search :=
  let word (key : Char) : String := String.ofList ((call.last? key).getD [])
  { name
    query := { expressions := expressions.1, places := expressions.2,
               folds := (call.lastOf? ['i', 'y', 'O']).any (· != 'O'),
               inverts := call.has 'v', wholeLines := call.has 'x', wholeWords := call.has 'w' }
    layout := { label := none, numbers := call.has 'n', offsets := call.has 'b', width := 0,
                tabs := call.has 'T', zeros := call.has 'Z', colors := word 'k' == "always",
                lineEnd := if call.has 'z' then '\x00' else '\n', onlyMatches := call.has 'o' }
    around := ⟨r.before.or r.around, r.after.or r.around, r.mark⟩
    telling := tellingOf call
    limit := ((call.last? 'm').bind wholeNumber?).bind fun n => if n < 0 then none else some n.toNat
    withNames := (call.lastOf? ['H', 'h']).map (· == 'H')
    operands
    inputLabel := (call.last? 'N').getD "(standard input)".toList
    hidesFaults := call.has 's'
    atDirectory := atDirectoryOf call.options
    atBinary := atBinaryOf call.options
    skipsDevices := word 'D' == "skip"
    names := r.names
    directoryNames := (call.options.filter fun o => o.key == '/').map fun o =>
      nameItems (o.argument.getD []) }

/-- The utility that searches files. -/
def searchFiles (words : List Chars) : Exec Unit := do
  let name := words.headD []
  match readCall searchForms words.tail with
  | .error misuse =>
    grumble name misuse
    adviseSearch
    setStatus 2
  | .ok call =>
    let start : Request := ⟨none, none, none, none, none, ([], []), some ['-', '-'], []⟩
    let r ← call.options.foldlM (Request.take name) start
    match r.patterns, call.operands with
    | none, [] =>
      adviseSearch
      setStatus 2
    | given, operands =>
      let (patterns, files) := match given, operands with
        | none, first :: rest => ((first.splitOn '\n').map fun p => (p, none), rest)
        | some patterns, files => (patterns, files)
        | none, [] => ([], [])
      let telling := tellingOf call
      let unique := (patterns.foldl (fun (seen : List (Chars × Origin)) p =>
        if seen.any fun x => x.1 = p.1 then seen else p :: seen) []).reverse
      let selectsNone : Bool := unique.all fun p =>
        p.1.isEmpty && call.has 'v' && !call.has 'x' && !call.has 'w'
      let isVain : Bool := selectsNone && (!unique.isEmpty || !call.has 'v') ||
        (call.last? 'm').bind wholeNumber? = some 0
      if isVain && telling ≠ .names false then setStatus 1
      else
        let expressions ← expressionsOf name (r.kind.getD (.regex .basic)) unique
        let w := Search.ofCall name call r expressions files.length
        let start : SearchRun := ⟨false, false, false⟩
        let run ← if !files.isEmpty then w.searchAll start files
          else if w.atDirectory = .enter then w.searchPath true maxSearchDepth [] start
          else w.searchAll start [['-']]
        let isFine : Bool := run.hasSelected && (!run.hasFailed || telling = .nothing)
        setStatus (if isFine then 0 else if run.hasFailed then 2 else 1)

end SimWorkbench.Utility
