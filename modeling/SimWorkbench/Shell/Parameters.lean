import SimWorkbench.Shell.Expansion
import SimWorkbench.Shell.Signal

/-!
# Variables, arguments and settings

The commands by which a script marks, removes and lists its variables, replaces its arguments, reads
options in them and switches its settings.
-/
namespace SimWorkbench.Shell

/-- A word cut at its first equals sign. -/
def splitAssignment (word : Chars) : Chars × Option Chars :=
  let name := word.takeWhile (· ≠ '=')
  (name, if name.length < word.length then some (word.drop (name.length + 1)) else none)

/-- Variables in the order of their names, each on a line behind some text. -/
def variableListing (lead : Chars) (listed : List Variable) : Chars :=
  (listed.mergeSort fun a b => !(b.name < a.name)).flatMap fun v =>
    lead ++ v.name ++ (v.value.map fun x => '=' :: singleQuoted x).getD [] ++ ['\n']

/-- Marks variables, and gives those values for which there are some. -/
def markVariable (exported readOnly : Bool) (word : Chars) : Exec Unit := do
  let (name, value) := splitAssignment word
  match value, (← get).find? name with
  | none, some v => modify (fun s => s.restore name
      (some { v with exported := v.exported || exported, readOnly := v.readOnly || readOnly }))
  | _, _ => declareVariable name value exported readOnly

/-- The commands that mark variables. Without names they list those that are marked. -/
def markCommand (name : Chars) (exported : Bool) (words : List Chars) : Exec Unit := do
  let names ← match words with
    | ('-' :: 'p' :: _) :: _ => pure []
    | _ => pure (← readOptions [] words).words
  if names.isEmpty then
    let marked (v : Variable) : Bool := if exported then v.exported else v.readOnly
    print (variableListing (name ++ [' ']) ((← get).vars.filter marked))
  else names.forM (markVariable exported (!exported))
  setStatus 0

/-- Remembers something that is put back when the current function ends. -/
def saveForFunction (saved : Saved) : Exec Unit := modify fun s =>
  match s.frames with
  | frame :: others => { s with frames := (saved :: frame) :: others }
  | [] => s

/-- Makes a variable a function's own, perhaps with another value. -/
def makeLocal (name : Chars) (value : Option Chars) (exported : Bool) : Exec Unit := do
  let old := (← get).find? name
  saveForFunction (.variable name old)
  match value, old with
  | none, some _ => pure ()
  | _, _ =>
    if value.isNone && !isName name then abort (name ++ ": bad variable name".toList)
    if old.any Variable.readOnly then abort (name ++ ": is read only".toList)
    if value.isSome && name = "OPTIND".toList then resumeOptions (value.getD [])
    modify fun s => s.restore name
      (some ⟨name, value, exported || s.isOn .allexport || old.any Variable.exported, false⟩)

/-- The command that makes variables or settings a function's own. -/
def localCommand (words : List Chars) : Exec Unit := do
  if (← get).frames.isEmpty then abort "not in a function".toList
  words.forM fun word =>
    if word = ['-'] then do saveForFunction (.settings (← get).settings)
    else makeLocal (splitAssignment word).1 (splitAssignment word).2 false
  setStatus 0

/-- Puts back what the innermost function made its own. -/
def dropFrame : Exec Unit := do
  match (← get).frames with
  | [] => return ()
  | frame :: others =>
    modify fun s => { s with frames := others }
    for saved in frame do
      match saved with
      | .settings on => modify fun s => { s with settings := on }
      | .variable name old =>
        modify fun s => s.restore name old
        if name = "OPTIND".toList then
          if let some n := (old.bind Variable.value).bind count? then
            resumeOptions (decimal n)

/-- Puts back what was made local since there were `depth` functions around. -/
def dropFrames (depth : Nat) : Exec Unit := do
  for _ in List.range ((← get).frames.length - depth) do dropFrame

/-- Runs something, perhaps with room for variables of its own. If it ends the script they stay, so
that what is done at the end can see them. -/
def withFrame (isRoom : Bool) (run : Exec Unit) : Exec Unit := do
  let depth := (← get).frames.length
  if isRoom then modify fun s => { s with frames := [] :: s.frames }
  match ← attempt run with
  | .ok () => dropFrames depth
  | .error (.back given) =>
    dropFrames depth
    throw (.back given)
  | .error (.leave n) =>
    dropFrames depth
    throw (.leave n)
  | .error (.next n) =>
    dropFrames depth
    throw (.next n)
  | .error stop => throw stop

/-- The command that removes variables or functions. -/
def unsetCommand (words : List Chars) : Exec Unit := do
  let o ← readOptions [('v', false), ('f', false)] words
  let isFunction : Bool := (o.given.getLast?.map Prod.fst) == some 'f'
  o.words.forM fun name =>
    if isFunction then modify fun s =>
      { s with functions := s.functions.filter fun f => f.name ≠ name }
    else declareVariable name none false false
  setStatus 0

/-- Replaces the arguments. -/
def setArguments (words : List Chars) : Exec Unit :=
  modify fun s => { s with arguments := .fresh words }

/-- Switches settings by their letters; the word behind an `o` is the name of one. Gives the words
behind that. -/
def switchLetters (value : Bool) : Chars → List Chars → Exec (List Chars)
  | [], rest => return rest
  | 'o' :: letters, rest => do
    match rest with
    | [] =>
      let on := (← get).settings
      print (if value then Setting.listing on else Setting.commands on)
      switchLetters value letters []
    | name :: rest =>
      match Setting.ofName? name with
      | some setting => modify fun s => { s with settings := Setting.switch s.settings setting value }
      | none => abort ("Illegal option -o ".toList ++ name)
      switchLetters value letters rest
  | letter :: letters, rest => do
    match Setting.ofLetter? letter with
    | some setting => modify fun s =>
      { s with settings := Setting.switchByLetter s.settings setting value }
    | none => abort ("Illegal option -".toList ++ [letter])
    switchLetters value letters rest

/-- Switches settings as words ask, up to the first word that is an argument. The number bounds the
words. -/
def setFrom : Nat → List Chars → Exec (Option (List Chars))
  | 0, _ => return none
  | _, [] => return none
  | _, ['-'] :: rest => do
    modify fun s => { s with settings := s.settings.filter fun x => x != .xtrace && x != .verbose }
    return if rest.isEmpty then none else some rest
  | _, ['-', '-'] :: rest => return some rest
  | n + 1, ('-' :: letters) :: rest => do setFrom n (← switchLetters true letters rest)
  | n + 1, ('+' :: letters) :: rest => do setFrom n (← switchLetters false letters rest)
  | _, words => return some words

/-- The command that switches settings and replaces the arguments. Without words it lists the
variables. -/
def setCommand (words : List Chars) : Exec Unit := do
  if words.isEmpty then
    print (variableListing [] ((← get).vars.filter fun v => v.value.isSome))
  else if let some arguments ← setFrom (words.length + 1) words then setArguments arguments
  setStatus 0

/-- The command that drops arguments from the front. -/
def shiftCommand (words : List Chars) : Exec Unit := do
  let n ← match words with
    | word :: _ => expectCount word
    | [] => pure 1
  let arguments := (← get).arguments.words
  if arguments.length < n then abort "can't shift that many".toList
  setArguments (arguments.drop n)
  setStatus 0

/-- Whether an option is one of those that a text lists, and then, whether it takes an argument. -/
def findOption (letter : Char) : Chars → Option Bool
  | [] => none
  | c :: ':' :: rest => if c = letter then some true else findOption letter rest
  | c :: rest => if c = letter then some false else findOption letter rest

/-- Puts down how far the options have been read, and which one was found. -/
def noteOption (name : Chars) (letter : Char) (next : Nat) (place : Option Nat) : Exec Unit := do
  modify fun s => s.assign "OPTIND".toList (decimal next) false
  setVariable name [letter]
  modify fun s =>
    { s with arguments := { s.arguments with optionWord := next, optionPlace := place } }

/-- Reads an option whose letter stands in front of `more` in the word before number `next`. -/
def readOption (known name : Chars) (words : List Chars) (letter : Char) (more : Chars)
    (next : Nat) : Exec Unit := do
  let silent := known.head? = some ':'
  let optarg := "OPTARG".toList
  let place (next : Nat) : Option Nat :=
    (words[next - 2]?).map fun w => w.length - more.length
  match findOption letter known with
  | none =>
    if silent then setVariable optarg [letter]
    else
      emit 2 ("Illegal option -".toList ++ [letter, '\n'])
      declareVariable optarg none false false
    noteOption name '?' next (place next)
  | some false =>
    setVariable optarg []
    noteOption name letter next (place next)
  | some true =>
    if !more.isEmpty then
      setVariable optarg more
      noteOption name letter next none
    else
      match words[next - 1]? with
      | some argument =>
        setVariable optarg argument
        noteOption name letter (next + 1) none
      | none =>
        if silent then
          setVariable optarg [letter]
          noteOption name ':' next none
        else
          emit 2 ("No arg for -".toList ++ letter :: " option\n".toList)
          declareVariable optarg none false false
          noteOption name '?' next none

/-- The command that reads the next option of the arguments, or of the words it is given. -/
def getoptsCommand (words : List Chars) : Exec Unit := do
  match (← readOptions [] words).words with
  | known :: name :: own =>
    let s ← get
    let words := if own.isEmpty then s.arguments.words else own
    let isOver := words.length + 1 < s.arguments.optionWord
    let index := if isOver then 1 else s.arguments.optionWord
    let rest := match (if isOver then none else s.arguments.optionPlace), words[index - 2]? with
      | some place, some word => if 1 < index then word.drop place else []
      | _, _ => []
    match rest, words[index - 1]? with
    | letter :: more, _ =>
      setStatus 0
      readOption known name words letter more index
    | [], some ['-', '-'] =>
      noteOption name '?' (index + 1) none
      setStatus 1
    | [], some ('-' :: letter :: more) =>
      setStatus 0
      readOption known name words letter more (index + 1)
    | [], _ =>
      noteOption name '?' index none
      setStatus 1
  | _ => abort "Usage: getopts optstring var [arg...]".toList

end SimWorkbench.Shell
