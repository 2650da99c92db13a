import SimWorkbench.Shell.Redirection

/-!
# The interpreter as a program

The interpreter takes a script from an argument, from a file or from its input. It begins with
nothing but the variables, files and signals that it was given.
-/
namespace SimWorkbench.Shell

/-- Where programs are looked for if no variable says it. -/
def defaultPath : Chars :=
  "/usr/local/sbin:/usr/local/bin:/usr/sbin:/usr/bin:/sbin:/bin".toList

/-- The variables that a script begins with. -/
def firstVariables (s : State) : List Variable :=
  let given := (s.vars.filter fun v => v.exported && v.value.isSome && isName v.name).map fun v =>
    { v with readOnly := false }
  let isGiven (name : String) : Bool := given.any fun v => v.name = name.toList
  let marked (name : String) : Bool := given.any fun v => v.name = name.toList && v.exported
  let fixed (name : String) (value : Chars) : Variable :=
    ⟨name.toList, some value, marked name, false⟩
  let set := [fixed "IFS" " \t\n".toList, fixed "OPTIND" ['1'],
    fixed "PPID" (decimal (s.above.headD 999)), ⟨"PWD".toList, some s.dirName, true, false⟩]
  let defaults := [fixed "PATH" defaultPath, fixed "PS1" "# ".toList, fixed "PS2" "> ".toList,
    fixed "PS4" "+ ".toList]
  (given.filter fun v => !(set.any fun x => x.name = v.name)) ++ set ++
    defaults.filter fun v => !isGiven (String.ofList v.name)

/-- The name of the current directory: the one that a variable tells, if it is right. -/
def firstDirectory (s : State) : Chars :=
  let own := ofText (Location.path s.dir).text
  match (s.find? "PWD".toList).bind fun v => if v.exported then v.value else none with
  | some name =>
    match name, s.files.locate s.dir (toPath name) with
    | '/' :: _, .ok (place, _) => if place = s.dir then name else own
    | _, _ => own
  | none => own

/-- Forgets all that a new program does not get; what was ignored stays without effect. -/
def forgetScript (name : Chars) : Exec Unit := do
  modify fun s => { s with dirName := firstDirectory s }
  modify fun s =>
    { s with vars := firstVariables s, functions := [], aliases := [], known := [], name,
             arguments := .fresh [], status := 0, substitution := 0, before := none,
             root := s.process, lastJob := none, jobs := [], documents := [], line := 0,
             reached := 1, command := none, loops := 0, calls := 0, settings := [],
             frames := [],
             deaf := s.deaf ++ (s.traps.filter fun t => t.2.isEmpty).map Prod.fst,
             traps := [], raised := [], tracing := false,
             printFailed := false }

/-- Reads the options of the interpreter; tells whether the script is an argument, and the words
behind them. The number bounds the words. -/
def readInvocation : Nat → Bool → List Chars → Exec (Bool × List Chars)
  | 0, isText, words => return (isText, words)
  | _, isText, ['-'] :: words => return (isText, words)
  | _, isText, ['-', '-'] :: words => return (isText, words)
  | n + 1, isText, (sign :: letters) :: words => do
    if sign == '-' || sign == '+' then
      let rest ← switchLetters (sign == '-') (letters.filter fun c => c != 'c' && c != 'l') words
      readInvocation n (isText || letters.contains 'c') rest
    else return (isText, (sign :: letters) :: words)
  | _, isText, words => return (isText, words)

/-- The text of a script file. A directory holds nothing. -/
def readScript (name : Chars) : Exec Chars := do
  let s ← get
  match s.files.locate s.dir (toPath name) with
  | .error e => abortOpen name false e
  | .ok (_, .device (.stream n)) =>
    match ← readAll n with
    | .ok text => return text
    | .error _ => return []
  | .ok (_, .file content _) => return ofBytes content
  | .ok _ => return []

/-- Runs the lines of a script that is no part of another one. -/
def runScript (r : Recursion) (echoes : Bool) (text : Chars) : Exec Unit := do
  discard (runLines r false echoes (text.length + 2) false (Cursor.start text [] []))

/-- Runs the script that the input holds. -/
def runInput (r : Recursion) : Exec Unit := do
  match ← readAll 0 with
  | .ok text => runScript r true text
  | .error _ => return ()

/-- Runs the interpreter with some words, of which the first is its name. -/
def interpret (r : Recursion) (words : List Chars) : Exec Unit := do
  forgetScript (words.headD [])
  toEnd r do
    let (isText, words) ← readInvocation (words.length + 1) false words.tail
    let fromInput := (← get).isOn .stdin
    match isText, words with
    | true, [] => abort "-c requires an argument".toList
    | true, text :: more =>
      if let name :: arguments := more then
        modify fun s => { s with name, arguments := .fresh arguments }
      runScript r false text
      if fromInput then runInput r
    | false, [] =>
      modify fun s => { s with settings := Setting.switch s.settings .stdin true }
      runInput r
    | false, file :: arguments =>
      if fromInput then
        setArguments (file :: arguments)
        runInput r
      else
        let text ← readScript file
        modify fun s => { s with name := file, arguments := .fresh arguments }
        runScript r true text

end SimWorkbench.Shell
