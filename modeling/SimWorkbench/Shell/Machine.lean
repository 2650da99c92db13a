import SimWorkbench.Shell.Builtin
import SimWorkbench.Shell.Tool

/-!
# Running commands

Commands run one after the other and leave their status. Running a command may expand words, and
expanding a word may run commands; both are built up by levels from one at which nothing runs.
-/
namespace SimWorkbench.Shell

/-- How deep commands may be nested. -/
def maxDepth : Nat := 20000

/-- How many functions may call each other. -/
def maxCalls : Nat := 1000

/-- Ends the script after a failure that nobody looks at, if it asked for that. -/
def checkFailure (tested : Bool) : Exec Unit := do
  let s ← get
  if s.isOn .errexit && !tested && s.status ≠ 0 then throw (.exit s.status)

/-- Calls a function. -/
def callFunction (r : Recursion) (tested : Bool) (body : Tree) (words : List Chars) :
    Exec Unit := do
  let before ← get
  if before.calls = maxCalls then
    abort ("Maximum function recursion depth (".toList ++ decimal maxCalls ++ ") reached".toList)
  set { before with arguments := .fresh words, loops := 0, calls := before.calls + 1 }
  let ended ← attempt (r.tree tested body)
  modify fun s =>
    { s with arguments := before.arguments, loops := before.loops, calls := before.calls }
  match ended with
  | .ok () | .error (.back _) => return ()
  | .error stop => throw stop

/-- Runs a command of the language under its name. An error in it ends the script only if the command
is special; else it makes the status 2. -/
def runBuiltin (special : Bool) (name : Chars) (run : Exec Unit) : Exec Unit := do
  let before := (← get).command
  modify fun s => { s with command := some name, printFailed := false }
  let ended ← attempt run
  let s ← get
  if ended matches .ok () then
    if s.printFailed then
      complain (name ++ ": I/O error".toList)
      setStatus (s.status ||| 1)
  modify fun s => { s with command := before }
  match ended with
  | .ok () => return ()
  | .error .failure => if special then throw .failure
  | .error stop => throw stop

/-- Runs the text that some words make. -/
def evaluateWords (r : Recursion) (tested : Bool) (words : List Chars) : Exec Unit := do
  unless ← runText r tested ([' '].intercalate words) do setStatus 0

/-- The file that a name means for reading it as a part of the script. -/
def findPart (name : Chars) : Exec Chars := do
  if name.contains '/' then return name
  let s ← get
  match (candidatePaths (searchPath s) name).find? fun p => s.files.isFile s.dir (toPath p) with
  | some path => return path
  | none => abort (name ++ ": not found".toList)

/-- Runs a file as a part of the script. -/
def runPart (r : Recursion) (words : List Chars) : Exec Unit := do
  match (← readOptions [] words).words with
  | [] => setStatus 0
  | name :: _ =>
    let path ← findPart name
    let text ← readScript path
    let reached := (← get).reached
    modify fun s => { s with command := some path }
    let ended ← attempt
      (runLines r false true (text.length + 2) false (Cursor.start text [] []))
    modify fun s => { s with reached := reached }
    match ended with
    | .ok found => unless found do setStatus 0
    | .error (.back _) => return ()
    | .error stop => throw stop

/-- The paths that the name of a command is tried at. -/
def pathsFor (path name : Chars) (place : Nat) : List Chars :=
  if name.contains '/' then [name] else (candidatePaths path name).drop place

/-- Runs what a command of the language runs. -/
def runRunning (r : Recursion) (tested : Bool) (name : String) (words : List Chars) :
    Exec Unit := do
  match name, words with
  | "eval", _ => evaluateWords r tested words
  | ".", _ => runPart r words
  | "exec", [] => modify fun s => { s with status := 0 }
  | "exec", word :: _ => becomeProgram r (pathsFor (searchPath (← get)) word 0) words
  | _, _ => describeCommand words

/-- The words of a simple command as far as they have been expanded. -/
structure Words where
  found : List Chars
  rest : List (List Piece)

namespace Words

/-- The word with a number; more of them are expanded if it takes that. -/
def at? (r : Recursion) (n : Nat) : Nat → Words → Exec (Option Chars × Words)
  | 0, w => return (w.found[n]?, w)
  | bound + 1, w => do
    match w.found[n]?, w.rest with
    | some word, _ => return (some word, w)
    | none, [] => return (none, w)
    | none, next :: rest => at? r n bound ⟨w.found ++ (← expandFields r [next]), rest⟩

/-- The word with a number. -/
def get? (r : Recursion) (n : Nat) (w : Words) : Exec (Option Chars × Words) :=
  w.at? r n (w.rest.length + 1)

/-- Expands the words that are left; those of some commands can be assignments, which are not cut. -/
def complete (r : Recursion) (assigns : Bool) (w : Words) : Exec (List Chars) := do
  let more ← w.rest.mapM fun word => do
    if assigns && (assignmentName? word).isSome then return [← expandText r .assignment word]
    else expandFields r [word]
  return w.found ++ more.flatten

end Words

/-- How the command itself was found among the words. -/
structure Head where
  /-- The number of the word that names it. -/
  place : Nat
  /-- Whether the first command of the language among the words is a special one, if there is one. -/
  special : Option Bool
  noFunctions : Bool
  /-- Other directories to look in for a program. -/
  path : Option Chars

/-- Skips the options of the command that runs others. Gives the number of the word that names the
command to be run, and the directories to look in; none if there is no such word or an option asks
for something else. The first number bounds the words. -/
def skipOptions (r : Recursion) :
    Nat → Nat → Option Chars → Words → Exec (Option (Nat × Option Chars) × Words)
  | 0, _, _, w => return (none, w)
  | bound + 1, n, path, w => do
    let (word?, w) ← w.get? r n
    match word? with
    | none => return (none, w)
    | some ['-', '-'] =>
      let (word?, w) ← w.get? r (n + 1)
      return (word?.map fun _ => (n + 1, path), w)
    | some ('-' :: c :: more) =>
      if (c :: more).all (· == 'p') then skipOptions r bound (n + 1) (some systemPath) w
      else return (none, w)
    | some _ => return (some (n, path), w)

/-- Finds the word that names the command. The number bounds how often a command that runs others is
skipped. -/
def findHead (r : Recursion) : Nat → Head → Words → Exec (Head × Words)
  | 0, head, w => return (head, w)
  | bound + 1, head, w => do
    let (name?, w) ← w.get? r head.place
    let name := name?.getD []
    let isFunction := !head.noFunctions && (← get).functions.any fun f => f.name = name
    if name.contains '/' || isFunction || !isBuiltin name then return (head, w)
    let head := { head with special := some (head.special.getD (isSpecialCommand name)) }
    if name ≠ "command".toList then return (head, w)
    let (found, w) ← skipOptions r (w.found.length + w.rest.length + 2) (head.place + 1)
      head.path w
    match found with
    | none => return (head, w)
    | some (place, path) => findHead r bound { head with place, path, noFunctions := true } w

/-- Shows a command before it is carried out, if the script asks for that. -/
def traceCommand (r : Recursion) (file : Option Nat) (assigned : List (Chars × Chars))
    (words : List Chars) : Exec Unit := do
  let s ← get
  if s.isOn .xtrace && !s.tracing then
    set { s with tracing := true }
    let text := (s.value? "PS4".toList).getD []
    let lead ← match readQuotedText.run (Cursor.start text s.documents s.aliases) with
      | .ok (pieces, _) => expandText r .document pieces
      | .error _ => pure text
    modify fun s => { s with tracing := false }
    let shown := assigned.map (fun a => a.1 ++ '=' :: a.2) ++ words
    if let some file := file then
      discard (writeFile file (lead ++ [' '].intercalate shown ++ ['\n']))

/-- Carries out the command that words name. -/
def runWords (r : Recursion) (tested : Bool) (head : Head) : List Chars → Exec Unit
  | [] => do setStatus (← get).substitution
  | name :: words => do
    let path := head.path.getD (searchPath (← get))
    match ← lookUp path name head.noFunctions with
    | .function body => callFunction r tested body words
    | .builtin =>
      let text := String.ofList name
      runBuiltin (head.special.getD false) name
        ((builtin? text words).getD (runRunning r tested text words))
    | .program place => runProgram r (pathsFor path name (place.getD 0)) (name :: words)
    | .nothing e =>
      complain (name ++ ": ".toList ++ runFault e)
      setStatus 127

/-- Runs a simple command: its words are expanded, then the words of its redirections, and then its
assignments, which only last if no command is run or a special one. -/
def runSimple (r : Recursion) (tested : Bool) (assignments : List (Chars × List Piece))
    (words : List (List Piece)) (redirects : List Redirect) (line : Nat) : Exec Unit := do
  modify fun s => { s with line := line, substitution := 0 }
  let (first?, start) ← Words.get? r 0 ⟨[], words⟩
  let (head, w) ← if first?.isNone then pure (⟨0, none, false, none⟩, start)
    else findHead r (words.length + start.found.length + 1) ⟨0, none, false, none⟩ start
  let all ← w.complete r (head.special.isSome && takesAssignments (w.found[head.place]?.getD []))
  let own := all.drop head.place
  let isExec := head.special.isSome && own.head? = some "exec".toList
  let isRoom := first?.isSome && head.special ≠ some true
  withFrame isRoom do
    let targets ← expandTargets r redirects
    let file := (← get).descriptors.lookup 2
    let carryOut : Exec Unit := do
      if ← redirectAll r true targets then
        let assigned ← assignments.mapM fun a => do
          let value ← expandText r .value a.2
          if isRoom then makeLocal a.1 (some value) true
          else declareVariable a.1 (some value) (isExec && 1 < own.length) false
          return (a.1, value)
        traceCommand r file assigned all
        runWords r tested head own
      else if head.special = some true then throw .failure
    if isExec then carryOut else keepingDescriptors (targets.map Target.descriptor) carryOut

/-- Rounds of a loop. Its status is that of the last command of its body. -/
def runRounds (r : Recursion) (tested whileTrue : Bool) (condition body : Tree) :
    Nat → Nat → Exec Unit
  | 0, _ => throw .overrun
  | n + 1, status => do
    match ← attempt (r.tree true condition) with
    | .ok () =>
      if ((← get).status == 0) == whileTrue then
        match ← attempt (r.tree tested body) with
        | .ok () | .error (.next 1) =>
          runRounds r tested whileTrue condition body n (← get).status
        | .error (.leave 1) => return ()
        | .error (.leave k) => throw (.leave (k - 1))
        | .error (.next k) => throw (.next (k - 1))
        | .error stop => throw stop
      else setStatus status
    | .error (.next 1) => runRounds r tested whileTrue condition body n status
    | .error (.leave 1) => setStatus status
    | .error (.leave k) =>
      setStatus status
      throw (.leave (k - 1))
    | .error (.next k) =>
      setStatus status
      throw (.next (k - 1))
    | .error stop => throw stop

/-- Rounds of a loop over words. -/
def runEach (r : Recursion) (tested : Bool) (name : Chars) (body : Tree) :
    List Chars → Exec Unit
  | [] => return ()
  | word :: words => do
    setVariable name word
    match ← attempt (r.tree tested body) with
    | .ok () | .error (.next 1) => runEach r tested name body words
    | .error (.leave 1) => return ()
    | .error (.leave k) => throw (.leave (k - 1))
    | .error (.next k) => throw (.next (k - 1))
    | .error stop => throw stop

/-- Runs something as the body of one more loop. -/
def inLoop (run : Exec Unit) : Exec Unit := do
  modify fun s => { s with loops := s.loops + 1 }
  andThen run (modify fun s => { s with loops := s.loops - 1 })

/-- Runs the parts of a pipeline, each with what the one before it prints as its input; `input` is the
file that the next one reads, and `waits` tells whether one of them has to wait. The ends of all are
taken note of together. -/
def runParts (r : Recursion) (tested : Bool) :
    Option Nat → Bool → List (Option Nat) → List Tree → Exec Unit
  | _, waits, ends, [] => if waits then throw .waiting else ends.reverse.forM noteEnd
  | input, waits, ends, part :: rest => do
    let before ← get
    if let some file := input then redirect 0 (some file)
    let pipe? ← if rest.isEmpty then pure none else some <$> newPipe [] false
    if let some pipe := pipe? then redirect 1 (some (← newFile (writeEnd pipe)))
    let ended ← attempt (fork r (r.tree tested part))
    modify fun s => { s with descriptors := before.descriptors }
    let (signal, waits') ← match ended with
      | .ok signal => pure (signal, false)
      | .error .waiting => pure (none, true)
      | .error stop => throw stop
    match pipe? with
    | none => runParts r tested none (waits || waits') (signal :: ends) rest
    | some pipe =>
      modify fun s =>
        match s.pipe? pipe with
        | some p => s.setPipe pipe { p with complete := !waits' }
        | none => s
      setStatus before.status
      runParts r tested (some (← newFile (readEnd pipe))) (waits || waits') (signal :: ends) rest

/-- Runs something as a process in the background, without input. -/
def inBehind (r : Recursion) (run : Exec Unit) : Exec Unit := do
  let process := (← get).nextProcess
  let signal ← forked do
    modify fun s => { s with traps := s.traps.filter (fun t => t.2.isEmpty), before := none,
                             raised := [], deaf := 2 :: 3 :: s.deaf }
    redirect 0 (some (← newFile ⟨.nowhere, 0, false, true, false⟩))
    toEnd r run
  noteJob process signal
  noteEnd none

/-- Runs the branch with the first pattern that takes the whole text. -/
def runChoice (r : Recursion) (tested : Bool) (text : Chars) :
    List (List (List Piece) × Option Tree) → Exec Unit
  | [] => setStatus 0
  | (patterns, body) :: branches => do
    let hit ← patterns.anyM fun p => do
      return Item.matchesAll (wildcards (cellMarks (← r.word .text p).cells.toList)) text
    if hit then
      match body with
      | some tree => r.tree tested tree
      | none => setStatus 0
    else runChoice r tested text branches

/-- Runs something with redirections. -/
def runRedirected (r : Recursion) (tested : Bool) (body : Tree) (redirects : List Redirect)
    (line : Nat) : Exec Unit := do
  modify fun s => { s with line := line }
  let targets ← expandTargets r redirects
  keepingDescriptors (targets.map Target.descriptor) do
    if ← redirectAll r true targets then r.tree tested body else checkFailure tested

/-- Runs a tree, without what is to be done on signals around it. -/
def runTree (r : Recursion) (tested : Bool) : Tree → Exec Unit
  | .simple assignments words redirects line => do
    match ← attempt (runSimple r tested assignments words redirects line) with
    | .ok () => pure ()
    | .error stop =>
      if stop matches .back _ then checkFailure tested
      throw stop
    runRaised r
    checkFailure tested
  | .pipeline parts background => do
    if background then inBehind r (runParts r false none false [] parts)
    else runParts r tested none false [] parts
    runRaised r
    checkFailure tested
  | .negation body => do
    r.tree true body
    setStatus (if (← get).status = 0 then 1 else 0)
  | .both first second => do
    r.tree true first
    if (← get).status = 0 then r.tree tested second
  | .either first second => do
    r.tree true first
    if (← get).status ≠ 0 then r.tree tested second
  | .sequence first second => do
    r.tree tested first
    r.tree tested second
  | .conditional condition body otherwise => do
    r.tree true condition
    if (← get).status = 0 then r.tree tested body
    else
      match otherwise with
      | some tree => r.tree tested tree
      | none => setStatus 0
  | .loop whileTrue condition body =>
    inLoop (runRounds r tested whileTrue condition body maxRounds 0)
  | .each name words body line => do
    modify fun s => { s with line := line }
    let texts ← expandFields r words
    if texts.isEmpty then setStatus 0 else inLoop (runEach r tested name body texts)
  | .choice word branches line => do
    modify fun s => { s with line := line }
    runChoice r tested (← expandText r .text word) branches
  | .subshell body redirects background line => do
    modify fun s => { s with line := line }
    let targets ← expandTargets r redirects
    let run (tested : Bool) : Exec Unit := do
      if ← redirectAll r false targets then r.tree tested body else throw .failure
    if background then inBehind r (run false) else child r (run tested)
    runRaised r
    checkFailure tested
  | .define name body => do
    modify fun s => { s with functions := ⟨name, body⟩ :: s.functions.filter fun f => f.name ≠ name,
                             status := 0 }
  | .redirected body redirects line => runRedirected r tested body redirects line

/-- Running and expanding for a given depth of nesting. -/
def machine : Nat → Recursion
  | 0 => ⟨fun _ _ => throw .overrun, fun _ _ => throw .overrun⟩
  | n + 1 =>
    ⟨fun tested t => do
      unless (← get).isOn .noexec do
        runRaised (machine n)
        runTree (machine n) tested t
        runRaised (machine n),
     fun manner w => expandWord (machine n) manner w⟩

end SimWorkbench.Shell
