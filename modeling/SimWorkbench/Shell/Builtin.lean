import SimWorkbench.Shell.Condition
import SimWorkbench.Shell.Format
import SimWorkbench.Shell.Input
import SimWorkbench.Shell.Job
import SimWorkbench.Shell.Lookup

/-!
# Commands of the language

Commands that act on the state of a script, and commands that are quicker done than started. Those
that run other commands are not among them.
-/
namespace SimWorkbench.Shell

/-- Answers a question by the status. -/
def testCommand (words : List Chars) : Exec Unit := do
  let s ← get
  match Condition.holds ⟨s.files, s.dir⟩ words with
  | .ok answer => setStatus (if answer then 0 else 1)
  | .error e => abort e.message

/-- The question whose last word has to be a closing bracket. -/
def bracketCommand (words : List Chars) : Exec Unit :=
  if (words.getLast?.bind List.head?) = some ']' then testCommand words.dropLast
  else abort "missing ]".toList

/-- The command that prints by a format. -/
def printfCommand (words : List Chars) : Exec Unit := do
  match (← readOptions [] words).words with
  | [] => abort "usage: printf format [arg ...]".toList
  | format :: rest =>
    let p := printFormatted format rest
    p.complaints.forM complain
    print p.text
    if let some fault := p.broken then abort fault
    setStatus (if p.complaints.isEmpty then 0 else 1)

/-- The command that ends the script. What is done on a signal ends it with the status before. -/
def exitCommand (words : List Chars) : Exec Unit := do
  let s ← get
  match words with
  | word :: _ => throw (.exit (← expectCount word))
  | [] => throw (.exit (s.before.getD s.status))

/-- The command that leaves a function. -/
def returnCommand (words : List Chars) : Exec Unit := do
  match words with
  | word :: _ =>
    setStatus (← expectCount word)
    throw (.back true)
  | [] => throw (.back false)

/-- The commands that leave loops or go on with their next round; nothing happens outside of loops. -/
def leaveLoops (stop : Nat → Stop) (words : List Chars) : Exec Unit := do
  let n ← match words with
    | word :: _ => do
      let n ← expectCount word
      if n = 0 then abortNumber word else pure n
    | [] => pure 1
  let loops := (← get).loops
  setStatus 0
  if 0 < loops then throw (stop (min n loops))

/-- The command that tells how many seconds were used. -/
def timesCommand : Exec Unit := do
  print "0m0.000000s 0m0.000000s\n0m0.000000s 0m0.000000s\n".toList
  setStatus 0

/-- The command that tells how much of something may be used. -/
def ulimitCommand (words : List Chars) : Exec Unit := do
  let o ← readOptions ("HSatfdscmlpnvwr".toList.map fun c => (c, false)) words
  if o.words.isEmpty then print "unlimited\n".toList
  setStatus 0

/-- What a command of the language does; none if the language has no such command or if it runs
others. -/
def builtin? (name : String) (words : List Chars) : Option (Exec Unit) :=
  match name with
  | ":" | "true" => some (setStatus 0)
  | "false" => some (setStatus 1)
  | "[" => some (bracketCommand words)
  | "alias" => some (aliasCommand words)
  | "bg" | "fg" => some (resumeCommand words)
  | "break" => some (leaveLoops .leave words)
  | "cd" | "chdir" => some (cdCommand words)
  | "continue" => some (leaveLoops .next words)
  | "echo" => some do
    print (echoText words)
    setStatus 0
  | "exit" => some (exitCommand words)
  | "export" => some (markCommand name.toList true words)
  | "getopts" => some (getoptsCommand words)
  | "hash" => some (hashCommand words)
  | "jobs" => some (jobsCommand words)
  | "kill" => some (killCommand words)
  | "local" => some (localCommand words)
  | "printf" => some (printfCommand words)
  | "pwd" => some (pwdCommand words)
  | "read" => some (readVariables words)
  | "readonly" => some (markCommand name.toList false words)
  | "return" => some (returnCommand words)
  | "set" => some (setCommand words)
  | "shift" => some (shiftCommand words)
  | "test" => some (testCommand words)
  | "times" => some timesCommand
  | "trap" => some (trapCommand words)
  | "type" => some (typeCommand words)
  | "ulimit" => some (ulimitCommand words)
  | "umask" => some (umaskCommand words)
  | "unalias" => some (unaliasCommand words)
  | "unset" => some (unsetCommand words)
  | "wait" => some (waitCommand words)
  | _ => none

end SimWorkbench.Shell
