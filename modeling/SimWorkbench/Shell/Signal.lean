import SimWorkbench.Shell.Options
import SimWorkbench.Shell.Quoted

/-!
# Signals

Signals have numbers and names; number 0 stands for the end of a script. A script says what is to be
done on a signal, and sends signals to processes.
-/
namespace SimWorkbench.Shell

/-- The names of the signals, from number 0 on. -/
def signalNames : List String :=
  ["EXIT", "HUP", "INT", "QUIT", "ILL", "TRAP", "ABRT", "BUS", "FPE", "KILL", "USR1", "SEGV",
   "USR2", "PIPE", "ALRM", "TERM", "16", "CHLD", "CONT", "STOP", "TSTP", "TTIN", "TTOU", "URG",
   "XCPU", "XFSZ", "VTALRM", "PROF", "WINCH", "IO", "PWR", "SYS", "32", "33", "RTMIN"] ++
  (List.range 15).map (fun n => "RTMIN+" ++ toString (n + 1)) ++
  (List.range 14).map (fun n => "RTMAX-" ++ toString (14 - n)) ++ ["RTMAX"]

def signalName (number : Nat) : Chars := ((signalNames[number]?).getD "").toList

/-- The number of a signal that is written in digits. -/
def signalNumber? (word : Chars) : Option Nat :=
  if !word.isEmpty && word.all Char.isDigit && digitsValue 10 word < signalNames.length then
    some (digitsValue 10 word)
  else none

/-- The number of a signal from its number or its name; the case of letters does not matter. Signals
below `least` have no name. -/
def signal? (least : Nat) (word : Chars) : Option Nat :=
  match signalNumber? word with
  | some n => some n
  | none =>
    let lower (text : Chars) : Chars := text.map Char.toLower
    ((signalNames.zipIdx.drop least).find? fun x => lower x.1.toList == lower word).map Prod.snd

/-- What is to be done on signals, as commands that say so. -/
def trapListing (traps : List (Nat × Chars)) : Chars :=
  (List.range signalNames.length).flatMap fun n =>
    match traps.lookup n with
    | some action =>
      "trap -- ".toList ++ singleQuoted action ++ ' ' :: signalName n ++ ['\n']
    | none => []

/-- Says for some signals what is to be done on them; nothing said takes it back. -/
def setTraps (action : Option Chars) : List Chars → Exec Unit
  | [] => setStatus 0
  | word :: words =>
    match signal? 0 word with
    | some n => do
      modify fun s =>
        { s with traps := (action.map fun a => (n, a)).toList ++
            s.traps.filter fun t => t.1 ≠ n }
      setTraps action words
    | none => do
      emit 2 ("trap: ".toList ++ word ++ ": bad trap\n".toList)
      setStatus 1

/-- The command that says what is to be done on signals. A single word is a signal, and so is a first
word that is a number; nothing is done on them any more. -/
def trapCommand (words : List Chars) : Exec Unit := do
  match (← readOptions [] words).words with
  | [] =>
    print (trapListing (← get).traps)
    setStatus 0
  | [word] => setTraps none [word]
  | action :: rest =>
    if (signalNumber? action).isSome then setTraps none (action :: rest)
    else setTraps (if action = ['-'] then none else some action) rest

/-- Ends a command because of a word that is no number of the kind it has to be. -/
def abortNumber {α : Type} (word : Chars) : Exec α := abort ("Illegal number: ".toList ++ word)

/-- The count that a word has to be. -/
def expectCount (word : Chars) : Exec Nat :=
  match count? word with
  | some n => return n
  | none => abortNumber word

/-- Sends a signal to a process; the status is 1 if there is no such process. -/
def sendSignal (signal : Nat) (word : Chars) : Exec Bool := do
  if word.head? = some '%' then abort ("No such job: ".toList ++ word)
  let target ← expectCount (if word.head? = some '-' then word.tail else word)
  let s ← get
  if target = s.process then
    receive signal
    return true
  else if s.above.contains target then
    set { s with sent := s.sent ++ [(target, signal)] }
    return true
  else if s.jobs.any fun j => j.process = target && !j.waited then return true
  else
    complain "No such process\n".toList
    return false

/-- How signals are sent. -/
def killUsage : Chars :=
  ("Usage: kill [-s sigspec | -signum | -sigspec] [pid | job]... or\n" ++
    "kill -l [exitstatus]").toList

/-- The name of the signal that a status or a number stands for. -/
def nameSignal (word : Chars) : Exec Unit := do
  let n ← expectCount word
  let n := if 128 < n then n - 128 else n
  if 0 < n && n < signalNames.length then print (signalName n ++ ['\n'])
  else abort ("invalid signal number or exit status: ".toList ++ word)

/-- The command that sends signals or tells their names. -/
def killCommand (words : List Chars) : Exec Unit := do
  let chosen ← match words with
    | [] => abort killUsage
    | ('-' :: name) :: rest =>
      match signal? 1 name with
      | some n => pure (some n, false, rest)
      | none => do
        let o ← readOptions [('l', false), ('s', true)] words
        let signals ← (o.given.filter fun x => x.1 == 's').mapM fun x =>
          match signal? 1 x.2 with
          | some n => pure n
          | none => abort ("invalid signal number or name: ".toList ++ x.2)
        pure (signals.getLast?, o.has 'l', o.words)
    | _ => pure (none, false, words)
  let (signal, lists, rest) := chosen
  match lists, signal, rest with
  | true, _, [] =>
    print ("0\n".toList ++ (signalNames.tail.flatMap fun name => name.toList ++ ['\n']))
    setStatus 0
  | true, none, word :: _ =>
    nameSignal word
    setStatus 0
  | true, some _, _ :: _ | false, _, [] => abort killUsage
  | false, _, _ =>
    let sent ← rest.mapM (sendSignal (signal.getD 15))
    setStatus (if sent.all id then 0 else 1)

end SimWorkbench.Shell
