import SimWorkbench.Shell.Grammar
import SimWorkbench.Shell.Field
import SimWorkbench.Shell.State

/-!
# Scripts as texts

A script is carried out line by line; each line is read when the one before it has been carried
out. What was put down for the end is done when a script or a part of it that runs as a process of
its own ends, and what was put down for a signal is done after the command during which it came.
-/
namespace SimWorkbench.Shell

/-- How a word is expanded. -/
structure Manner where
  /-- Whether it stands in quotes. -/
  quoted : Bool
  /-- Whether it is the word of a parameter, whose characters can separate fields. -/
  inner : Bool
  /-- Whether it is cut into fields. -/
  splits : Bool
  /-- Whether a tilde in front of it stands for a directory, and behind an equals sign or a colon. -/
  tilde : Bool
  equals : Bool
  colons : Bool

namespace Manner

/-- A word of a command. -/
def field : Manner := ⟨false, false, true, true, false, false⟩

/-- A word that is one text. -/
def text : Manner := ⟨false, false, false, true, false, false⟩

/-- The value of an assignment. -/
def value : Manner := ⟨false, false, false, true, false, true⟩

/-- A whole assignment. -/
def assignment : Manner := ⟨false, false, false, false, true, true⟩

/-- A text that stands in quotes. -/
def document : Manner := ⟨true, false, false, false, false, false⟩

end Manner

/-- Running commands and expanding words. Running is told whether the status of the command is
looked at. -/
structure Recursion where
  tree (tested : Bool) : Tree → Exec Unit
  word (manner : Manner) : List Piece → Exec Expanded

/-- How often anything may be repeated. -/
def maxRounds : Nat := 1000000

/-- Runs the lines of a script; `echoes` says that lines are shown if the script wants that. Tells
whether there was any command. -/
def runLines (r : Recursion) (tested echoes : Bool) : Nat → Bool → Cursor → Exec Bool
  | 0, _, _ => throw .overrun
  | n + 1, found, cursor => do
    let s ← get
    let cursor := { cursor with documents := s.documents, nextDocument := s.documents.length,
                                aliases := s.aliases }
    match readLine.run cursor with
    | .error fault =>
      modify fun s => { s with line := fault.line }
      abort ("Syntax error: ".toList ++ fault.text.toList)
    | .ok (none, _) => return found
    | .ok (some tree?, after) =>
      modify fun s => { s with documents := after.documents, reached := after.line }
      if echoes && s.isOn .verbose then
        emit 2 (cursor.rest.take (cursor.rest.length - after.rest.length))
      if let some tree := tree? then r.tree tested tree
      runLines r tested echoes n (found || tree?.isSome) after

/-- Runs a text that is no script of its own in the current state; tells whether there was any
command in it. -/
def runText (r : Recursion) (tested : Bool) (text : Chars) : Exec Bool := do
  let reached := (← get).reached
  andThen (runLines r tested false (text.length + 2) false (Cursor.start text [] []))
    (modify fun s => { s with reached := reached })

/-- Does what was to be done on signals that have come. The status stays what it was, unless that
leaves a function with a status of its own. -/
def runActions (r : Recursion) (status : Nat) : List Nat → Exec Unit
  | [] => return ()
  | signal :: rest => do
    if let some action := (← get).traps.lookup signal then
      match ← attempt (discard (runText r false action)) with
      | .ok () => setStatus status
      | .error stop =>
        modify fun s => { s with raised := rest ++ s.raised }
        unless stop = .back true do
          if stop matches .back _ | .leave _ | .next _ then setStatus status
        throw stop
    runActions r status rest

/-- Does what was to be done on the signals that have come, in the order of their numbers. -/
def runRaised (r : Recursion) : Exec Unit := do
  let s ← get
  unless s.raised.isEmpty do
    let status := s.before.getD s.status
    set { s with raised := [], before := some status }
    andThen (runActions r status (s.raised.eraseDups.mergeSort))
      (modify fun now => { now with before := s.before })

/-- Does what was to be done at the end; the status stays what it was unless that ends otherwise. -/
def runLast (r : Recursion) : Exec Unit := do
  let s ← get
  if let some action := s.traps.lookup 0 then
    set { s with traps := s.traps.filter (fun t => t.1 ≠ 0), before := some s.status, loops := 0 }
    match ← attempt (discard (runText r false action)) with
    | .ok () | .error (.back _) | .error (.leave _) | .error (.next _) => setStatus s.status
    | .error (.exit status) => setStatus status
    | .error .failure => pure ()
    | .error stop => throw stop

/-- Runs something that ends as a script does. -/
def toEnd (r : Recursion) (run : Exec Unit) : Exec Unit := do
  settleEnd (← attempt run)
  runLast r

/-- What is said about the end of a process by a signal. -/
def deathNote (signal : Nat) : Chars :=
  let notes : List (Nat × String) :=
    [(1, "Hangup"), (3, "Quit"), (4, "Illegal instruction"), (5, "Trace/breakpoint trap"),
     (6, "Aborted"), (7, "Bus error"), (8, "Floating point exception"), (9, "Killed"),
     (10, "User defined signal 1"), (11, "Segmentation fault"), (12, "User defined signal 2"),
     (14, "Alarm clock"), (15, "Terminated"), (16, "Stack fault"),
     (24, "CPU time limit exceeded"), (25, "File size limit exceeded"),
     (26, "Virtual timer expired"), (27, "Profiling timer expired"), (29, "I/O possible"),
     (30, "Power failure"), (31, "Bad system call")]
  match notes.lookup signal with
  | some note => note.toList ++ ['\n']
  | none => []

/-- Takes note of a process that has ended. -/
def noteEnd (signal : Option Nat) : Exec Unit := do
  if let some signal := signal then emit 2 (deathNote signal)
  if ((← get).traps.lookup 17).isSome then receive 17
  receiveSent

/-- Runs something as a process of its own, which forgets what was to be done on signals. Gives the
signal that killed it, if one did. -/
def fork (r : Recursion) (run : Exec Unit) : Exec (Option Nat) :=
  forked do
    modify fun s => { s with traps := s.traps.filter (fun t => t.2.isEmpty), before := none,
                             raised := [] }
    toEnd r run

/-- Runs something as a process of its own and takes note of its end. -/
def child (r : Recursion) (run : Exec Unit) : Exec Unit := do
  noteEnd (← fork r run)

end SimWorkbench.Shell
