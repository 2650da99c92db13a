import SimWorkbench.Decimal.Shortest
import SimWorkbench.Run.Artifact

/-!
# Rehearsals of a run

A rehearsal artifact follows instructions and notes the calls made to it, so that a run can be tried
without any program. It stops at gates until it is let through; there is one in front of its first
instruction.
-/
namespace SimWorkbench.Rehearsal

/-- What a rehearsal artifact does next. -/
inductive Instruction where
  /-- Waits to be let through. -/
  | gate
  | note (text : String)
  | print (text : String)
  | change (change : PropertyChange)
  | report (path : Path)
  /-- Takes a signal if there is one. -/
  | poll
  /-- Waits for signals until one asks to stop. -/
  | untilStop
  | fail (fault : Fault)
  | panic (text : Option String)
  deriving DecidableEq, Repr

/-- An artifact that follows instructions. -/
structure Artifact where
  left : List Instruction
  bindings : Bindings
  report : Option Path
  /-- How many more gates it may pass; any number if there is none. -/
  passes : Option Nat

/-- The name of a signal in the journal. -/
def signalName : Signal → String
  | .stop => "stop"
  | .step => "step"
  | .singleStep on => "single-step " ++ toString on

namespace Artifact

/-- Lets the artifact through one more gate. -/
def allowOne (a : Artifact) : Artifact := { a with passes := a.passes.map (· + 1) }

/-- Opens all gates. -/
def allowAll (a : Artifact) : Artifact := { a with passes := none }

/-- One step. -/
def advance (a : Artifact) (s : Scene) : Advance Artifact :=
  match a.left with
  | [] => .ended a s (.returned (.ok ()))
  | i :: rest =>
    let next : Artifact := { a with left := rest }
    match i with
    | .gate =>
      match a.passes with
      | none => .went next s
      | some 0 => .blocked
      | some (n + 1) => .went { next with passes := some n } s
    | .note text => .went next (s.note text)
    | .print text => .went next (s.print a.bindings text)
    | .change c => .went next (s.notify a.bindings c)
    | .report path => .went { next with report := some path } s
    | .poll =>
      match s.channel.take? with
      | some (signal, channel) =>
        .went next ({ s with channel := channel }.note ("signal " ++ signalName signal))
      | none => .went next (s.note "signal none")
    | .untilStop =>
      match s.channel.take? with
      | some (signal, channel) =>
        let noted := { s with channel := channel }.note ("signal " ++ signalName signal)
        .went (if signal = .stop then next else a) noted
      | none => if s.channel.finished then .went next s else .blocked
    | .fail fault => .ended next s (.returned (.error fault))
    | .panic text => .ended next s (.panicked text)

end Artifact

/-- What is noted when an artifact is bound. -/
def bindingNotes (b : Bindings) : List String :=
  ["verbose " ++ toString b.settings.verbose] ++
    b.settings.stopTime.toList.map (fun t => "stop-time " ++ t.toText) ++
    ["replications " ++ toString b.settings.replications.toNat, "sink true",
     "single-step " ++ toString b.singleStep] ++
    (if b.keepsProperties then ["cache"] else []) ++ b.observers.map (fun _ => "observer") ++
    ["signals"]

/-- What is noted when an artifact is loaded. -/
def loadNote (loaded : LoadedArtifact) (searchPath : List Path) : String :=
  "load " ++ loaded.name.text ++ " in " ++ loaded.context.text ++ " from " ++
    ":".intercalate (searchPath.map Path.text)

/-- Artifacts that follow these instructions; loading them fails if there is a reason. -/
def kind (instructions : List Instruction) (refusal : Option String) : ArtifactKind Artifact where
  load _ loaded searchPath :=
    ([loadNote loaded searchPath],
      match refusal with
      | some reason => .error ⟨loaded.executable, reason⟩
      | none => .ok ⟨.gate :: .note "run" :: instructions, { handle := 0 }, none, some 0⟩)
  bind b a := (bindingNotes b, { a with bindings := b })
  setSingleStep on a :=
    (["single-step " ++ toString on], { a with bindings := { a.bindings with singleStep := on } })
  advance := Artifact.advance
  report? := Artifact.report

end SimWorkbench.Rehearsal
