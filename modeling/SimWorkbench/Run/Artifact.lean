import SimWorkbench.Context.Basic
import SimWorkbench.Decimal.Binary64
import SimWorkbench.FileTree.Basic
import SimWorkbench.Run.Fault
import SimWorkbench.Run.Output
import SimWorkbench.Run.Property
import SimWorkbench.Run.Signal

/-!
# Artifacts

An artifact is a model that can be run. It is loaded, bound to what it may use, and then goes on
step by step until it ends. What an artifact is made of is left open: a kind of artifacts says how
one is loaded, bound and advanced.
-/
namespace SimWorkbench
open Decimal

/-- What every run is told before it starts. -/
structure RunSettings where
  verbose : Bool := false
  /-- The time at which the model is to stop; the model's own if there is none. -/
  stopTime : Option Binary64 := none
  replications : UInt32 := 1
  deriving DecidableEq, Repr, Inhabited

/-- What an artifact is bound to. -/
structure Bindings where
  settings : RunSettings := {}
  /-- Where its lines go. -/
  handle : Handle
  singleStep : Bool := false
  /-- Whether its properties are kept. -/
  keepsProperties : Bool := true
  /-- Who is told about its properties. -/
  observers : List String := []
  deriving DecidableEq, Repr, Inhabited

/-- What a run shares with others. -/
structure Scene where
  files : FileTree
  sink : OutputSink
  channel : SignalChannel
  properties : Properties
  /-- What observers were told, newest first. -/
  notices : List (String × PropertyChange)
  /-- What artifacts noted about the calls made to them, newest first. -/
  journal : List String
  deriving DecidableEq, Repr

namespace Scene

/-- Keeps the new value of a property and tells every observer. -/
def notify (s : Scene) (b : Bindings) (c : PropertyChange) : Scene :=
  { s with
    properties := if b.keepsProperties then s.properties.record c else s.properties
    notices := (b.observers.map fun o => (o, c)).reverse ++ s.notices }

/-- Writes a line of the run. -/
def print (s : Scene) (b : Bindings) (line : String) : Scene :=
  { s with sink := s.sink.writeLine b.handle line }

def note (s : Scene) (text : String) : Scene := { s with journal := text :: s.journal }

end Scene

/-- How the body of a run ended. -/
inductive RunEnding where
  | returned (outcome : Except Fault Unit)
  /-- It broke down, perhaps with a text. -/
  | panicked (text : Option String)

/-- What came of one step of an artifact. -/
inductive Advance (α : Type) where
  /-- It waits for a signal, for input, or to be let through. -/
  | blocked
  | went (artifact : α) (scene : Scene)
  | ended (artifact : α) (scene : Scene) (ending : RunEnding)

/-- Why an artifact could not be loaded. -/
structure LoadFault where
  path : Path
  reason : String
  deriving DecidableEq, Repr

def LoadFault.message (f : LoadFault) : String :=
  "failed to load " ++ f.path.text ++ ": " ++ f.reason

/-- A kind of artifacts. Loading and binding give what is noted about them, in order. -/
structure ArtifactKind (α : Type) where
  load : FileTree → LoadedArtifact → List Path → List String × Except LoadFault α
  bind : Bindings → α → List String × α
  /-- Lets the run begin in the stepping mode, or not. -/
  setSingleStep : Bool → α → List String × α
  advance : α → Scene → Advance α
  /-- The report that the run wrote. -/
  report? : α → Option Path

namespace ArtifactKind

variable {α : Type}

/-- Advances an artifact until it waits or ends. Whoever watches the output, if anybody does, acts
on the channel as lines come. The number bounds the steps. -/
def advanceAll (kind : ArtifactKind α) (watch : Option (String → SignalChannel → SignalChannel)) :
    Nat → α → Scene → α × Scene × Option RunEnding
  | 0, a, s => (a, s, none)
  | n + 1, a, s =>
    let answered (s' : Scene) : Scene :=
      match watch with
      | none => s'
      | some act =>
        let new := s'.sink.lines.take (s'.sink.lines.length - s.sink.lines.length)
        { s' with channel := new.reverse.foldl (fun c l => act l.2 c) s'.channel }
    match kind.advance a s with
    | .blocked => (a, s, none)
    | .went a' s' => advanceAll kind watch n a' (answered s')
    | .ended a' s' ending => (a', answered s', some ending)

end ArtifactKind
end SimWorkbench
