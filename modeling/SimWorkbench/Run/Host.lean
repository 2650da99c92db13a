import SimWorkbench.Run.Artifact
import SimWorkbench.Run.Command

/-!
# The host's side of the conversation

The host writes commands to an artifact: first what it is to know, then one command to run or to
stop, then one command for each signal taken from the channel. Looking at the stepping mode, looking
whether a stop was requested, writing a line and taking a signal are separate steps, so that
requests can come in between.
-/
namespace SimWorkbench

/-- Where the host is in the conversation. -/
inductive HostStage where
  /-- Before it looks at the stepping mode. -/
  | begun
  /-- Before it looks whether a stop was requested; these commands come first. -/
  | choosing (first : List Command)
  /-- With these commands still to write. -/
  | opening (left : List Command)
  /-- Passing signals on. -/
  | forwarding
  /-- The artifact takes no more commands, or has ended. -/
  | silent
  deriving DecidableEq, Repr

/-- The host of one run. -/
structure Host where
  settings : RunSettings
  singleStep : Bool
  stage : HostStage
  /-- The commands written, oldest first. -/
  written : List Command
  deriving DecidableEq, Repr

namespace Host

/-- A host that has written nothing. -/
def start (settings : RunSettings) (singleStep : Bool) : Host := ⟨settings, singleStep, .begun, []⟩

/-- What the artifact is to know before it runs. -/
def preface (settings : RunSettings) (singleStep : Bool) : List Command :=
  [.verbose settings.verbose, .replications settings.replications, .singleStep singleStep] ++
    settings.stopTime.toList.map .stopTime

/-- Writes a command, or falls silent if the artifact takes none any more. -/
def write (h : Host) (listening : Bool) (c : Command) (next : HostStage) : Host :=
  if listening then { h with written := h.written ++ [c], stage := next }
  else { h with stage := .silent }

/-- The host's next step; none if it waits for a signal or is silent. -/
def step? (h : Host) (channel : SignalChannel) (listening : Bool) : Option (Host × SignalChannel) :=
  match h.stage with
  | .begun =>
    let first := preface h.settings (h.singleStep || channel.singleStep)
    some ({ h with stage := .choosing first }, channel)
  | .choosing first =>
    let last : Command := if channel.stopRequested then .stop else .run
    some ({ h with stage := .opening (first ++ [last]) }, channel)
  | .opening [] => some ({ h with stage := .forwarding }, channel)
  | .opening (c :: left) => some (h.write listening c (.opening left), channel)
  | .forwarding =>
    channel.take?.map fun taken =>
      (h.write listening (Command.ofSignal taken.1) .forwarding, taken.2)
  | .silent => none

/-- The lines written, as the artifact reads them. -/
def input (h : Host) : String := String.join (h.written.map fun c => c.line ++ "\n")

end Host
end SimWorkbench
