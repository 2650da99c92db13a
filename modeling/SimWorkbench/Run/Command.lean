import SimWorkbench.Decimal.Shortest
import SimWorkbench.Run.Signal

/-!
# Commands to an artifact

The host tells an artifact what to do by lines of text.
-/
namespace SimWorkbench
open Decimal

/-- What the host tells an artifact. -/
inductive Command where
  | verbose (on : Bool)
  | stopTime (time : Binary64)
  | replications (count : UInt32)
  | singleStep (on : Bool)
  | run
  | step
  | stop
  deriving DecidableEq, Repr

namespace Command

/-- The line of a command, without its end. -/
def line : Command → String
  | verbose on => "verbose " ++ toString on
  | stopTime time => "stop-time " ++ time.toText
  | replications count => "replications " ++ toString count.toNat
  | singleStep on => "single-step " ++ toString on
  | run => "run"
  | step => "step"
  | stop => "stop"

/-- The command that passes a signal on. -/
def ofSignal : Signal → Command
  | .stop => stop
  | .singleStep on => singleStep on
  | .step => step

end Command
end SimWorkbench
