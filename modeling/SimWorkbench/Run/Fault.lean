import SimWorkbench.Text.Blank

/-!
# Faults of a run

How a run that started can end other than well.
-/
namespace SimWorkbench

/-- Why a run did not complete. -/
inductive Fault where
  /-- The model reported an error. -/
  | raised (message : String)
  /-- The artifact ended without completing. -/
  | exited (status stderr : String)
  /-- The body of the run broke down. -/
  | panicked (message : String)
  /-- The artifact did not keep to the lines it may print. -/
  | protocol (message : String)
  /-- The artifact could not be talked to. -/
  | io (context cause : String)
  deriving DecidableEq, Repr

namespace Fault

/-- What an artifact printed on its error stream, behind a colon unless it is blank. -/
def stderrNote (stderr : String) : String :=
  let tail := Text.trim stderr.toList
  if tail.isEmpty then "" else ": " ++ String.ofList tail

def message : Fault → String
  | raised text => "model raised: " ++ text
  | exited status stderr =>
    "artifact exited before completing (" ++ status ++ ")" ++ stderrNote stderr
  | panicked text => "run panicked: " ++ text
  | protocol text => "protocol violation: " ++ text
  | io context cause => context ++ ": " ++ cause

end Fault
end SimWorkbench
