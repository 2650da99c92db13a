/-!
# The transport

Runs are controlled like a tape: the transport shows a state, and the state says which controls are
enabled.
-/
namespace SimWorkbench

/-- What the transport shows. -/
inductive Transport where
  /-- Ready to run from the beginning. -/
  | rewound
  | running
  /-- The last run ended or was stopped. -/
  | stopped
  /-- Advancing one event at a time. -/
  | stepped
  deriving DecidableEq, Repr, Inhabited

/-- A button. -/
inductive Control where
  | play | stop | step | rewind
  deriving DecidableEq, Repr

namespace Transport

def name : Transport → String
  | rewound => "rewound"
  | running => "running"
  | stopped => "stopped"
  | stepped => "stepped"

/-- The controls enabled in a state. -/
def controls : Transport → List Control
  | rewound => [.play, .step]
  | running => [.stop, .step]
  | stopped => [.play, .step, .rewind]
  | stepped => [.play, .stop, .step]

/-- Whether the end of a run changes what is shown. -/
def showsActivity : Transport → Bool
  | running | stepped => true
  | rewound | stopped => false

end Transport

def Control.name : Control → String
  | play => "play"
  | stop => "stop"
  | step => "step"
  | rewind => "rewind"

end SimWorkbench
