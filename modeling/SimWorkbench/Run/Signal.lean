/-!
# Signals of a run

A channel carries requests from the one who controls a run to the run. A stop is accepted once, a
change of the stepping mode only if it is a change, a step always. A channel that is closed accepts
and yields nothing.
-/
namespace SimWorkbench

/-- A request to a run. -/
inductive Signal where
  | stop
  | singleStep (on : Bool)
  | step
  deriving DecidableEq, Repr

/-- The channel of one run. -/
structure SignalChannel where
  /-- Requests accepted and not yet taken, oldest first. -/
  queue : List Signal
  stopRequested : Bool
  singleStep : Bool
  finished : Bool
  deriving DecidableEq, Repr, Inhabited

namespace SignalChannel

/-- An open channel that has accepted nothing. -/
def fresh : SignalChannel := ⟨[], false, false, false⟩

/-- Whether a request is accepted now. -/
def accepts (c : SignalChannel) : Signal → Bool
  | .stop => !c.finished && !c.stopRequested
  | .singleStep on => !c.finished && c.singleStep != on
  | .step => !c.finished

/-- The channel after an accepted request. -/
def enqueue (c : SignalChannel) (s : Signal) : SignalChannel :=
  match s with
  | .stop => { c with queue := c.queue ++ [s], stopRequested := true }
  | .singleStep on => { c with queue := c.queue ++ [s], singleStep := on }
  | .step => { c with queue := c.queue ++ [s] }

/-- The channel after a request, accepted or not. -/
def request (c : SignalChannel) (s : Signal) : SignalChannel :=
  if c.accepts s then c.enqueue s else c

/-- The oldest request that waits, and the channel without it. -/
def take? (c : SignalChannel) : Option (Signal × SignalChannel) :=
  if c.finished then none
  else
    match c.queue with
    | [] => none
    | s :: rest => some (s, { c with queue := rest })

/-- Closes the channel; what waits is dropped. -/
def finish (c : SignalChannel) : SignalChannel := { c with queue := [], finished := true }

theorem request_of_finished {c : SignalChannel} (h : c.finished = true) (s : Signal) :
    c.request s = c := by
  cases s <;> simp [request, accepts, h]

theorem take?_of_finished {c : SignalChannel} (h : c.finished = true) : c.take? = none := by
  simp [take?, h]

end SignalChannel
end SimWorkbench
