import SimWorkbench.Bytes
import SimWorkbench.Process.Basic
import SimWorkbench.Run.Event
import SimWorkbench.Run.Fault

/-!
# What an artifact was heard to say

The output of an artifact is cut into lines; each line is an event, an output line or malformed. The
first fault and the first malformed line are kept; the last report counts. Later events are still
heard. When the artifact has ended, its outcome follows from what was heard and from its status.
-/
namespace SimWorkbench

/-- What was heard so far. -/
structure Heard where
  done : Bool := false
  fault : Option String := none
  violation : Option MalformedEvent := none
  report : Option Path := none
  deriving DecidableEq, Repr, Inhabited

/-- What a line asks the host to pass on. -/
inductive Passing where
  | line (text : String)
  | change (change : PropertyChange)
  deriving DecidableEq, Repr

namespace Heard

/-- The lines of an output: each ends with a line feed, the last one may lack it. -/
def lines (output : Bytes) : List Bytes := Text.terminated 10 output

/-- What a line says. Bytes that are no text are replaced. -/
def read (line : Bytes) : Except MalformedEvent Event :=
  Event.parse (Text.dropLineEnds (Text.Utf8.decodeLossy line))

/-- Hears one line. Reports are seen from the directory the artifact works in. -/
def hear (directory : Path) (h : Heard) (line : Bytes) : Heard × Option Passing :=
  match read line with
  | .ok (.property c) => (h, some (.change c))
  | .ok (.output text) => (h, some (.line text))
  | .ok (.report path) => ({ h with report := some (directory.join path) }, none)
  | .ok (.fault message) => ({ h with fault := h.fault.or (some message) }, none)
  | .ok .done => ({ h with done := true }, none)
  | .error e => ({ h with violation := h.violation.or (some e) }, none)

/-- How the run ended: a fault before a malformed line before the status. -/
def outcome (h : Heard) (status : ExitStatus) (stderr : String) : Except Fault Unit :=
  match h.fault, h.violation with
  | some message, _ => .error (.raised message)
  | none, some e => .error (.protocol e.message)
  | none, none =>
    if h.done && status.success then .ok () else .error (.exited status.text stderr)

end Heard
end SimWorkbench
