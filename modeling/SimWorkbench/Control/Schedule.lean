import SimWorkbench.Context.Call
import SimWorkbench.Control.Controller

/-!
# Schedules

What the threads do, and what others do to the files and to the arena, are events that come in any
order. One schedule is that of a patient user: a call is carried out to its answer, then the workers
and monitors go on until they wait.
-/
namespace SimWorkbench.Controller

variable {α : Type}

/-- What can happen to a controller and to what it works on. -/
inductive Event where
  /-- The control thread makes a call; its last one has been answered. -/
  | call (call : Call)
  | control
  | worker (run : Nat)
  | monitor (run : Nat)
  /-- The system refuses the thread that the control thread is about to make. -/
  | refusal (cause : String)
  /-- The worker of a run that was forsaken goes on. -/
  | stray (run : Nat)
  /-- The controller is given up; its last call has been answered. -/
  | close
  /-- Somebody else works on the arena. -/
  | arena (call : ArenaCall)
  /-- Somebody else changes files. -/
  | files (files : FileTree)
  /-- Runs prepared from now on get other settings. -/
  | settings (settings : RunSettings)
  /-- Runs prepared from now on have one more observer. -/
  | observer (name : String)

/-- Whether the control thread waits for a call. -/
def idle (c : Controller α) : Bool :=
  match c.control with
  | .answered _ | .refused _ => true
  | _ => false

/-- The state after an event; none if it cannot happen now. -/
def happen? (kind : ArtifactKind α) (here : Location) (c : Controller α) :
    Event → Option (Controller α)
  | .call k => if c.idle then some (c.begin k) else none
  | .control => some (c.stepControl kind here)
  | .worker id => c.stepWorker? kind id
  | .monitor id => c.stepMonitor? here id
  | .refusal cause => c.refuse? cause
  | .stray id => c.stepStray? kind id
  | .close => if c.idle then some (c.close here) else none
  | .arena call =>
    let (files, arena, _) := c.arena.perform c.files here call
    some { c with files := files, arena := arena }
  | .files files => some { c with files := files }
  | .settings s => if c.idle then some { c with settings := s } else none
  | .observer o => if c.idle then some { c with observers := c.observers ++ [o] } else none

/-- What some schedule of allowed events leads to. -/
inductive Reaches (kind : ArtifactKind α) (here : Location) (allows : Controller α → Event → Prop) :
    Controller α → Controller α → Prop where
  | refl (c : Controller α) : Reaches kind here allows c c
  | tail {c d e : Controller α} {event : Event} (past : Reaches kind here allows c d)
    (allowed : allows d event) (happened : d.happen? kind here event = some e) :
    Reaches kind here allows c e

/-- Carries the call under way out to its answer. The number bounds the steps. -/
def finishCall (kind : ArtifactKind α) (here : Location) : Nat → Controller α → Controller α × Answer
  | 0, c => (c, .done)
  | n + 1, c =>
    match c.control with
    | .answered answer => (c, answer)
    | _ => finishCall kind here n (c.stepControl kind here)

/-- No call takes more steps than this. -/
def callSteps : Nat := 40

/-- Carries out a call while all other threads wait and the system refuses none. -/
def perform (kind : ArtifactKind α) (here : Location) (c : Controller α) (call : Call) :
    Controller α × Answer :=
  finishCall kind here callSteps (c.begin call)

/-- One step of the first thread of a run that can go on. -/
def stepRuns? (kind : ArtifactKind α) (here : Location) (c : Controller α) :
    Option (Controller α) :=
  c.runs.findSome? fun run =>
    (c.stepWorker? kind run.id).or (c.stepMonitor? here run.id)

/-- Lets workers and monitors go on until all of them wait. The number bounds the steps. -/
def settle (kind : ArtifactKind α) (here : Location) : Nat → Controller α → Controller α
  | 0, c => c
  | n + 1, c =>
    match c.stepRuns? kind here with
    | some d => settle kind here n d
    | none => c

end SimWorkbench.Controller
