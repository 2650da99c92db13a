import SimWorkbench.Cache.Record
import SimWorkbench.Context.Arena
import SimWorkbench.Control.Transport
import SimWorkbench.Run.Artifact

/-!
# The controller

The controller runs one artifact at a time. Three sorts of threads act on its state: the thread that
makes the control calls, a worker for each run that advances the artifact, and a monitor for each
run that tidies up when the worker has ended. What a thread does in one step no other thread can
interrupt; between steps any thread may act. A guard admits one session: a start raises it from zero
to one, and the monitor, or a start that fails, gives it back. The mark of the active run is under a
lock that a stop and a step hold for several steps. The system may refuse a thread to a start. Then
the run is forsaken; if it has a worker by then, that goes on, and nobody waits for it.
-/
namespace SimWorkbench

/-- Why a run could not be prepared or started. -/
inductive ControlFault where
  | notPrepared
  | sessionActive
  | resolution (cause : ResolutionError)
  | load (cause : LoadFault)
  deriving DecidableEq, Repr

def ControlFault.message : ControlFault → String
  | notPrepared => "no artifact has been prepared"
  | sessionActive => "a run is already in progress"
  | resolution cause => cause.message
  | load cause => cause.message

/-- A thread that the system refused to a start. -/
structure ThreadFault where
  role : String
  cause : String
  deriving DecidableEq, Repr

def ThreadFault.message (f : ThreadFault) : String :=
  "failed to spawn " ++ f.role ++ " thread: " ++ f.cause

/-- What is told about a run when it is over. -/
structure RunReport where
  run : Nat
  artifact : Path
  outcome : Except Fault Unit
  report : Option Path
  properties : Properties

def RunReport.success (r : RunReport) : Bool := r.outcome.isOk

/-- What a control call answers. -/
inductive Answer where
  | done
  | started (run : Nat)
  | rejected
  | failed (fault : ControlFault)
  deriving DecidableEq, Repr

/-- Where a worker is. -/
inductive WorkerPoint where
  | unborn
  | running
  | ended (outcome : Except Fault Unit) (report : Option Path)

/-- What a monitor does next. -/
inductive MonitorPoint where
  | unborn
  /-- Waits for the worker. -/
  | joining
  /-- Closes the signal channel. -/
  | finishing
  /-- Closes the output handle. -/
  | releasing
  | flushing
  | disposing
  | reporting
  /-- Takes the run off the mark of the active one. -/
  | clearing
  /-- Looks whether the transport shows activity. -/
  | looking
  | showing
  | telling
  /-- Gives the guard back. -/
  | leaving
  /-- Tells whoever wants to know that the run is over. -/
  | calling
  | delivering
  | gone
  deriving DecidableEq, Repr

/-- A run: its artifact, what it is bound to, and its two threads. -/
structure Run (α : Type) where
  id : Nat
  context : ContextId
  name : Path
  artifact : α
  channel : SignalChannel
  handle : Handle
  properties : Properties
  worker : WorkerPoint
  monitor : MonitorPoint
  report : Option RunReport

/-- What the control thread does next. -/
inductive ControlPoint (α : Type) where
  /-- The call has been answered. -/
  | answered (answer : Answer)
  /-- The call has been answered by the fault that a thread was refused. -/
  | refused (fault : ThreadFault)
  /-- Looks whether a session is active, before it prepares. -/
  | asking (descriptor : Descriptor)
  /-- Gives the prepared run up; the flag says that a start goes on afterwards. -/
  | discarding (descriptor : Descriptor) (starting : Bool)
  | resolving (descriptor : Descriptor) (starting : Bool)
  | loading (descriptor : Descriptor) (starting : Bool) (run : Nat) (loaded : LoadedArtifact)
      (searchPath : List Path)
  /-- Gives up the context of an artifact that could not be loaded. -/
  | abandoning (starting : Bool) (context : ContextId) (fault : ControlFault)
  | binding (descriptor : Descriptor) (starting : Bool) (run : Nat) (loaded : LoadedArtifact)
      (artifact : α)
  | entering (descriptor : Descriptor) (starting : Bool) (run : Run α)
  /-- Tries to raise the guard. -/
  | admitting
  /-- Takes the prepared run, or prepares the last one again. -/
  | taking
  | launching (run : Run α)
  | spawningWorker (run : Nat)
  | spawningMonitor (run : Nat)
  /-- Takes a run that was refused a thread off the mark of the active one. -/
  | unmarking (context : ContextId) (fault : ThreadFault)
  /-- Gives up the context of such a run. -/
  | forsaking (context : ContextId) (fault : ThreadFault)
  /-- Gives the guard back after that. -/
  | yielding (fault : ThreadFault)
  /-- Gives the guard back after a start that failed. -/
  | givingBack (fault : ControlFault)
  /-- Asks the active run to stop. -/
  | stopping
  /-- Closes the output handle of the active run. -/
  | silencing (run : Nat)
  | flushing
  | restoring
  /-- Turns the stepping mode of the active run on, or that of the prepared one. -/
  | stepping
  /-- Asks the active run for a step. -/
  | advancing (run : Nat)
  | showing (state : Transport) (next : ControlPoint α)
  | telling (state : Transport) (next : ControlPoint α)
  /-- The controller has been given up. -/
  | closed

/-- Whether the control thread holds the lock of the active run's mark. -/
def ControlPoint.locksMark {α : Type} : ControlPoint α → Bool
  | silencing _ | flushing | advancing _ => true
  | _ => false

/-- The state of the controller and of what it works on. -/
structure Controller (α : Type) where
  settings : RunSettings
  observers : List String
  /-- Whether somebody is told what the transport shows. -/
  hasListener : Bool
  prepared : Option (Run α)
  lastDescriptor : Option Descriptor
  nextRun : Nat
  control : ControlPoint α
  guard : Nat
  transport : Transport
  /-- The number and the context of the run that control calls act on. -/
  active : Option (Nat × ContextId)
  arena : Arena
  files : FileTree
  sink : OutputSink
  /-- The runs that were launched and not forsaken, oldest first. -/
  runs : List (Run α)
  /-- The runs that were forsaken when they had a worker, oldest first. -/
  strays : List (Run α)
  /-- What the listener was told, newest first. -/
  told : List Transport
  /-- What was announced at the end of runs, newest first. -/
  announcements : List RunReport
  /-- The reports that can be fetched, newest first. -/
  delivered : List RunReport
  notices : List (String × PropertyChange)
  journal : List String

namespace Controller

variable {α : Type}

/-- A controller that has run nothing. -/
def fresh (settings : RunSettings) (hasListener : Bool) (arena : Arena) (files : FileTree) :
    Controller α where
  settings := settings
  observers := []
  hasListener := hasListener
  prepared := none
  lastDescriptor := none
  nextRun := 1
  control := .answered .done
  guard := 0
  transport := .rewound
  active := none
  arena := arena
  files := files
  sink := .fresh
  runs := []
  strays := []
  told := []
  announcements := []
  delivered := []
  notices := []
  journal := []

def isActive (c : Controller α) : Bool := 0 < c.guard

/-- The runs whose end was announced, newest first. -/
def announced (c : Controller α) : List Nat := c.announcements.map RunReport.run

def run? (c : Controller α) (id : Nat) : Option (Run α) := c.runs.find? fun r => r.id == id

def stray? (c : Controller α) (id : Nat) : Option (Run α) := c.strays.find? fun r => r.id == id

/-- Changes the run with a number. -/
def modifyRun (c : Controller α) (id : Nat) (f : Run α → Run α) : Controller α :=
  { c with runs := c.runs.map fun r => if r.id == id then f r else r }

/-- Changes the run with a number that was forsaken. -/
def modifyStray (c : Controller α) (id : Nat) (f : Run α → Run α) : Controller α :=
  { c with strays := c.strays.map fun r => if r.id == id then f r else r }

/-- Takes a context away; whether that succeeds does not matter. -/
def dispose (c : Controller α) (here : Location) (context : ContextId) : Controller α :=
  let (files, arena, _) := c.arena.dispose c.files here context
  { c with files := files, arena := arena }

/-- Notes what artifacts say about the calls made to them. -/
def noteAll (c : Controller α) (notes : List String) : Controller α :=
  { c with journal := notes.reverse ++ c.journal }

/-- Changes what the transport shows; tells whether it is a change. -/
def show' (c : Controller α) (state : Transport) : Controller α × Bool :=
  if c.transport = state then (c, false) else ({ c with transport := state }, true)

/-- Tells the listener. -/
def tell (c : Controller α) (state : Transport) : Controller α :=
  if c.hasListener then { c with told := state :: c.told } else c

/-- The name of an artifact in the stage. -/
def artifactName (c : Controller α) (d : Descriptor) : Except ResolutionError Path :=
  match Path.below? c.arena.classesDir d.artifact with
  | some name => .ok name
  | none => .error (.notFound d.artifact .stage)

/-- Makes a run context and loads the artifact into it; a context that stays empty is taken away. -/
def resolve (c : Controller α) (here : Location) (d : Descriptor) :
    Controller α × Except ResolutionError (LoadedArtifact × List Path) :=
  let (arena, context) := c.arena.createRun
  let c := { c with arena := arena }
  match c.artifactName d with
  | .error e => (c.dispose here context, .error e)
  | .ok name =>
    let (files, arena, loaded) := c.arena.load c.files here context name
    let c := { c with files := files, arena := arena }
    match loaded with
    | .error e => (c.dispose here context, .error e)
    | .ok loaded => (c, .ok (loaded, c.arena.searchPath context))

/-- What a new artifact is bound to. -/
def bindings (c : Controller α) (handle : Handle) : Bindings :=
  { settings := c.settings, handle := handle, observers := c.observers }

/-- The point after a preparation that failed. -/
def afterFault (starting : Bool) (fault : ControlFault) : ControlPoint α :=
  if starting then .givingBack fault else .answered (.failed fault)

/-- The next step of the control thread. -/
def stepControl (kind : ArtifactKind α) (here : Location) (c : Controller α) : Controller α :=
  let goTo (c : Controller α) (p : ControlPoint α) : Controller α := { c with control := p }
  match c.control with
  | .answered _ | .refused _ | .closed => c
  | .asking d =>
    goTo c (if c.isActive then .answered (.failed .sessionActive) else .discarding d false)
  | .discarding d starting =>
    let c := match c.prepared with
      | some run => { c.dispose here run.context with prepared := none }
      | none => c
    goTo { c with nextRun := c.nextRun + 1 } (.resolving d starting)
  | .resolving d starting =>
    match c.resolve here d with
    | (c, .error e) => goTo c (afterFault starting (.resolution e))
    | (c, .ok (loaded, searchPath)) =>
      goTo c (.loading d starting (c.nextRun - 1) loaded searchPath)
  | .loading d starting id loaded searchPath =>
    match kind.load c.files loaded searchPath with
    | (notes, .error e) => goTo (c.noteAll notes) (.abandoning starting loaded.context (.load e))
    | (notes, .ok artifact) => goTo (c.noteAll notes) (.binding d starting id loaded artifact)
  | .abandoning starting context fault => goTo (c.dispose here context) (afterFault starting fault)
  | .binding d starting id loaded artifact =>
    let (sink, handle) := c.sink.session
    let (notes, artifact) := kind.bind (c.bindings handle) artifact
    let run : Run α :=
      ⟨id, loaded.context, loaded.name, artifact, .fresh, handle, [], .unborn, .unborn, none⟩
    goTo ({ c with sink := sink }.noteAll notes) (.entering d starting run)
  | .entering d starting run =>
    let c := { c with arena := (c.arena.enter run.context).1, lastDescriptor := some d }
    if starting then goTo c (.showing .rewound (.launching run))
    else goTo { c with prepared := some run } (.showing .rewound (.answered .done))
  | .admitting =>
    if c.guard = 0 then goTo { c with guard := 1 } .taking else goTo c (.answered .rejected)
  | .taking =>
    match c.prepared, c.lastDescriptor with
    | some run, _ => goTo { c with prepared := none } (.launching run)
    | none, some d => goTo c (.discarding d true)
    | none, none => goTo c (.givingBack .notPrepared)
  | .launching run =>
    goTo { c with active := some (run.id, run.context), runs := c.runs ++ [run] }
      (.showing .running (.spawningWorker run.id))
  | .spawningWorker id =>
    goTo (c.modifyRun id fun r => { r with worker := .running }) (.spawningMonitor id)
  | .spawningMonitor id =>
    goTo (c.modifyRun id fun r => { r with monitor := .joining }) (.answered (.started id))
  | .unmarking context fault => goTo { c with active := none } (.forsaking context fault)
  | .forsaking context fault => goTo (c.dispose here context) (.showing .stopped (.yielding fault))
  | .yielding fault => goTo { c with guard := c.guard - 1 } (.refused fault)
  | .givingBack fault => goTo { c with guard := c.guard - 1 } (.answered (.failed fault))
  | .stopping =>
    match c.active with
    | some (id, _) =>
      goTo (c.modifyRun id fun r => { r with channel := r.channel.request .stop }) (.silencing id)
    | none => goTo c .restoring
  | .silencing id =>
    match c.run? id with
    | some run =>
      goTo { c with sink := c.sink.close run.handle }
        (if c.sink.isOpen run.handle then .flushing else .restoring)
    | none => goTo c .restoring
  | .flushing => goTo { c with sink := c.sink.flush } .restoring
  | .restoring =>
    goTo { c with arena := c.arena.restoreStage.1 } (.showing .stopped (.answered .done))
  | .stepping =>
    match c.active, c.prepared with
    | some (id, _), _ =>
      goTo (c.modifyRun id fun r => { r with channel := r.channel.request (.singleStep true) })
        (.advancing id)
    | none, some run =>
      let (notes, artifact) := kind.setSingleStep true run.artifact
      goTo { c.noteAll notes with prepared := some { run with artifact := artifact } }
        (.showing .stepped (.answered .done))
    | none, none => goTo c (.showing .stepped (.answered .done))
  | .advancing id =>
    goTo (c.modifyRun id fun r => { r with channel := r.channel.request .step })
      (.showing .stepped (.answered .done))
  | .showing state next =>
    match c.show' state with
    | (c, true) => goTo c (.telling state next)
    | (c, false) => goTo c next
  | .telling state next => goTo (c.tell state) next

/-- The state when the system has refused the control thread the thread that it is about to make; none
if it makes no thread. A worker that has no monitor is asked to stop, and goes on. -/
def refuse? (c : Controller α) (cause : String) : Option (Controller α) :=
  let forsake (run : Run α) (role : String) : Controller α :=
    { c with runs := c.runs.filter fun r => r.id != run.id
             control := .unmarking run.context ⟨role, cause⟩ }
  match c.control with
  | .spawningWorker id => (c.run? id).map fun run => forsake run "worker"
  | .spawningMonitor id => (c.run? id).map fun run =>
    { forsake run "monitor" with
      strays := c.strays ++ [{ run with channel := run.channel.request .stop }] }
  | _ => none

/-- What the worker of a run sees. -/
def scene (c : Controller α) (run : Run α) : Scene :=
  ⟨c.files, c.sink, run.channel, run.properties, c.notices, c.journal⟩

/-- The state after a worker has changed what it sees. -/
def setScene (c : Controller α) (s : Scene) : Controller α :=
  { c with files := s.files, sink := s.sink, notices := s.notices, journal := s.journal }

/-- What a worker hands to the monitor. -/
def endPoint (kind : ArtifactKind α) (artifact : α) : RunEnding → WorkerPoint
  | .returned outcome => .ended outcome (kind.report? artifact)
  | .panicked text => .ended (.error (.panicked (text.getD "non-string panic payload"))) none

/-- The next step of the worker of a run, with how the run is changed; none if it waits or is not
running. -/
def advance? (kind : ArtifactKind α) (c : Controller α) (run : Run α) :
    Option (Controller α × (Run α → Run α)) :=
  let update (artifact : α) (s : Scene) (worker : WorkerPoint) :
      Controller α × (Run α → Run α) :=
    (c.setScene s, fun r => { r with
      artifact := artifact, channel := s.channel, properties := s.properties, worker := worker })
  match run.worker with
  | .running =>
    match kind.advance run.artifact (c.scene run) with
    | .blocked => none
    | .went artifact s => some (update artifact s .running)
    | .ended artifact s ending => some (update artifact s (endPoint kind artifact ending))
  | _ => none

/-- The next step of the worker of a run. -/
def stepWorker? (kind : ArtifactKind α) (c : Controller α) (id : Nat) : Option (Controller α) := do
  let run ← c.run? id
  let (c, change) ← c.advance? kind run
  return c.modifyRun id change

/-- The next step of the worker of a run that was forsaken. -/
def stepStray? (kind : ArtifactKind α) (c : Controller α) (id : Nat) : Option (Controller α) := do
  let run ← c.stray? id
  let (c, change) ← c.advance? kind run
  return c.modifyStray id change

/-- The next step of the monitor of a run; none if it waits or has nothing to do. -/
def stepMonitor? (here : Location) (c : Controller α) (id : Nat) : Option (Controller α) := do
  let run ← c.run? id
  let goTo (c : Controller α) (p : MonitorPoint) : Controller α :=
    c.modifyRun id fun r => { r with monitor := p }
  match run.monitor, run.worker with
  | .joining, .ended .. => some (goTo c .finishing)
  | .finishing, _ =>
    some (c.modifyRun id fun r => { r with channel := r.channel.finish, monitor := .releasing })
  | .releasing, _ =>
    some (goTo { c with sink := c.sink.close run.handle }
      (if c.sink.isOpen run.handle then .flushing else .disposing))
  | .flushing, _ => some (goTo { c with sink := c.sink.flush } .disposing)
  | .disposing, _ => some (goTo (c.dispose here run.context) .reporting)
  | .reporting, .ended outcome path =>
    let report : RunReport := ⟨id, run.name, outcome, path, run.properties⟩
    some (c.modifyRun id fun r => { r with report := some report, monitor := .clearing })
  | .clearing, _ =>
    if c.control.locksMark then none else
    let isOwn : Bool := c.active.any fun a => a.2 == run.context
    some (goTo (if isOwn then { c with active := none } else c) .looking)
  | .looking, _ => some (goTo c (if c.transport.showsActivity then .showing else .leaving))
  | .showing, _ =>
    match c.show' .stopped with
    | (c, changed) => some (goTo c (if changed then .telling else .leaving))
  | .telling, _ => some (goTo (c.tell .stopped) .leaving)
  | .leaving, _ => some (goTo { c with guard := c.guard - 1 } .calling)
  | .calling, _ =>
    some (goTo { c with announcements := run.report.toList ++ c.announcements } .delivering)
  | .delivering, _ => some (goTo { c with delivered := run.report.toList ++ c.delivered } .gone)
  | .unborn, _ | .joining, _ | .reporting, _ | .gone, _ => none

/-- A call of the control thread. -/
inductive Call where
  | prepare (descriptor : Descriptor)
  | start | stop | step | rewind
  deriving DecidableEq, Repr

/-- Where a call begins. -/
def Call.entry : Call → ControlPoint α
  | .prepare d => .asking d
  | .start => .admitting
  | .stop => .stopping
  | .step => .stepping
  | .rewind => .showing .rewound (.answered .done)

/-- Begins a call; the one before has to be answered. -/
def begin (c : Controller α) (call : Call) : Controller α := { c with control := call.entry }

/-- Gives the controller up: the prepared run is given up. -/
def close (c : Controller α) (here : Location) : Controller α :=
  match c.prepared with
  | some run => { c.dispose here run.context with prepared := none, control := .closed }
  | none => { c with control := .closed }

end Controller
end SimWorkbench
