import SimWorkbench.Proofs.Control.Activity
import SimWorkbench.Proofs.Run.Conduct

/-!
# Sessions do not overlap

On every schedule at most one session is on. A start that is admitted finds all earlier sessions
over, and they stay so; a start that is rejected might as well not have been tried; and activity is
shown only as long as a session is on or is being forsaken. A run that was forsaken has no session,
though its worker may go on beside that of a later one.
-/
namespace SimWorkbench

variable {α : Type}

namespace ControlPoint

/-- Whether a start that was admitted is under way. -/
def starting (p : ControlPoint α) : Bool := p.holdsGuard || p.spawns?.isSome

/-- Whether a start was admitted and has not been answered by a rejection. -/
def admitted : ControlPoint α → Bool
  | answered answer => answer ≠ .rejected
  | refused _ => true
  | showing _ next | telling _ next => next.admitted
  | p => p.starting

@[simp] theorem admitted_afterFault (fault : ControlFault) :
    (Controller.afterFault true fault : ControlPoint α).admitted = true := by
  rfl

end ControlPoint

namespace Controller

variable {kind : ArtifactKind α} {here : Location} {c d : Controller α} {id : Nat} {run : Run α}

/-! ### Starts -/

/-- As long as a start is under way, the sessions of all runs but the one it launched are over. -/
theorem Admitted.over_of_starting (admitted : c.Admitted) (starting : c.control.starting = true)
    (member : run ∈ c.runs) (other : ∀ worker, c.control.spawns? ≠ some (run.id, worker)) :
    run.isOver := by
  by_contra present
  rcases Bool.or_eq_true _ _ |>.mp starting with holds | spawns
  · exact present ((admitted.control holds).2 run member)
  · obtain ⟨⟨id, worker⟩, spawns⟩ := Option.isSome_iff_exists.mp spawns
    obtain ⟨r, hr, rfl, unborn, -⟩ := admitted.spawning id worker spawns
    have same := admitted.unique run member r hr present (Run.not_over_of_unborn unborn)
    exact other worker (same ▸ spawns)

/-- All that the monitor of a run does when the session is over is to announce and deliver the
report. -/
theorem Tidies.of_over (step : Tidies here c run d) (spent : run.isOver) :
    ∃ runs announcements delivered, d = { c with
      runs := runs, announcements := announcements, delivered := delivered } := by
  cases step with
  | calls => exact ⟨_, _, _, rfl⟩
  | delivers => exact ⟨_, _, _, rfl⟩
  | joins point | finishes point | releases point | releasesAgain point | flushes point
  | disposes point | reports point | clears point | clearsNothing point | looks point
  | looksAway point | shows point | passes point | tells point | leaves point =>
    simp [Run.isOver, point, MonitorPoint.rank] at spent

/-- Whether an event is no call and does nothing in place of one. -/
def Event.isOthers : Event → Bool
  | .worker _ | .monitor _ | .stray _ | .arena _ | .files _ => true
  | _ => false

/-- Whether an event can happen while a call is carried out. -/
def Event.isDuring : Event → Bool
  | .control | .refusal _ => true
  | e => e.isOthers

theorem Event.cases_of_isDuring {event : Event} (during : event.isDuring = true) :
    event = .control ∨ (∃ cause, event = .refusal cause) ∨ event.isOthers = true := by
  cases event with
  | control => exact .inl rfl
  | refusal cause => exact .inr (.inl ⟨cause, rfl⟩)
  | _ => exact .inr (.inr during)

/-- A start that was admitted is not rejected. -/
theorem Controls.admitted (step : Controls kind here c d) (admitted : c.control.admitted = true) :
    d.control.admitted = true := by
  cases step with
  | _ =>
    simp_all [ControlPoint.admitted, ControlPoint.starting, ControlPoint.holdsGuard,
      ControlPoint.spawns?]

/-- What a worker does is no matter of where the control thread is. -/
theorem advance?_atPoint (kind : ArtifactKind α) (c : Controller α) (run : Run α)
    (p : ControlPoint α) : (c.atPoint p).advance? kind run =
      (c.advance? kind run).map fun went => (went.1.atPoint p, went.2) := by
  have scene : (c.atPoint p).scene run = c.scene run := rfl
  unfold advance?
  rw [scene]
  cases run.worker with
  | running => cases kind.advance run.artifact (c.scene run) <;> rfl
  | _ => rfl

/-- Other threads do not see where the control thread is, except that it holds a lock. -/
theorem happen?_atPoint {event : Event} (others : event.isOthers = true) {p : ControlPoint α}
    (locks : p.locksMark = c.control.locksMark) :
    (c.atPoint p).happen? kind here event = (c.happen? kind here event).map fun d => d.atPoint p := by
  cases event with
  | worker id =>
    have same : (c.atPoint p).run? id = c.run? id := rfl
    simp only [happen?, stepWorker?, same]
    cases c.run? id with
    | none => rfl
    | some run =>
      simp only [Option.bind_eq_bind, Option.bind_some, advance?_atPoint]
      cases c.advance? kind run <;> rfl
  | stray id =>
    have same : (c.atPoint p).stray? id = c.stray? id := rfl
    simp only [happen?, stepStray?, same]
    cases c.stray? id with
    | none => rfl
    | some run =>
      simp only [Option.bind_eq_bind, Option.bind_some, advance?_atPoint]
      cases c.advance? kind run <;> rfl
  | monitor id =>
    have same : (c.atPoint p).run? id = c.run? id := rfl
    simp only [happen?, stepMonitor?, same]
    cases c.run? id with
    | none => rfl
    | some run =>
      simp only [Option.bind_eq_bind, Option.bind_some]
      cases run.monitor with
      | joining => cases run.worker <;> rfl
      | reporting => cases run.worker <;> rfl
      | clearing =>
        simp only [atPoint_control, locks]
        cases c.control.locksMark with
        | true => rfl
        | false =>
          simp only [Bool.false_eq_true, if_false, atPoint_active, Option.map_some]
          split <;> rfl
      | showing =>
        simp only [show', atPoint_transport, Option.map_some]
        split <;> rfl
      | telling =>
        simp only [tell, atPoint_hasListener, Option.map_some]
        split <;> rfl
      | _ => rfl
  | arena call => rfl
  | files files => rfl
  | _ => cases others

/-- Only the control thread moves the control thread. -/
theorem Happens.control_of_others {event : Event} (happens : Happens kind here c event d)
    (others : event.isOthers = true) : d.control = c.control := by
  cases happens with
  | works _ _ step => cases step <;> rfl
  | tidies _ step => cases step <;> rfl
  | roams _ _ step => cases step <;> rfl
  | arena => rfl
  | files => rfl
  | _ => cases others

/-- A start that is rejected might as well not have been made: all that happened meanwhile happens
without it, and leads to the same state. -/
theorem Reaches.of_rejected (idle : c.idle = true)
    (path : Reaches kind here (fun _ event => event.isDuring = true) (c.begin .start) d)
    (rejected : d.control = .answered .rejected) :
    ∃ e, Reaches kind here (fun _ event => event.isOthers = true) c e ∧
      d = e.atPoint (.answered .rejected) := by
  have unlocked : c.control.locksMark = false :=
    of_idle (f := ControlPoint.locksMark) idle (fun _ => rfl) fun _ => rfl
  -- As long as the start was not admitted, it has changed nothing but where the control thread is.
  have traced : d.control.admitted = true ∨ ∃ e p, (p = .admitting ∨ p = .answered .rejected) ∧
      Reaches kind here (fun _ event => event.isOthers = true) c e ∧ e.control.locksMark = false ∧
      d = e.atPoint p := by
    clear rejected
    induction path with
    | refl => exact .inr ⟨c, .admitting, .inl rfl, .refl c, unlocked, rfl⟩
    | @tail d d' event _ during happened ih =>
      rcases Event.cases_of_isDuring during with rfl | ⟨cause, rfl⟩ | others
      · cases happened
        rcases ih with admitted | ⟨e, p, rfl | rfl, past, unlocked, rfl⟩
        · exact .inl ((controls_stepControl kind here d).admitted admitted)
        · by_cases free : e.guard = 0
          · left
            simp [stepControl, free, ControlPoint.admitted, ControlPoint.starting,
              ControlPoint.holdsGuard]
          · exact .inr ⟨e, .answered .rejected, .inr rfl, past, unlocked, by
              simp [stepControl, free, atPoint]⟩
        · exact .inr ⟨e, .answered .rejected, .inr rfl, past, unlocked, rfl⟩
      · obtain ⟨run, _, role, strays, -, rfl⟩ := refuse?_cases happened
        exact .inl rfl
      · rcases ih with admitted | ⟨e, p, isHere, past, unlocked, rfl⟩
        · left
          rw [(happens_of_happen? happened).control_of_others others]
          exact admitted
        · have locks : p.locksMark = e.control.locksMark := by
            rw [unlocked]
            rcases isHere with rfl | rfl <;> rfl
          rw [happen?_atPoint others locks] at happened
          obtain ⟨e', happened', rfl⟩ := Option.map_eq_some_iff.mp happened
          have same := (happens_of_happen? happened').control_of_others others
          exact .inr ⟨e', p, isHere, past.tail others happened', same ▸ unlocked, rfl⟩
  rcases traced with admitted | ⟨e, p, -, past, -, rfl⟩
  · rw [rejected] at admitted
    simp [ControlPoint.admitted] at admitted
  · exact ⟨e, past, by rw [← rejected]; rfl⟩

/-! ### One session -/

/-- Whether the threads of a run with a number can do no more than announce and deliver its report: its
worker has ended, its context has been disposed of, and the transport shows its end. -/
def Quiet (kind : ArtifactKind α) (here : Location) (c : Controller α) (id : Nat) : Prop :=
  c.happen? kind here (.worker id) = none ∧
    ∀ d, c.happen? kind here (.monitor id) = some d → ∃ runs announcements delivered, d = { c with
      runs := runs, announcements := announcements, delivered := delivered }

/-- What the guard is for. -/
structure OneSession (kind : ArtifactKind α) (here : Location) (c : Controller α) : Prop where
  guard : c.guard = 0 ∨ c.guard = 1
  workers : ∀ r ∈ c.runs, ∀ s ∈ c.runs, r.worker = .running → s.worker = .running → r = s
  /-- As long as a start is under way that was admitted, all runs but the one that it launches are
  quiet. -/
  starts : c.control.starting = true →
    ∀ id, (∀ worker, c.control.spawns? ≠ some (id, worker)) → c.Quiet kind here id
  /-- As long as a session is on, all runs but its own are quiet. -/
  apart : ∀ r ∈ c.runs, ¬r.isOver → ∀ id, id ≠ r.id → c.Quiet kind here id
  /-- Whatever happens during a start that is rejected can happen without it, with the same
  result. -/
  rejects : c.idle = true → ∀ d,
    Reaches kind here (fun _ event => event.isDuring = true) (c.begin .start) d →
    d.control = .answered .rejected →
    ∃ e, Reaches kind here (fun _ event => event.isOthers = true) c e ∧
      d = e.atPoint (.answered .rejected)
  /-- Activity is shown for a session that is on, or for one that is just being forsaken. -/
  shown : c.transport = .running → c.guard = 1 ∧
    (c.control.forsakes = true ∨ ∃ r ∈ c.runs, ¬r.isOver)

/-- If all runs with a number are over, they are quiet. -/
theorem Sound.quiet (sound : c.Sound) (spent : ∀ r ∈ c.runs, r.id = id → r.isOver) :
    c.Quiet kind here id := by
  refine ⟨?_, fun d happened => ?_⟩
  · by_contra acts
    obtain ⟨d, happened⟩ := Option.ne_none_iff_exists'.mp acts
    obtain ⟨r, hr, same, running, -⟩ := works_of_stepWorker? happened
    exact sound.admitted.present hr running (spent r hr same)
  · obtain ⟨r, hr, same, step⟩ := tidies_of_stepMonitor? happened
    exact step.of_over (spent r hr same)

/-- Sessions do not overlap, whatever calls are made, however the threads take turns, and whoever
else works on the arena and the files. -/
theorem one_session {allows : Controller α → Event → Prop} {settings : RunSettings}
    {hasListener : Bool} {arena : Arena} {files : FileTree}
    (path : Reaches kind here allows (fresh settings hasListener arena files) c) :
    c.OneSession kind here := by
  have sound := path.sound (.fresh ..)
  have admitted := sound.admitted
  refine ⟨?_, fun r hr s hs rRuns sRuns => ?_, fun starting id other => ?_,
    fun r hr present id other => ?_, fun idle d => Reaches.of_rejected idle, fun shown => ?_⟩
  · have := admitted.single
    omega
  · exact sound.numbered.eq_of_id hr hs
      (admitted.unique r hr s hs (admitted.present hr rRuns) (admitted.present hs sRuns))
  · exact sound.quiet fun r hr same =>
      admitted.over_of_starting starting hr fun worker => same ▸ other worker
  · refine sound.quiet fun s hs same => ?_
    by_contra isOn
    exact other (same ▸ admitted.unique s hs r hr isOn present)
  · rcases admitted.shown shown with forsakes | ⟨r, hr, low⟩
    · exact ⟨(admitted.control (ControlPoint.holdsGuard_of_forsakes forsakes)).1, .inl forsakes⟩
    · have present : ¬r.isOver := by
        rw [Run.isOver]
        omega
      exact ⟨admitted.runs r hr present, .inr ⟨r, hr, present⟩⟩

end Controller

/-! ### A rehearsed session -/

namespace Rehearsal

/-- An executable in the stage, and a scratch directory. -/
def stageFiles : FileTree :=
  ⟨[(["c"], .directory), (["s"], .directory),
    (["c", "a"], .file (Bytes.ofString "x") .program)]⟩

/-- An arena whose stage is the directory of the executable. -/
def stageArena : Arena := .fresh [] ⟨"/c"⟩ ⟨"/s"⟩

def staged : Descriptor :=
  { source := ⟨"/m"⟩, artifact := ⟨"/c/a"⟩, package := "", fingerprint := default }

/-- A controller before its first call. -/
def seated : Controller Artifact := .fresh {} true stageArena stageFiles

/-- A rehearsal that prints a line and changes a property twice. -/
def twice : ArtifactKind Artifact :=
  unattended [.print "x", .change ⟨"p", "0", "1"⟩, .change ⟨"p", "1", "2"⟩]

open Controller.Event in
/-- The executable is prepared and started, and the run begins. -/
def opening : List Controller.Event :=
  call (.prepare staged) :: List.replicate 7 control ++
    call .start :: List.replicate 7 control ++ [worker 1]

end Rehearsal

open Rehearsal in
/-- While the rehearsed run is on, another start is answered. -/
theorem Controller.one_session_rehearsed : ∃ c : Controller Artifact,
    Reaches twice [] (fun _ _ => True) seated c ∧ c.idle = true ∧ c.transport = .running ∧
      c.OneSession twice [] := by
  have busy : ((seated.after? twice [] (opening ++ [.call .start, .control])).any fun c =>
      c.idle && c.transport == .running) = true := by decide +kernel
  obtain ⟨c, happened, facts⟩ := (Option.any_eq_true _ _).mp busy
  rw [Bool.and_eq_true, beq_iff_eq] at facts
  have path : Reaches twice [] (fun _ _ => True) seated c :=
    reaches_of_after? (fun _ _ _ => trivial) happened
  exact ⟨c, path, facts.1, facts.2, one_session path⟩

/-- Whether a worker is at work. -/
def WorkerPoint.isRunning : WorkerPoint → Bool
  | running => true
  | _ => false

theorem WorkerPoint.isRunning_iff {w : WorkerPoint} : w.isRunning = true ↔ w = running := by
  cases w <;> simp [isRunning]

open Controller.Event in
/-- A start is refused the thread of the monitor, the executable is started again, and both workers take
a step. -/
def Rehearsal.deserted : List Controller.Event :=
  call (.prepare staged) :: List.replicate 7 control ++
    call .start :: List.replicate 6 control ++ refusal "no thread" :: List.replicate 5 control ++
    call .start :: List.replicate 14 control ++ [stray 1, worker 2]

open Rehearsal in
/-- The system refuses a start the thread of the monitor, and the executable is started again: the
worker that was forsaken and the worker of the new run go on beside each other. -/
theorem Controller.strays_beside : ∃ c : Controller Artifact,
    Reaches twice [] (fun _ _ => True) seated c ∧ c.control = .answered (.started 2) ∧
      ∃ stray ∈ c.strays, ∃ run ∈ c.runs, stray.id ≠ run.id ∧
        stray.worker = .running ∧ run.worker = .running := by
  have beside : ((seated.after? twice [] deserted).any fun c =>
      c.control.answer? == some (.started 2) && c.strays.any fun stray => c.runs.any fun run =>
        stray.id != run.id && stray.worker.isRunning && run.worker.isRunning) = true := by
    decide +kernel
  obtain ⟨c, happened, facts⟩ := (Option.any_eq_true _ _).mp beside
  rw [Bool.and_eq_true, beq_iff_eq, ControlPoint.answer?_eq_some, List.any_eq_true] at facts
  obtain ⟨started, stray, isStray, facts⟩ := facts
  obtain ⟨run, isRun, facts⟩ := List.any_eq_true.mp facts
  simp only [Bool.and_eq_true, bne_iff_ne, WorkerPoint.isRunning_iff] at facts
  exact ⟨c, reaches_of_after? (fun _ _ _ => trivial) happened, started, stray, isStray, run, isRun,
    facts.1.1, facts.1.2, facts.2⟩

end SimWorkbench
