import SimWorkbench.Proofs.Control.Numbering

/-!
# One session at a time

The guard is raised by a start and given back by the monitor of the run, or by the start itself when
it fails. So it is one as long as a start is under way or a run is not over, and it is never more. A
run that is forsaken has no session any more.
-/
namespace SimWorkbench

variable {α : Type}

namespace ControlPoint

/-- Whether the control thread has raised the guard and not yet launched a run. -/
def holdsGuard : ControlPoint α → Bool
  | taking | launching _ | unmarking .. | forsaking .. | yielding _ | givingBack _ => true
  | discarding _ starting | resolving _ starting | loading _ starting _ _ _
  | abandoning starting _ _ | binding _ starting _ _ _ | entering _ starting _ => starting
  | showing _ next | telling _ next => next.holdsGuard
  | _ => false

@[simp] theorem holdsGuard_afterFault (starting : Bool) (fault : ControlFault) :
    (Controller.afterFault starting fault : ControlPoint α).holdsGuard = starting := by
  cases starting <;> rfl

/-- The run whose threads the control thread is about to make; the flag says that the worker is
still to be made. -/
def spawns? : ControlPoint α → Option (Nat × Bool)
  | spawningWorker id => some (id, true)
  | spawningMonitor id => some (id, false)
  | showing _ next | telling _ next => next.spawns?
  | _ => none

@[simp] theorem spawns?_afterFault (starting : Bool) (fault : ControlFault) :
    (Controller.afterFault starting fault : ControlPoint α).spawns? = none := by
  cases starting <;> rfl

/-- The answer that the last call was given. -/
def answer? : ControlPoint α → Option Answer
  | answered answer => some answer
  | _ => none

theorem answer?_eq_some {p : ControlPoint α} {answer : Answer} :
    p.answer? = some answer ↔ p = .answered answer := by
  cases p <;> simp [answer?]

/-- Whether the control thread has forsaken a run and may not have shown that yet. -/
def forsakes : ControlPoint α → Bool
  | unmarking .. | forsaking .. | showing .stopped (yielding _) => true
  | _ => false

theorem holdsGuard_of_forsakes {p : ControlPoint α} (forsakes : p.forsakes = true) :
    p.holdsGuard = true := by
  unfold ControlPoint.forsakes at forsakes
  split at forsakes
  · rfl
  · rfl
  · rfl
  · cases forsakes

theorem stopped_of_forsakes {state : Transport} {next : ControlPoint α}
    (forsakes : (showing state next).forsakes = true) : state = .stopped := by
  unfold ControlPoint.forsakes at forsakes
  split at forsakes
  · rename_i same
    cases same
  · rename_i same
    cases same
  · rename_i same
    cases same
    rfl
  · cases forsakes

/-- Whether activity is shown only for a run that was launched. -/
def Truthful : ControlPoint α → Prop
  | showing state next => (state = .running → next.spawns? ≠ none) ∧ next.Truthful
  | telling _ next => next.Truthful
  | _ => True

@[simp] theorem truthful_afterFault (starting : Bool) (fault : ControlFault) :
    (Controller.afterFault starting fault : ControlPoint α).Truthful := by
  cases starting <;> exact trivial

end ControlPoint

namespace Run

/-- Whether the session of a run is over: its worker has ended, its context is gone, the transport
shows its end, and the guard has been given back. -/
def isOver (r : Run α) : Prop := 12 ≤ r.monitor.rank

/-- The monitor goes beyond waiting only after the worker, and is not made before it. -/
structure Orderly (r : Run α) : Prop where
  ended : 2 ≤ r.monitor.rank → ∃ outcome report, r.worker = .ended outcome report
  born : r.worker = .unborn → r.monitor = .unborn

theorem not_over_of_unborn {r : Run α} (unborn : r.monitor = .unborn) : ¬r.isOver := by
  simp [isOver, unborn, MonitorPoint.rank]

/-- The threads of a run move, and its session does not end by that. -/
structure Moves (r s : Run α) : Prop where
  id : s.id = r.id
  spent : s.isOver ↔ r.isOver
  orderly : s.Orderly

/-- The threads are made, or stay unmade. -/
structure Stays (r s : Run α) : Prop where
  monitor : s.monitor = .unborn ↔ r.monitor = .unborn
  worker : s.worker = .unborn ↔ r.worker = .unborn

theorem Orderly.moves {r s : Run α} (orderly : r.Orderly) (id : s.id = r.id)
    (worker : s.worker = r.worker) (monitor : s.monitor = r.monitor) : r.Moves s where
  id := id
  spent := by rw [isOver, isOver, monitor]
  orderly := ⟨worker ▸ monitor ▸ orderly.ended, worker ▸ monitor ▸ orderly.born⟩

theorem Stays.of_same {r s : Run α} (worker : s.worker = r.worker)
    (monitor : s.monitor = r.monitor) : r.Stays s :=
  ⟨by rw [monitor], by rw [worker]⟩

end Run

namespace Controller

variable {kind : ArtifactKind α} {here : Location} {c d : Controller α} {id : Nat} {run : Run α}

/-- What holds of the guard and of the threads between two events. -/
structure Admitted (c : Controller α) : Prop where
  single : c.guard ≤ 1
  control : c.control.holdsGuard = true → c.guard = 1 ∧ ∀ r ∈ c.runs, r.isOver
  runs : ∀ r ∈ c.runs, ¬r.isOver → c.guard = 1
  unique : ∀ r ∈ c.runs, ∀ s ∈ c.runs, ¬r.isOver → ¬s.isOver → r.id = s.id
  held : c.guard = 1 → c.control.holdsGuard = true ∨ ∃ r ∈ c.runs, ¬r.isOver
  orderly : ∀ r ∈ c.runs, r.Orderly
  spawning : ∀ id worker, c.control.spawns? = some (id, worker) →
    ∃ r ∈ c.runs, r.id = id ∧ r.monitor = .unborn ∧ (worker = true ↔ r.worker = .unborn)
  unborn : ∀ r ∈ c.runs, r.monitor = .unborn → ∃ worker, c.control.spawns? = some (r.id, worker)
  /-- Activity is shown for a run whose monitor has not ended that, or for one that has just been
  forsaken. -/
  shown : c.transport = .running → c.control.forsakes = true ∨ ∃ r ∈ c.runs, r.monitor.rank ≤ 9
  truthful : c.control.Truthful

theorem Admitted.fresh (settings : RunSettings) (hasListener : Bool) (arena : Arena)
    (files : FileTree) : (fresh settings hasListener arena files : Controller α).Admitted := by
  constructor <;> simp [Controller.fresh, ControlPoint.holdsGuard, ControlPoint.spawns?,
    ControlPoint.Truthful]

/-- The threads of one run move, or of none; about the making of threads there is more to show. -/
theorem Admitted.moves {f : Run α → Run α} (admitted : c.Admitted)
    (runs : d.runs = changed id f c.runs) (moves : ∀ r ∈ c.runs, r.id = id → r.Moves (f r))
    (guard : d.guard = c.guard) (holds : d.control.holdsGuard = c.control.holdsGuard)
    (spawning : ∀ id worker, d.control.spawns? = some (id, worker) →
      ∃ r ∈ d.runs, r.id = id ∧ r.monitor = .unborn ∧ (worker = true ↔ r.worker = .unborn))
    (unborn : ∀ r ∈ d.runs, r.monitor = .unborn → ∃ worker, d.control.spawns? = some (r.id, worker))
    (truthful : d.control.Truthful)
    (shown : d.transport = .running → c.transport = .running ∧
      (c.control.forsakes = true → d.control.forsakes = true) ∧
      ∀ r ∈ c.runs, r.id = id → r.monitor.rank ≤ 9 → (f r).monitor.rank ≤ 9) : d.Admitted := by
  have back : ∀ s ∈ d.runs, ∃ r ∈ c.runs, r.Moves s := fun s hs => by
    rw [runs, mem_changed] at hs
    rcases hs with ⟨hs, -⟩ | ⟨r, hr, same, rfl⟩
    · exact ⟨s, hs, (admitted.orderly s hs).moves rfl rfl rfl⟩
    · exact ⟨r, hr, moves r hr same⟩
  have forth : ∀ r ∈ c.runs, ∃ s ∈ d.runs, r.Moves s ∧
      (d.transport = .running → r.monitor.rank ≤ 9 → s.monitor.rank ≤ 9) := fun r hr => by
    rw [runs]
    by_cases isOwn : r.id = id
    · exact ⟨f r, mem_changed.mpr (.inr ⟨r, hr, isOwn, rfl⟩), moves r hr isOwn,
        fun h => (shown h).2.2 r hr isOwn⟩
    · exact ⟨r, mem_changed.mpr (.inl ⟨hr, isOwn⟩), (admitted.orderly r hr).moves rfl rfl rfl,
        fun _ low => low⟩
  refine ⟨guard ▸ admitted.single, fun h => ?_, fun r hr present => ?_, fun r hr s hs rOn sOn => ?_,
    fun h => ?_, fun r hr => ?_, spawning, unborn, fun h => ?_, truthful⟩
  · obtain ⟨one, spent⟩ := admitted.control (holds ▸ h)
    refine ⟨guard ▸ one, fun s hs => ?_⟩
    obtain ⟨r, hr, move⟩ := back s hs
    exact move.spent.mpr (spent r hr)
  · obtain ⟨s, hs, move⟩ := back r hr
    exact guard ▸ admitted.runs s hs fun spent => present (move.spent.mpr spent)
  · obtain ⟨r', hr', rMove⟩ := back r hr
    obtain ⟨s', hs', sMove⟩ := back s hs
    rw [rMove.id, sMove.id]
    exact admitted.unique r' hr' s' hs' (fun spent => rOn (rMove.spent.mpr spent))
      fun spent => sOn (sMove.spent.mpr spent)
  · rcases admitted.held (guard ▸ h) with holding | ⟨r, hr, present⟩
    · exact .inl (holds ▸ holding)
    · obtain ⟨s, hs, move, -⟩ := forth r hr
      exact .inr ⟨s, hs, fun spent => present (move.spent.mp spent)⟩
  · obtain ⟨s, hs, move⟩ := back r hr
    exact move.orderly
  · rcases admitted.shown (shown h).1 with forsakes | ⟨r, hr, low⟩
    · exact .inl ((shown h).2.1 forsakes)
    · obtain ⟨s, hs, -, keeps⟩ := forth r hr
      exact .inr ⟨s, hs, keeps h low⟩

/-- The threads of one run move, and none is made. -/
theorem Admitted.goesOn {f : Run α → Run α} (admitted : c.Admitted)
    (runs : d.runs = changed id f c.runs)
    (moves : ∀ r ∈ c.runs, r.id = id → r.Moves (f r) ∧ r.Stays (f r)) (guard : d.guard = c.guard)
    (holds : d.control.holdsGuard = c.control.holdsGuard)
    (spawns : d.control.spawns? = c.control.spawns?) (truthful : d.control.Truthful)
    (shown : d.transport = .running → c.transport = .running ∧
      (c.control.forsakes = true → d.control.forsakes = true) ∧
      ∀ r ∈ c.runs, r.id = id → r.monitor.rank ≤ 9 → (f r).monitor.rank ≤ 9) : d.Admitted := by
  refine admitted.moves runs (fun r hr same => (moves r hr same).1) guard holds (fun i worker h => ?_)
    (fun s hs unborn => ?_) truthful shown
  · obtain ⟨r, hr, rfl, unborn, point⟩ := admitted.spawning i worker (spawns ▸ h)
    rw [runs]
    by_cases isOwn : r.id = id
    · have stays := (moves r hr isOwn).2
      exact ⟨f r, mem_changed.mpr (.inr ⟨r, hr, isOwn, rfl⟩), (moves r hr isOwn).1.id,
        stays.monitor.mpr unborn, point.trans stays.worker.symm⟩
    · exact ⟨r, mem_changed.mpr (.inl ⟨hr, isOwn⟩), rfl, unborn, point⟩
  · rw [runs, mem_changed] at hs
    rw [spawns]
    rcases hs with ⟨hs, -⟩ | ⟨r, hr, same, rfl⟩
    · exact admitted.unborn s hs unborn
    · rw [(moves r hr same).1.id]
      exact admitted.unborn r hr ((moves r hr same).2.monitor.mp unborn)

/-- What the guard and the threads do not depend on may change. -/
theorem Admitted.frame (admitted : c.Admitted) (runs : d.runs = c.runs) (guard : d.guard = c.guard)
    (holds : d.control.holdsGuard = c.control.holdsGuard)
    (spawns : d.control.spawns? = c.control.spawns?) (truthful : d.control.Truthful)
    (shown : d.transport = .running → c.transport = .running ∧
      (c.control.forsakes = true → d.control.forsakes = true)) : d.Admitted :=
  admitted.goesOn (runs.trans (changed_id 0 c.runs).symm)
    (fun r hr _ => ⟨(admitted.orderly r hr).moves rfl rfl rfl, .of_same rfl rfl⟩) guard holds spawns
    truthful fun h => ⟨(shown h).1, (shown h).2, fun _ _ _ low => low⟩

/-- A step of the control thread from where it has forsaken no run. -/
theorem Admitted.steps (admitted : c.Admitted) (runs : d.runs = c.runs) (guard : d.guard = c.guard)
    (holds : d.control.holdsGuard = c.control.holdsGuard)
    (spawns : d.control.spawns? = c.control.spawns?) (truthful : d.control.Truthful)
    (transport : d.transport = c.transport) (stays : c.control.forsakes = false) : d.Admitted :=
  admitted.frame runs guard holds spawns truthful fun h =>
    ⟨transport.symm.trans h, fun forsakes => by cases stays.symm.trans forsakes⟩

theorem Admitted.spent (admitted : c.Admitted) (free : c.guard ≠ 1) : ∀ r ∈ c.runs, r.isOver := by
  intro r hr
  by_contra present
  exact free (admitted.runs r hr present)

/-- The monitor of a run waits as long as the worker runs. -/
theorem Admitted.waits (admitted : c.Admitted) (member : run ∈ c.runs)
    (running : run.worker = .running) : run.monitor.rank ≤ 1 := by
  by_contra high
  obtain ⟨outcome, report, ended⟩ := (admitted.orderly run member).ended (by omega)
  rw [running] at ended
  cases ended

/-- The session of a run whose worker runs is on. -/
theorem Admitted.present (admitted : c.Admitted) (member : run ∈ c.runs)
    (running : run.worker = .running) : ¬run.isOver := by
  have := admitted.waits member running
  rw [Run.isOver]
  omega

/-- A start is admitted. -/
theorem Admitted.admits (admitted : c.Admitted) (point : c.control = .admitting)
    (free : c.guard = 0) : (atPoint { c with guard := 1 } .taking).Admitted := by
  have spent := admitted.spent (by omega)
  exact {
    single := Nat.le_refl 1
    control := fun _ => ⟨rfl, spent⟩
    runs := fun _ _ _ => rfl
    unique := fun r hr _ _ present => absurd (spent r hr) present
    held := fun _ => .inl rfl
    orderly := admitted.orderly
    spawning := by simp [ControlPoint.spawns?]
    unborn := fun r hr unborn => absurd (spent r hr) (Run.not_over_of_unborn unborn)
    shown := fun h => .inr ((admitted.shown h).resolve_left (by simp [point, ControlPoint.forsakes]))
    truthful := trivial }

/-- A start that was admitted has failed; its answer tells why. -/
theorem Admitted.givesBack {answer : ControlPoint α} (admitted : c.Admitted)
    (holds : c.control.holdsGuard = true) (stays : c.control.forsakes = false)
    (idle : answer.holdsGuard = false ∧ answer.spawns? = none ∧ answer.Truthful) :
    (atPoint { c with guard := c.guard - 1 } answer).Admitted := by
  obtain ⟨one, spent⟩ := admitted.control holds
  obtain ⟨free, spawns, truthful⟩ := idle
  exact {
    single := by simp [one]
    control := by simp [free]
    runs := fun r hr present => absurd (spent r hr) present
    unique := fun r hr _ _ present => absurd (spent r hr) present
    held := by simp [one]
    orderly := admitted.orderly
    spawning := by simp [spawns]
    unborn := fun r hr unborn => absurd (spent r hr) (Run.not_over_of_unborn unborn)
    shown := fun h => .inr ((admitted.shown h).resolve_left (by simp [stays]))
    truthful := truthful }

/-- A run is launched; from now on it holds the guard. -/
theorem Admitted.launches (admitted : c.Admitted) (point : c.control = .launching run)
    (new : run.IsNew) :
    (atPoint { c with active := some (run.id, run.context), runs := c.runs ++ [run] }
      (.showing .running (.spawningWorker run.id))).Admitted := by
  obtain ⟨one, spent⟩ := admitted.control (by rw [point]; rfl)
  have present := Run.not_over_of_unborn new.monitor
  have last : ∀ r ∈ c.runs ++ [run], ¬r.isOver → r = run := fun r hr isOn => by
    rcases List.mem_append.mp hr with hr | hr
    · exact absurd (spent r hr) isOn
    · exact List.mem_singleton.mp hr
  have isLast : run ∈ c.runs ++ [run] := by simp
  refine ⟨admitted.single, by simp [ControlPoint.holdsGuard], fun _ _ _ => one, ?_,
    fun _ => .inr ⟨run, isLast, present⟩, ?_, ?_, ?_, fun _ => .inr ⟨run, isLast, ?_⟩, ?_⟩
  · intro r hr s hs rOn sOn
    rw [last r hr rOn, last s hs sOn]
  · intro r hr
    rcases List.mem_append.mp hr with hr | hr
    · exact admitted.orderly r hr
    · rw [List.mem_singleton.mp hr]
      exact ⟨by simp [new.monitor, MonitorPoint.rank], fun _ => new.monitor⟩
  · rintro id worker ⟨⟩
    exact ⟨run, isLast, rfl, new.monitor, by simp [new.worker]⟩
  · intro r hr unborn
    rw [last r hr (Run.not_over_of_unborn unborn)]
    exact ⟨true, rfl⟩
  · simp [new.monitor, MonitorPoint.rank]
  · exact ⟨fun _ => by simp [ControlPoint.spawns?], trivial⟩

theorem Admitted.spawnsWorker (admitted : c.Admitted) (numbered : c.Numbered)
    (point : c.control = .spawningWorker id) :
    ((c.modifyRun id fun r => { r with worker := .running }).atPoint
      (.spawningMonitor id)).Admitted := by
  obtain ⟨run, member, rfl, unborn, -⟩ := admitted.spawning id true (by rw [point]; rfl)
  have own : ∀ r ∈ c.runs, r.id = run.id → r = run := fun r hr => numbered.eq_of_id hr member
  refine admitted.moves rfl (fun r hr same => ?_) rfl (by simp [point, ControlPoint.holdsGuard]) ?_ ?_
    trivial fun h => ⟨h, by simp [point, ControlPoint.forsakes], fun _ _ _ low => low⟩
  · obtain rfl := own r hr same
    exact ⟨rfl, Iff.rfl, by simp [unborn, MonitorPoint.rank], by simp⟩
  · rintro _ _ ⟨⟩
    exact ⟨_, mem_changed.mpr (.inr ⟨run, member, rfl, rfl⟩), rfl, unborn, by simp⟩
  · intro s hs isUnborn
    rcases mem_changed.mp hs with ⟨hs, other⟩ | ⟨r, hr, same, rfl⟩
    · obtain ⟨worker, spawns⟩ := admitted.unborn s hs isUnborn
      simp only [point, ControlPoint.spawns?, Option.some.injEq, Prod.mk.injEq] at spawns
      exact absurd spawns.1.symm other
    · exact ⟨false, by simp [ControlPoint.spawns?, same]⟩

theorem Admitted.spawnsMonitor (admitted : c.Admitted) (numbered : c.Numbered)
    (point : c.control = .spawningMonitor id) :
    ((c.modifyRun id fun r => { r with monitor := .joining }).atPoint
      (.answered (.started id))).Admitted := by
  obtain ⟨run, member, rfl, unborn, born⟩ := admitted.spawning id false (by rw [point]; rfl)
  have own : ∀ r ∈ c.runs, r.id = run.id → r = run := fun r hr => numbered.eq_of_id hr member
  refine admitted.moves rfl (fun r hr same => ?_) rfl (by simp [point, ControlPoint.holdsGuard])
    (by simp [ControlPoint.spawns?]) ?_ trivial fun h =>
      ⟨h, by simp [point, ControlPoint.forsakes], by simp [MonitorPoint.rank]⟩
  · obtain rfl := own r hr same
    exact ⟨rfl, by simp [Run.isOver, unborn, MonitorPoint.rank], by simp [MonitorPoint.rank],
      by simpa using born⟩
  · intro s hs isUnborn
    rcases mem_changed.mp hs with ⟨hs, other⟩ | ⟨r, hr, same, rfl⟩
    · obtain ⟨worker, spawns⟩ := admitted.unborn s hs isUnborn
      simp only [point, ControlPoint.spawns?, Option.some.injEq, Prod.mk.injEq] at spawns
      exact absurd spawns.1.symm other
    · cases isUnborn

/-- The transport shows another state; activity only for a run that was launched. -/
theorem Admitted.shows {state : Transport} {next : ControlPoint α} (admitted : c.Admitted)
    (point : c.control = .showing state next) :
    (atPoint { c with transport := state } (.telling state next)).Admitted := by
  have truthful := admitted.truthful
  rw [point] at truthful
  have held := admitted.held
  have unborn := admitted.unborn
  rw [point] at held unborn
  refine ⟨admitted.single, fun h => admitted.control (by rw [point]; exact h), admitted.runs,
    admitted.unique, held, admitted.orderly, fun id worker h => ?_, unborn, fun h => ?_, truthful.2⟩
  · exact admitted.spawning id worker (by rw [point]; exact h)
  · cases h
    obtain ⟨⟨id, worker⟩, spawns⟩ := Option.ne_none_iff_exists'.mp (truthful.1 rfl)
    obtain ⟨r, hr, -, unborn, -⟩ := admitted.spawning id worker (by rw [point]; exact spawns)
    exact .inr ⟨r, hr, by simp [unborn, MonitorPoint.rank]⟩

/-- A run that was to get a thread is forsaken; it was the only one whose session was on. -/
theorem Admitted.forsaken {worker : Bool} {strays : List (Run α)} {fault : ThreadFault}
    (admitted : c.Admitted) (spawns : c.control.spawns? = some (run.id, worker)) :
    (c.forsaken run strays fault).Admitted := by
  obtain ⟨r, hr, same, unborn, -⟩ := admitted.spawning _ _ spawns
  have present : ¬r.isOver := Run.not_over_of_unborn unborn
  have one := admitted.runs r hr present
  have spent : ∀ s ∈ without run.id c.runs, s.isOver := fun s hs => by
    obtain ⟨hs, other⟩ := mem_without.mp hs
    by_contra isOn
    exact other ((admitted.unique s hs r hr isOn present).trans same)
  exact {
    single := admitted.single
    control := fun _ => ⟨one, spent⟩
    runs := fun s hs isOn => absurd (spent s hs) isOn
    unique := fun s hs _ _ isOn => absurd (spent s hs) isOn
    held := fun _ => .inl rfl
    orderly := fun s hs => admitted.orderly s (mem_without.mp hs).1
    spawning := by simp [ControlPoint.spawns?]
    unborn := fun s hs unborn => absurd (spent s hs) (Run.not_over_of_unborn unborn)
    shown := fun _ => .inl rfl
    truthful := trivial }

theorem Admitted.controls (admitted : c.Admitted) (numbered : c.Numbered)
    (unstarted : c.Unstarted) (step : Controls kind here c d) : d.Admitted := by
  have truthful := admitted.truthful
  cases step with
  | waits => exact admitted
  | admits point free => exact admitted.admits point free
  | givesBack point | yields point =>
    exact admitted.givesBack (by rw [point]; rfl) (by rw [point]; rfl) ⟨rfl, rfl, trivial⟩
  | launches point => exact admitted.launches point (unstarted.inHand _ (by rw [point]; rfl))
  | spawnsWorker point => exact admitted.spawnsWorker numbered point
  | spawnsMonitor point => exact admitted.spawnsMonitor numbered point
  | shows point => exact admitted.shows point
  | asksToStop point | turnsStepping point =>
    exact admitted.goesOn rfl
      (fun r hr _ => ⟨(admitted.orderly r hr).moves rfl rfl rfl, .of_same rfl rfl⟩) rfl
      (by rw [point]; rfl) (by rw [point]; rfl) trivial
      fun h => ⟨h, by simp [point, ControlPoint.forsakes], fun _ _ _ low => low⟩
  | advances point =>
    exact admitted.goesOn rfl
      (fun r hr _ => ⟨(admitted.orderly r hr).moves rfl rfl rfl, .of_same rfl rfl⟩) rfl
      (by rw [point]; rfl) (by rw [point]; rfl) ⟨(nomatch ·), trivial⟩
      fun h => ⟨h, by simp [point, ControlPoint.forsakes], fun _ _ _ low => low⟩
  | misses point | abandons point =>
    exact admitted.steps rfl rfl (by rw [point]; exact ControlPoint.holdsGuard_afterFault ..)
      (by rw [point]; exact ControlPoint.spawns?_afterFault ..)
      (ControlPoint.truthful_afterFault ..) rfl (by rw [point]; rfl)
  | passes point isShown =>
    rw [point] at truthful
    refine admitted.frame rfl rfl (by rw [point]; rfl) (by rw [point]; rfl) truthful.2
      fun h => ⟨h, fun forsakes => ?_⟩
    rw [point] at forsakes
    cases isShown.symm.trans h
    cases ControlPoint.stopped_of_forsakes forsakes
  | tells point =>
    rw [point] at truthful
    exact admitted.steps rfl rfl (by rw [point]; rfl) (by rw [point]; rfl) truthful rfl
      (by rw [point]; rfl)
  | unmarks point =>
    exact admitted.frame rfl rfl (by rw [point]; rfl) (by rw [point]; rfl) trivial
      fun h => ⟨h, fun _ => rfl⟩
  | forsakes point =>
    exact admitted.frame rfl rfl (by rw [point]; rfl) (by rw [point]; rfl) ⟨(nomatch ·), trivial⟩
      fun h => ⟨h, fun _ => rfl⟩
  | entersToStart point | prepares point | restores point | setsStepping point
  | stepsNothing point =>
    exact admitted.steps rfl rfl (by rw [point]; rfl) (by rw [point]; rfl) ⟨(nomatch ·), trivial⟩ rfl
      (by rw [point]; rfl)
  | refuses point | asks point | discards point | numbers point | resolves point | failsToLoad point
  | loads point | binds point | rejects point | takes point | prepareAgain point | lacks point
  | stopsNothing point | silences point | silencesAgain point | silencesNothing point
  | flushes point =>
    exact admitted.steps rfl rfl (by rw [point]; rfl) (by rw [point]; rfl) trivial rfl
      (by rw [point]; rfl)

/-- The monitor of a run goes on to another point, and the session does not end by that. -/
theorem Admitted.monitors {point : MonitorPoint} {f : Run α → Run α} (admitted : c.Admitted)
    (numbered : c.Numbered) (member : run ∈ c.runs) (runs : d.runs = changed run.id f c.runs)
    (same : (f run).id = run.id ∧ (f run).worker = run.worker ∧ (f run).monitor = point)
    (spent : 12 ≤ point.rank ↔ 12 ≤ run.monitor.rank) (begun : 1 ≤ run.monitor.rank)
    (goesOn : 1 ≤ point.rank) (ended : ∃ outcome report, run.worker = .ended outcome report)
    (guard : d.guard = c.guard) (control : d.control = c.control)
    (shown : d.transport = .running →
      c.transport = .running ∧ (run.monitor.rank ≤ 9 → point.rank ≤ 9)) : d.Admitted := by
  obtain ⟨id, worker, monitor⟩ := same
  have own : ∀ r ∈ c.runs, r.id = run.id → r = run := fun r hr => numbered.eq_of_id hr member
  have born : ∀ p : MonitorPoint, 1 ≤ p.rank → p ≠ .unborn := fun p low is => by
    simp [is, MonitorPoint.rank] at low
  refine admitted.goesOn runs (fun r hr isOwn => ?_) guard (by rw [control]) (by rw [control])
    (control ▸ admitted.truthful)
    fun h => ⟨(shown h).1, by rw [control]; exact fun forsakes => forsakes, fun r hr isOwn => ?_⟩
  · obtain rfl := own r hr isOwn
    obtain ⟨outcome, report, ended⟩ := ended
    refine ⟨⟨id, by rw [Run.isOver, monitor, spent, Run.isOver], fun _ => ⟨outcome, report, ?_⟩, ?_⟩,
      ⟨?_, by rw [worker]⟩⟩
    · rw [worker, ended]
    · rw [worker, ended]
      simp
    · rw [monitor]
      exact iff_of_false (born _ goesOn) (born _ begun)
  · obtain rfl := own r hr isOwn
    rw [monitor]
    exact (shown h).2

/-- The monitor of a run gives the guard back; no other session is on. -/
theorem Admitted.leaves (admitted : c.Admitted) (numbered : c.Numbered) (member : run ∈ c.runs)
    (point : run.monitor = .leaving) :
    (moved { c with guard := c.guard - 1 } run.id .calling).Admitted := by
  have present : ¬run.isOver := by simp [Run.isOver, point, MonitorPoint.rank]
  have one := admitted.runs run member present
  have idle : c.control.holdsGuard = false := by
    by_contra holding
    exact present ((admitted.control (by simpa using holding)).2 run member)
  have own : ∀ r ∈ c.runs, ¬r.isOver → r = run := fun r hr isOn =>
    numbered.eq_of_id hr member (admitted.unique r hr run member isOn present)
  have spent : ∀ s ∈ changed run.id (fun r => { r with monitor := MonitorPoint.calling }) c.runs,
      s.isOver := fun s hs => by
    rcases mem_changed.mp hs with ⟨hs, other⟩ | ⟨r, -, -, rfl⟩
    · by_contra isOn
      exact other (congrArg Run.id (own s hs isOn))
    · simp [Run.isOver, MonitorPoint.rank]
  refine ⟨by simp [one], fun h => absurd h (by simp [idle]), fun s hs isOn => absurd (spent s hs) isOn,
    fun s hs _ _ isOn => absurd (spent s hs) isOn, by simp [one], fun s hs => ?_, fun id worker h => ?_,
    fun s hs unborn => absurd (spent s hs) (Run.not_over_of_unborn unborn), fun h => ?_,
    admitted.truthful⟩
  · rcases mem_changed.mp hs with ⟨hs, -⟩ | ⟨r, hr, same, rfl⟩
    · exact admitted.orderly s hs
    · obtain rfl := numbered.eq_of_id hr member same
      obtain ⟨outcome, report, ended⟩ :=
        (admitted.orderly r hr).ended (by simp [point, MonitorPoint.rank])
      exact ⟨fun _ => ⟨outcome, report, ended⟩, by simp [ended]⟩
  · obtain ⟨r, hr, -, unborn, -⟩ := admitted.spawning id worker h
    obtain rfl := own r hr (Run.not_over_of_unborn unborn)
    rw [unborn] at point
    cases point
  · rcases admitted.shown h with forsakes | ⟨r, hr, low⟩
    · cases idle.symm.trans (ControlPoint.holdsGuard_of_forsakes forsakes)
    · obtain rfl := own r hr (by rw [Run.isOver]; omega)
      simp [point, MonitorPoint.rank] at low

theorem Admitted.tidies (admitted : c.Admitted) (numbered : c.Numbered) (member : run ∈ c.runs)
    (step : Tidies here c run d) : d.Admitted := by
  have ended := (admitted.orderly run member).ended
  cases step with
  | leaves point => exact admitted.leaves numbered member point
  | joins point spent =>
    exact admitted.monitors numbered member rfl ⟨rfl, rfl, rfl⟩ (by simp [point, MonitorPoint.rank])
      (by simp [point, MonitorPoint.rank]) (by simp [MonitorPoint.rank]) ⟨_, _, spent⟩ rfl rfl
      fun h => ⟨h, by simp [MonitorPoint.rank]⟩
  | shows point | looksAway point | passes point | looks point =>
    refine admitted.monitors numbered member rfl ⟨rfl, rfl, rfl⟩
      (by simp [point, MonitorPoint.rank]) (by simp [point, MonitorPoint.rank])
      (by simp [MonitorPoint.rank]) (ended (by simp [point, MonitorPoint.rank])) rfl rfl fun h => ?_
    all_goals simp_all [MonitorPoint.rank, Transport.showsActivity]
  | finishes point | releases point | releasesAgain point | flushes point | disposes point
  | reports point | clears point | clearsNothing point | tells point | calls point
  | delivers point =>
    exact admitted.monitors numbered member rfl ⟨rfl, rfl, rfl⟩
      (by simp [point, MonitorPoint.rank]) (by simp [point, MonitorPoint.rank])
      (by simp [MonitorPoint.rank]) (ended (by simp [point, MonitorPoint.rank])) rfl rfl
      fun h => ⟨h, by simp [point, MonitorPoint.rank]⟩

theorem Admitted.works (admitted : c.Admitted) (numbered : c.Numbered) (member : run ∈ c.runs)
    (running : run.worker = .running) (step : Works kind c run d) : d.Admitted := by
  have waits := admitted.waits member running
  have own : ∀ r ∈ c.runs, r.id = run.id → r = run := fun r hr => numbered.eq_of_id hr member
  have works : ∀ artifact scene (worker : WorkerPoint), worker ≠ .unborn →
      (c.worked run.id artifact scene worker).Admitted := fun artifact scene worker born =>
    admitted.goesOn rfl
      (fun r hr same => by
        obtain rfl := own r hr same
        exact ⟨⟨rfl, Iff.rfl, fun high => absurd (Nat.le_trans high waits) (by decide),
          fun unborn => absurd unborn born⟩, ⟨Iff.rfl, iff_of_false born (by simp [running])⟩⟩)
      rfl rfl rfl admitted.truthful fun h => ⟨h, id, fun _ _ _ low => low⟩
  cases step with
  | went => exact works _ _ _ (by simp)
  | @ended artifact _ ending =>
    obtain ⟨outcome, report, isEnded⟩ := endPoint_eq kind artifact ending
    exact works _ _ _ (by simp [isEnded])

/-- A run is forsaken when one of its threads was about to be made. -/
theorem Forsakes.spawns {role : String} {strays : List (Run α)}
    (forsakes : Forsakes c run role strays) :
    ∃ worker, c.control.spawns? = some (run.id, worker) := by
  cases forsakes with
  | worker point | monitor point => exact ⟨_, by rw [point]; rfl⟩

theorem Admitted.unborn_of_forsakes {role : String} {strays : List (Run α)} (admitted : c.Admitted)
    (numbered : c.Numbered) (member : run ∈ c.runs) (forsakes : Forsakes c run role strays) :
    run.monitor = .unborn := by
  obtain ⟨worker, spawns⟩ := forsakes.spawns
  obtain ⟨r, hr, same, unborn, -⟩ := admitted.spawning _ _ spawns
  exact numbered.eq_of_id hr member same ▸ unborn

theorem Admitted.happens {event : Event} (admitted : c.Admitted) (numbered : c.Numbered)
    (unstarted : c.Unstarted) (happens : Happens kind here c event d) : d.Admitted := by
  -- Where the control thread waits, it has nothing to do with sessions.
  have begins : c.idle = true → ∀ p : ControlPoint α, p.holdsGuard = false → p.spawns? = none →
      p.Truthful → ∀ e : Controller α, e.runs = c.runs → e.guard = c.guard →
      e.transport = c.transport → e.control = p → e.Admitted := by
    intro idle p free spawns truthful e runs guard transport control
    refine admitted.steps runs guard ?_ ?_ (control ▸ truthful) transport ?_
    · rw [control, free, of_idle (f := ControlPoint.holdsGuard) idle (fun _ => rfl) fun _ => rfl]
    · rw [control, spawns, of_idle (f := ControlPoint.spawns?) idle (fun _ => rfl) fun _ => rfl]
    · exact of_idle (f := ControlPoint.forsakes) idle (fun _ => rfl) fun _ => rfl
  cases happens with
  | controls step => exact admitted.controls numbered unstarted step
  | works member running step => exact admitted.works numbered member running step
  | tidies member step => exact admitted.tidies numbered member step
  | refuses _ forsakes =>
    obtain ⟨worker, spawns⟩ := forsakes.spawns
    exact admitted.forsaken spawns
  | roams _ _ step =>
    cases step <;> exact admitted.frame rfl rfl rfl rfl admitted.truthful fun h => ⟨h, id⟩
  | @begins call idle =>
    refine begins idle call.entry ?_ ?_ ?_ _ rfl rfl rfl rfl <;> cases call <;>
      simp [Call.entry, ControlPoint.holdsGuard, ControlPoint.spawns?, ControlPoint.Truthful]
  | givesUp idle | closes idle => exact begins idle .closed rfl rfl trivial _ rfl rfl rfl rfl
  | _ => exact admitted.frame rfl rfl rfl rfl admitted.truthful fun h => ⟨h, id⟩

end Controller
end SimWorkbench
