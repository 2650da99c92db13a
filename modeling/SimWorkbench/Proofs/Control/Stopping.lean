import SimWorkbench.Proofs.Control.Reports

/-!
# Stopping

When a call to stop has been answered, the transport shows that nothing runs, the current context is
the current stage, and the session that was on when the call was made has been asked to stop and has
lost its output. That stays so until the next call; runs that are started later know nothing of it.
-/
namespace SimWorkbench

variable {α : Type}

/-- Whether the current stage is the current context. -/
def Arena.OnStage (a : Arena) : Prop := a.currentStage = some a.current

namespace Arena

theorem onStage_restoreStage (a : Arena) : a.restoreStage.1.OnStage := by
  rw [OnStage, restoreStage]
  exact a.currentStage_stage

theorem Forest.live_of_onStage {a : Arena} (forest : a.Forest) (onStage : a.OnStage) :
    ∃ n, a.node? a.current = some n ∧ n.layer = .stage := by
  obtain ⟨n, member, same, layered⟩ := forest.current _ onStage
  exact ⟨n, same ▸ forest.node?_of_mem member, layered⟩

theorem OnStage.collect {a : Arena} (onStage : a.OnStage) (c : ContextId) : (a.collect c).OnStage := by
  unfold Arena.collect
  split
  · exact onStage
  · split
    · exact onStage
    · exact onStage

theorem OnStage.without {a : Arena} (onStage : a.OnStage) (n : ContextNode) :
    (a.without n).OnStage := by
  have rest : (if (a.discard n.id).current = n.id then
      { a.discard n.id with current := (a.discard n.id).currentStage.getD rootId }
      else a.discard n.id).OnStage := by
    split
    · have same : (a.discard n.id).currentStage = some a.current := onStage
      rw [OnStage, same]
      rfl
    · exact onStage
  unfold Arena.without
  cases n.parent with
  | none => exact rest
  | some s => exact rest.collect s

theorem OnStage.dispose {a : Arena} (onStage : a.OnStage) (files : FileTree) (here : Location)
    (c : ContextId) : (a.dispose files here c).2.1.OnStage := by
  rcases a.dispose_cases files here c with ⟨-, refused⟩ | ⟨n, -, -, refused⟩ | ⟨n, -, -, gone⟩
  · rw [refused]
    exact onStage
  · rw [refused]
    exact onStage
  · rw [gone]
    exact onStage.without n

end Arena

namespace ControlPoint

/-- How many steps it takes the control thread at most to answer a call to stop. -/
def stopSteps : ControlPoint α → Nat
  | stopping => 6
  | silencing _ => 5
  | flushing => 4
  | restoring => 3
  | showing .. => 2
  | telling .. => 1
  | _ => 0

/-- Whether the control thread asks a run to stop or closes its output, now or next. -/
def halts : ControlPoint α → Bool
  | stopping | silencing _ => true
  | showing _ next | telling _ next => next.halts
  | _ => false

@[simp] theorem halts_afterFault (starting : Bool) (fault : ControlFault) :
    (Controller.afterFault starting fault : ControlPoint α).halts = false := by
  cases starting <;> rfl

end ControlPoint

namespace Controller

variable {kind : ArtifactKind α} {here : Location} {c d : Controller α} {id : Nat} {run : Run α}
  {keeps : α → Prop} {reports : α → Scene → List PropertyChange} {book : Book}

/-! ### A run that was asked to stop -/

/-- Whether a run has been asked to stop, or cannot be asked any more. -/
def Signalled (c : Controller α) (id : Nat) : Prop :=
  ∃ r ∈ c.runs, r.id = id ∧ (r.channel.stopRequested = true ∨ r.channel.finished = true)

/-- Whether the output of a run is closed. -/
def Silenced (c : Controller α) (id : Nat) : Prop :=
  ∃ r ∈ c.runs, r.id = id ∧ c.sink.isOpen r.handle = false

/-- A request to stop is accepted unless one was, or the channel is closed. -/
theorem request_stop (channel : SignalChannel) : (channel.request .stop).stopRequested = true ∨
    (channel.request .stop).finished = true := by
  cases finished : channel.finished <;> cases stopRequested : channel.stopRequested <;>
    simp [SignalChannel.request, SignalChannel.accepts, SignalChannel.enqueue, finished,
      stopRequested]

/-- No request takes one back. -/
theorem request_flags {channel : SignalChannel} (signal : Signal)
    (flags : channel.stopRequested = true ∨ channel.finished = true) :
    (channel.request signal).stopRequested = true ∨ (channel.request signal).finished = true := by
  rw [SignalChannel.request]
  split
  · cases signal with
    | stop => exact .inl rfl
    | _ => exact flags
  · exact flags

/-- Whether an event is no call on the controller or on its arena. -/
def Event.isQuiet : Event → Bool
  | .control | .worker _ | .monitor _ | .stray _ | .files _ => true
  | _ => false

theorem Event.granted_of_isQuiet {event : Event} (quiet : event.isQuiet = true) (cause : String) :
    event ≠ .refusal cause := by
  rintro rfl
  cases quiet

theorem Signalled.happens {event : Event} (signalled : c.Signalled id) (sound : c.Sound)
    (behaves : kind.Behaves keeps reports) (keeping : c.Keeping keeps)
    (granted : ∀ cause, event ≠ .refusal cause) (happens : Happens kind here c event d) :
    d.Signalled id := by
  obtain ⟨r, hr, rfl, flags⟩ := signalled
  have same : r ∈ d.runs → d.Signalled r.id := fun hr => ⟨r, hr, rfl, flags⟩
  have changes : ∀ {i : Nat} {f : Run α → Run α}, d.runs = changed i f c.runs → (f r).id = r.id →
      (r.id = i → (f r).channel.stopRequested = true ∨ (f r).channel.finished = true) →
      d.Signalled r.id := by
    intro i f runs id kept
    rw [Signalled, runs]
    by_cases isOwn : r.id = i
    · exact ⟨f r, mem_changed.mpr (.inr ⟨r, hr, isOwn, rfl⟩), id, kept isOwn⟩
    · exact ⟨r, mem_changed.mpr (.inl ⟨hr, isOwn⟩), rfl, flags⟩
  cases happens with
  | controls step =>
    cases step with
    | asksToStop | turnsStepping | advances => exact changes rfl rfl fun _ => request_flags _ flags
    | spawnsWorker | spawnsMonitor => exact changes rfl rfl fun _ => flags
    | launches => exact same (List.mem_append_left _ hr)
    | _ => exact same hr
  | works member _ step =>
    cases step with
    | went advanced | ended advanced =>
      refine changes rfl rfl fun isOwn => ?_
      obtain rfl := sound.numbered.eq_of_id hr member isOwn
      have follows := (behaves.advance _ _ _ _ (keeping.runs _ member) (by rw [advanced]; rfl)).2
      rcases flags with asked | finished
      · exact .inl (follows.stopRequested.trans asked)
      · exact .inr (follows.finished finished)
  | tidies _ step =>
    cases step with
    | finishes => exact changes rfl rfl fun _ => .inr rfl
    | _ => exact changes rfl rfl fun _ => flags
  | roams _ _ step => cases step <;> exact same hr
  | refuses => exact absurd rfl (granted _)
  | _ => exact same hr

theorem Silenced.happens {event : Event} (silenced : c.Silenced id) (cleared : c.Cleared)
    (granted : ∀ cause, event ≠ .refusal cause) (happens : Happens kind here c event d)
    (sink : c.sink.Follows d.sink) : d.Silenced id := by
  obtain ⟨r, hr, rfl, closed⟩ := silenced
  obtain ⟨s, hs, same⟩ := happens.kept granted hr
  have handle : s.handle = r.handle := congrArg (fun marks => marks.2.2.2) same
  refine ⟨s, hs, congrArg Prod.fst same, ?_⟩
  rw [handle]
  exact sink.closed r.handle (cleared.tidied r hr).handle closed

/-- Whether a run has been asked to stop, as far as it can be, and its output is closed. -/
def Ended (c : Controller α) (id : Nat) : Prop := c.Signalled id ∧ c.Silenced id

theorem Ended.happens {event : Event} (ended : c.Ended id) (kept : c.Kept keeps book)
    (behaves : kind.Behaves keeps reports) (granted : ∀ cause, event ≠ .refusal cause)
    (happens : Happens kind here c event d) : d.Ended id :=
  ⟨ended.1.happens kept.sound behaves kept.keeping granted happens,
    ended.2.happens kept.cleared granted happens (happens.sink behaves kept.keeping)⟩

/-- A run whose mark was taken off cannot be asked any more and has lost its output. -/
theorem Kept.ended (kept : c.Kept keeps book) (member : run ∈ c.runs)
    (unmarked : c.active ≠ some (run.id, run.context)) : c.Ended run.id := by
  have high : 8 ≤ run.monitor.rank := by
    by_contra low
    exact unmarked (kept.sound.marked.marked run member (by omega))
  have tidied := kept.cleared.tidied run member
  exact ⟨⟨run, member, rfl, .inr (tidied.finished (by omega))⟩,
    ⟨run, member, rfl, tidied.released (by omega)⟩⟩

/-! ### The call -/

/-- How far a call to stop has come, and what that has done to the runs that were started before. -/
inductive Stops (former : List Nat) (c : Controller α) : Prop where
  | asked (point : c.control = .stopping)
  | signalled {i : Nat} (point : c.control = .silencing i)
    (signalled : ∀ id ∈ former, c.Signalled id)
  | silenced (point : c.control = .flushing ∨ c.control = .restoring)
    (ended : ∀ id ∈ former, c.Ended id)
  | restored (point : c.control = .showing .stopped (.answered .done))
    (ended : ∀ id ∈ former, c.Ended id) (onStage : c.arena.OnStage)
  | shown (point : c.control = .telling .stopped (.answered .done) ∨ c.control = .answered .done)
    (ended : ∀ id ∈ former, c.Ended id) (onStage : c.arena.OnStage)
    (stopped : c.transport = .stopped)

variable {former : List Nat}

/-- The control thread asks the active run to stop; a run that is not active cannot be asked. -/
theorem Kept.signals (kept : c.Kept keeps book) (behaves : kind.Behaves keeps reports)
    (here : Location) (known : ∀ id ∈ former, ∃ r ∈ c.runs, r.id = id)
    (point : c.control = .stopping) : (c.stepControl kind here).Stops former := by
  have happens : Happens kind here c .control (c.stepControl kind here) :=
    .controls (controls_stepControl kind here c)
  cases active : c.active with
  | none =>
    refine .silenced (.inr (by simp [stepControl, point, active])) fun id isFormer => ?_
    obtain ⟨r, hr, rfl⟩ := known id isFormer
    exact (kept.ended hr (by simp [active])).happens kept behaves (by simp) happens
  | some mark =>
    refine .signalled (i := mark.1) (by simp [stepControl, point, active]) fun id isFormer => ?_
    obtain ⟨r, hr, rfl⟩ := known id isFormer
    by_cases isActive : c.active = some (r.id, r.context)
    · have runs : (c.stepControl kind here).runs =
          changed r.id (fun r => { r with channel := r.channel.request .stop }) c.runs := by
        simp [stepControl, point, isActive]
      rw [Signalled, runs]
      exact ⟨_, mem_changed.mpr (.inr ⟨r, hr, rfl, rfl⟩), rfl, request_stop r.channel⟩
    · exact ((kept.ended hr isActive).happens kept behaves (by simp) happens).1

/-- The control thread closes the output of the active run; that of other runs is closed. -/
theorem Kept.silences {i : Nat} (kept : c.Kept keeps book) (behaves : kind.Behaves keeps reports)
    (here : Location) (point : c.control = .silencing i)
    (signalled : ∀ id ∈ former, c.Signalled id) : (c.stepControl kind here).Stops former := by
  have happens : Happens kind here c .control (c.stepControl kind here) :=
    .controls (controls_stepControl kind here c)
  obtain ⟨-, context, active⟩ := kept.sound.marked.locked i (by rw [point]; rfl)
  obtain ⟨own, member, rfl, rfl, -⟩ := (kept.sound.marked.unmarked i context active).resolve_left
    (by simp [point, ControlPoint.unmarks])
  have found := kept.sound.numbered.run?_of_mem member
  refine .silenced ?_ fun id isFormer => ?_
  · simp only [stepControl, point, found]
    split
    · exact .inl rfl
    · exact .inr rfl
  · have asked := signalled id isFormer
    obtain ⟨r, hr, rfl, -⟩ := asked
    by_cases isActive : c.active = some (r.id, r.context)
    · have same : own.id = r.id := by
        rw [active] at isActive
        exact congrArg Prod.fst (Option.some.inj isActive)
      obtain rfl := kept.sound.numbered.eq_of_id member hr same
      refine ⟨(signalled _ isFormer).happens kept.sound behaves kept.keeping (by simp) happens, own, ?_,
        rfl, ?_⟩
      · simpa [stepControl, point, found] using hr
      · simp [stepControl, point, found, OutputSink.isOpen_close_self]
    · exact (kept.ended hr isActive).happens kept behaves (by simp) happens

theorem Stops.control (stops : c.Stops former) (kept : c.Kept keeps book)
    (behaves : kind.Behaves keeps reports) (here : Location)
    (known : ∀ id ∈ former, ∃ r ∈ c.runs, r.id = id) :
    (c.stepControl kind here).Stops former := by
  have happens : Happens kind here c .control (c.stepControl kind here) :=
    .controls (controls_stepControl kind here c)
  have goesOn : (∀ id ∈ former, c.Ended id) → ∀ id ∈ former, (c.stepControl kind here).Ended id :=
    fun ended id isFormer => (ended id isFormer).happens kept behaves (by simp) happens
  cases stops with
  | asked point => exact kept.signals behaves here known point
  | signalled point signalled => exact kept.silences behaves here point signalled
  | silenced point ended =>
    rcases point with point | point
    · exact .silenced (.inr (by simp [stepControl, point])) (goesOn ended)
    · refine .restored (by simp [stepControl, point]) (goesOn ended) ?_
      simpa [stepControl, point] using c.arena.onStage_restoreStage
  | restored point ended onStage =>
    by_cases stopped : c.transport = .stopped
    · exact .shown (.inr (by simp [stepControl, point, show', stopped])) (goesOn ended)
        (by simpa [stepControl, point, show', stopped] using onStage)
        (by simp [stepControl, point, show', stopped])
    · exact .shown (.inl (by simp [stepControl, point, show', stopped])) (goesOn ended)
        (by simpa [stepControl, point, show', stopped] using onStage)
        (by simp [stepControl, point, show', stopped])
  | shown point ended onStage stopped =>
    rcases point with point | point
    · exact .shown (.inr (by simp [stepControl, point])) (goesOn ended)
        (by simpa [stepControl, point, tell_eq] using onStage)
        (by simpa [stepControl, point, tell_eq] using stopped)
    · exact .shown (.inr (by simp [stepControl, point])) (goesOn ended)
        (by simpa [stepControl, point] using onStage) (by simpa [stepControl, point] using stopped)

/-- Other threads bring no activity back and leave no stage. -/
theorem Happens.stays {event : Event} (happens : Happens kind here c event d)
    (others : event.isOthers = true) (quiet : event.isQuiet = true) :
    (c.arena.OnStage → d.arena.OnStage) ∧ (c.transport = .stopped → d.transport = .stopped) := by
  cases happens with
  | works _ _ step => cases step <;> exact ⟨id, id⟩
  | tidies _ step =>
    cases step with
    | disposes => exact ⟨fun onStage => onStage.dispose _ _ _, id⟩
    | shows => exact ⟨id, fun _ => rfl⟩
    | _ => exact ⟨id, id⟩
  | roams _ _ step => cases step <;> exact ⟨id, id⟩
  | files => exact ⟨id, id⟩
  | arena => cases quiet
  | _ => cases others

theorem Event.cases_of_isQuiet {event : Event} (quiet : event.isQuiet = true) :
    event = .control ∨ event.isOthers = true := by
  cases event <;> first | exact .inl rfl | exact .inr rfl | cases quiet

theorem Stops.happens {event : Event} (stops : c.Stops former) (kept : c.Kept keeps book)
    (behaves : kind.Behaves keeps reports) (known : ∀ id ∈ former, ∃ r ∈ c.runs, r.id = id)
    (quiet : event.isQuiet = true) (happened : c.happen? kind here event = some d) :
    d.Stops former := by
  rcases Event.cases_of_isQuiet quiet with rfl | others
  · cases happened
    exact stops.control kept behaves here known
  · have happens := happens_of_happen? happened
    have control := happens.control_of_others others
    obtain ⟨stage, transport⟩ := happens.stays others quiet
    have granted := Event.granted_of_isQuiet quiet
    have goesOn : (∀ id ∈ former, c.Ended id) → ∀ id ∈ former, d.Ended id :=
      fun ended id isFormer => (ended id isFormer).happens kept behaves granted happens
    cases stops with
    | asked point => exact .asked (control.trans point)
    | signalled point signalled =>
      exact .signalled (control.trans point) fun id isFormer =>
        (signalled id isFormer).happens kept.sound behaves kept.keeping granted happens
    | silenced point ended => exact .silenced (control ▸ point) (goesOn ended)
    | restored point ended onStage =>
      exact .restored (control.trans point) (goesOn ended) (stage onStage)
    | shown point ended onStage stopped =>
      exact .shown (control ▸ point) (goesOn ended) (stage onStage) (transport stopped)

theorem Stops.launches_none (stops : c.Stops former) : c.control ≠ .launching run := by
  intro launches
  cases stops with
  | silenced point | shown point => rcases point with point | point <;> simp [point] at launches
  | asked point | signalled point | restored point => simp [point] at launches

/-- While a call to stop is carried out, and after it was. -/
theorem Reaches.stops (idle : c.idle = true) (kept : c.Kept keeps book)
    (behaves : kind.Behaves keeps reports)
    (path : Reaches kind here (fun _ event => event.isQuiet = true) (c.begin .stop) d) :
    d.Stops (c.runs.map Run.id) ∧ d.runs.map Run.id = c.runs.map Run.id ∧
      ∃ book, d.Kept keeps book := by
  induction path with
  | refl =>
    have begins : Happens kind here c (.call .stop) (c.begin .stop) := .begins idle
    exact ⟨.asked rfl, rfl, _, kept.happens behaves begins⟩
  | tail _ quiet happened ih =>
    obtain ⟨stops, same, book, kept⟩ := ih
    have happens := happens_of_happen? happened
    refine ⟨stops.happens kept behaves (fun id isFormer => ?_) quiet happened, ?_, _,
      kept.happens behaves happens⟩
    · rw [← same] at isFormer
      exact List.mem_map.mp isFormer
    · rcases happens.ids with kept | ⟨run, launches, -⟩ | ⟨cause, refused⟩
      · exact kept.trans same
      · exact absurd launches stops.launches_none
      · exact absurd refused (Event.granted_of_isQuiet quiet cause)

/-- The control thread waits for nobody to answer a call to stop. -/
theorem Stops.answers (stops : c.Stops former) (kind : ArtifactKind α) (here : Location) :
    c.control.stopSteps ≤ 6 ∧
      (c.idle = true ∨ (c.stepControl kind here).control.stopSteps < c.control.stopSteps) := by
  cases stops with
  | asked point =>
    refine ⟨by simp [point, ControlPoint.stopSteps], .inr ?_⟩
    cases active : c.active <;> simp [stepControl, point, active, ControlPoint.stopSteps]
  | @signalled i point =>
    refine ⟨by simp [point, ControlPoint.stopSteps], .inr ?_⟩
    cases found : c.run? i with
    | none => simp [stepControl, point, found, ControlPoint.stopSteps]
    | some run =>
      cases isOpen : c.sink.isOpen run.handle <;>
        simp [stepControl, point, found, isOpen, ControlPoint.stopSteps]
  | silenced point =>
    rcases point with point | point <;>
      exact ⟨by simp [point, ControlPoint.stopSteps],
        .inr (by simp [stepControl, point, ControlPoint.stopSteps])⟩
  | restored point =>
    refine ⟨by simp [point, ControlPoint.stopSteps], .inr ?_⟩
    simp only [stepControl, point]
    split <;> simp [ControlPoint.stopSteps]
  | shown point =>
    rcases point with point | point
    · exact ⟨by simp [point, ControlPoint.stopSteps],
        .inr (by simp [stepControl, point, ControlPoint.stopSteps])⟩
    · exact ⟨by simp [point, ControlPoint.stopSteps], .inl (by simp [Controller.idle, point])⟩

/-! ### Later runs -/

/-- A request other than one to stop does not ask to stop. -/
theorem stopRequested_request {channel : SignalChannel} {signal : Signal} (other : signal ≠ .stop) :
    (channel.request signal).stopRequested = channel.stopRequested := by
  rw [SignalChannel.request]
  split
  · cases signal with
    | stop => exact absurd rfl other
    | _ => rfl
  · rfl

/-- Since some time, when certain runs had been started, no call to stop was made: later runs have
not been asked to stop, and only their own monitors close their output. -/
structure Untouched (former : List Nat) (c : Controller α) : Prop where
  control : c.control.halts = false
  asked : ∀ r ∈ c.runs, r.id ∉ former → r.channel.stopRequested = false
  writable : ∀ r ∈ c.runs, r.id ∉ former → r.monitor.rank ≤ 3 → c.sink.isOpen r.handle = true

theorem Untouched.goesOn {f : Run α → Run α} (untouched : c.Untouched former)
    (runs : d.runs = changed id f c.runs)
    (same : ∀ r ∈ c.runs, r.id = id → (f r).id = r.id ∧ (f r).handle = r.handle ∧
      (f r).channel.stopRequested = r.channel.stopRequested ∧ r.monitor.rank ≤ (f r).monitor.rank)
    (sink : ∀ s ∈ d.runs, ∀ r ∈ c.runs, s.id = r.id → s.monitor.rank ≤ 3 →
      d.sink.isOpen r.handle = c.sink.isOpen r.handle)
    (control : d.control.halts = false) : d.Untouched former := by
  refine ⟨control, fun s hs later => ?_, fun s hs later low => ?_⟩
  · have hs' := hs
    rw [runs, mem_changed] at hs'
    rcases hs' with ⟨hr, -⟩ | ⟨r, hr, isOwn, rfl⟩
    · exact untouched.asked s hr later
    · obtain ⟨id, -, stopRequested, -⟩ := same r hr isOwn
      rw [stopRequested]
      exact untouched.asked r hr (id ▸ later)
  · have hs' := hs
    rw [runs, mem_changed] at hs'
    rcases hs' with ⟨hr, -⟩ | ⟨r, hr, isOwn, rfl⟩
    · rw [sink s hs s hr rfl low]
      exact untouched.writable s hr later low
    · obtain ⟨id, handle, -, rank⟩ := same r hr isOwn
      rw [handle, sink _ hs r hr id low]
      exact untouched.writable r hr (id ▸ later) (by omega)

theorem Untouched.frame (untouched : c.Untouched former) (runs : d.runs = c.runs)
    (sink : ∀ r ∈ c.runs, d.sink.isOpen r.handle = c.sink.isOpen r.handle)
    (control : d.control.halts = false) : d.Untouched former :=
  untouched.goesOn (runs.trans (changed_id 0 c.runs).symm)
    (fun _ _ _ => ⟨rfl, rfl, rfl, Nat.le_refl _⟩) (fun _ _ r hr _ _ => sink r hr) control

theorem Untouched.controls (untouched : c.Untouched former) (sound : c.Sound) (cleared : c.Cleared)
    (step : Controls kind here c d) : d.Untouched former := by
  have quiet := untouched.control
  cases step with
  | waits => exact untouched
  | @launches run point =>
    have inHand : c.control.run? = some run := by rw [point]; rfl
    refine ⟨rfl, fun s hs later => ?_, fun s hs later low => ?_⟩
    · rcases List.mem_append.mp hs with hs | hs
      · exact untouched.asked s hs later
      · rw [List.mem_singleton.mp hs, (sound.unstarted.inHand _ inHand).channel]
        rfl
    · rcases List.mem_append.mp hs with hs | hs
      · exact untouched.writable s hs later low
      · rw [List.mem_singleton.mp hs]
        exact cleared.writable _ (.inr inHand)
  | asksToStop point | silences point | silencesAgain point | stopsNothing point
  | silencesNothing point => simp [point, ControlPoint.halts] at quiet
  | turnsStepping | advances =>
    exact untouched.goesOn rfl
      (fun _ _ _ => ⟨rfl, rfl, stopRequested_request (by simp), Nat.le_refl _⟩)
      (fun _ _ _ _ _ _ => rfl) rfl
  | spawnsWorker =>
    exact untouched.goesOn rfl (fun _ _ _ => ⟨rfl, rfl, rfl, Nat.le_refl _⟩)
      (fun _ _ _ _ _ _ => rfl) rfl
  | spawnsMonitor point =>
    obtain ⟨run, member, rfl, unborn, -⟩ := sound.admitted.spawning _ false (by rw [point]; rfl)
    refine untouched.goesOn rfl (fun r hr isOwn => ⟨rfl, rfl, rfl, ?_⟩) (fun _ _ _ _ _ _ => rfl) rfl
    obtain rfl := sound.numbered.eq_of_id hr member isOwn
    simp [unborn, MonitorPoint.rank]
  | binds =>
    exact untouched.frame rfl
      (fun r hr => c.sink.isOpen_session_of_lt (cleared.tidied r hr).handle) rfl
  | flushes => exact untouched.frame rfl (fun _ _ => rfl) rfl
  | shows point | passes point | tells point =>
    exact untouched.frame rfl (fun _ _ => rfl) (by rw [point] at quiet; exact quiet)
  | _ => exact untouched.frame rfl (fun _ _ => rfl) (by simp [ControlPoint.halts])

/-- The monitor of a run closes the output of this run, and that of no other. -/
theorem Untouched.tidies (untouched : c.Untouched former) (sound : c.Sound) (member : run ∈ c.runs)
    (step : Tidies here c run d) : d.Untouched former := by
  have moves : ∀ {d : Controller α} {f : Run α → Run α}, d.runs = changed run.id f c.runs →
      (f run).id = run.id → (f run).handle = run.handle →
      (f run).channel.stopRequested = run.channel.stopRequested →
      run.monitor.rank ≤ (f run).monitor.rank → d.sink.accepting = c.sink.accepting →
      d.control = c.control → d.Untouched former := by
    intro d f runs id handle stopRequested rank sink control
    refine untouched.goesOn runs (fun r hr same => ?_) (fun _ _ _ _ _ _ => ?_)
      (control ▸ untouched.control)
    · obtain rfl := sound.numbered.eq_of_id hr member same
      exact ⟨id, handle, stopRequested, rank⟩
    · rw [OutputSink.isOpen, sink]
      rfl
  have closes : run.monitor = .releasing → ∀ point : MonitorPoint, 4 ≤ point.rank →
      (moved { c with sink := c.sink.close run.handle } run.id point).Untouched former := by
    intro isHere point high
    refine untouched.goesOn rfl (fun r hr same => ⟨rfl, rfl, rfl, ?_⟩) (fun s hs r hr same low => ?_)
      untouched.control
    · obtain rfl := sound.numbered.eq_of_id hr member same
      have low : r.monitor.rank = 3 := by rw [isHere]; rfl
      exact low ▸ Nat.le_of_succ_le high
    · have alone : ∀ s ∈ c.runs, s.monitor.rank ≤ 3 → s.id = run.id := fun s hs low => by
        refine congrArg Run.id
          (sound.numbered.eq_of_id hs member (sound.admitted.unique s hs run member ?_ ?_))
        · rw [Run.isOver]
          omega
        · simp [Run.isOver, isHere, MonitorPoint.rank]
      rcases mem_changed.mp hs with ⟨hs, other⟩ | ⟨old, -, -, rfl⟩
      · exact absurd (alone s hs low) other
      · exact absurd low (by simp only; omega)
  cases step with
  | releases point => exact closes point _ (by decide)
  | releasesAgain point => exact closes point _ (by decide)
  | joins point | finishes point | flushes point | disposes point | reports point | clears point
  | clearsNothing point | looks point | looksAway point | shows point | passes point | tells point
  | leaves point | calls point | delivers point =>
    exact moves rfl rfl rfl rfl (by simp [point, MonitorPoint.rank]) rfl rfl

theorem Untouched.happens {event : Event} (untouched : c.Untouched former) (kept : c.Kept keeps book)
    (behaves : kind.Behaves keeps reports) (other : event ≠ .call .stop)
    (happens : Happens kind here c event d) : d.Untouched former := by
  cases happens with
  | controls step => exact untouched.controls kept.sound kept.cleared step
  | tidies member step => exact untouched.tidies kept.sound member step
  | works member _ step =>
    cases step with
    | went advanced | ended advanced =>
      have follows := (behaves.advance _ _ _ _ (kept.keeping.runs _ member) (by rw [advanced]; rfl)).2
      refine untouched.goesOn rfl (fun r hr same => ?_) (fun _ _ _ _ _ _ => ?_) untouched.control
      · obtain rfl := kept.sound.numbered.eq_of_id hr member same
        exact ⟨rfl, rfl, follows.stopRequested, Nat.le_refl _⟩
      · simp only [OutputSink.isOpen, worked_sink, follows.accepting]
        rfl
  | roams member _ step =>
    have same := step.accepting behaves (kept.keeping.strays _ member)
    cases step <;>
      exact untouched.frame rfl (fun _ _ => by rw [OutputSink.isOpen, same]; rfl) untouched.control
  | refuses =>
    exact ⟨rfl, fun r hr => untouched.asked r (mem_without.mp hr).1,
      fun r hr => untouched.writable r (mem_without.mp hr).1⟩
  | @begins call =>
    refine untouched.frame rfl (fun _ _ => rfl) ?_
    cases call with
    | stop => exact absurd rfl other
    | _ => rfl
  | givesUp | closes => exact untouched.frame rfl (fun _ _ => rfl) rfl
  | _ => exact untouched.frame rfl (fun _ _ => rfl) untouched.control

theorem Reaches.untouched (kept : c.Kept keeps book) (behaves : kind.Behaves keeps reports)
    (untouched : c.Untouched former)
    (path : Reaches kind here (fun _ event => event ≠ .call .stop) c d) : d.Untouched former := by
  have both : d.Untouched former ∧ ∃ book, d.Kept keeps book :=
    path.invariant (P := fun c => c.Untouched former ∧ ∃ book, c.Kept keeps book)
      ⟨untouched, book, kept⟩ fun ⟨untouched, _, kept⟩ other happens =>
        ⟨untouched.happens kept behaves other happens, _, kept.happens behaves happens⟩
  exact both.1

/-! ### Every call to stop -/

/-- What a call to stop that is made now comes to, whatever the threads of the runs do meanwhile. -/
structure Halts (kind : ArtifactKind α) (here : Location) (c d : Controller α) : Prop where
  /-- The call is answered: it takes six steps of the control thread at most, and none of them waits. -/
  answers : d.control.stopSteps ≤ 6 ∧
    (d.idle = true ∨ (d.stepControl kind here).control.stopSteps < d.control.stopSteps)
  /-- After the answer the transport shows that nothing runs. -/
  shown : d.idle = true → d.transport = .stopped
  /-- After the answer the current context is the stage. -/
  onStage : d.idle = true → ∃ n, d.arena.node? d.arena.current = some n ∧ n.layer = .stage
  /-- After the answer no run that was started before goes on unasked, and none can write; those that
  were forsaken are no runs any more. -/
  ended : d.idle = true → ∀ r ∈ c.runs, d.Ended r.id
  /-- Until there is another call to stop, runs that are started after the answer are not asked to
  stop and can write until their monitors close their output. -/
  later : d.idle = true → ∀ e, Reaches kind here (fun _ event => event ≠ .call .stop) d e →
    ∀ r ∈ e.runs, (∀ s ∈ c.runs, s.id ≠ r.id) →
      r.channel.stopRequested = false ∧ (r.monitor.rank ≤ 3 → e.sink.isOpen r.handle = true)

/-- A call to stop ends all activity, wherever the threads of the last run are, and touches no run
that is started later. -/
theorem stop_halts {settings : RunSettings} {hasListener : Bool} {arena : Arena} {files : FileTree}
    (behaves : kind.Behaves keeps reports) (forest : arena.Forest)
    (path : Reaches kind here allows (fresh settings hasListener arena files) c)
    (idle : c.idle = true)
    (calm : Reaches kind here (fun _ event => event.isQuiet = true) (c.begin .stop) d) :
    c.Halts kind here d := by
  obtain ⟨book, recorded⟩ := path.records reports
  obtain ⟨stops, same, book, kept⟩ := calm.stops idle (recorded.kept behaves forest) behaves
  have shown : d.idle = true → (∀ id ∈ c.runs.map Run.id, d.Ended id) ∧ d.arena.OnStage ∧
      d.transport = .stopped := fun idle => by
    cases stops with
    | shown _ ended onStage stopped => exact ⟨ended, onStage, stopped⟩
    | silenced point => rcases point with point | point <;> simp [Controller.idle, point] at idle
    | asked point | signalled point | restored point => simp [Controller.idle, point] at idle
  refine ⟨stops.answers kind here, fun idle => (shown idle).2.2, fun idle => ?_,
    fun idle r hr => (shown idle).1 r.id (List.mem_map_of_mem hr), fun idle e later r hr new => ?_⟩
  · exact kept.placed.forest.live_of_onStage (shown idle).2.1
  · have start : d.Untouched (c.runs.map Run.id) := by
      have former : ∀ r ∈ d.runs, r.id ∈ c.runs.map Run.id := fun r hr =>
        same ▸ List.mem_map_of_mem hr
      exact ⟨of_idle (f := ControlPoint.halts) idle (fun _ => rfl) fun _ => rfl,
        fun r hr later => absurd (former r hr) later, fun r hr later => absurd (former r hr) later⟩
    have untouched := later.untouched kept behaves start
    have isLater : r.id ∉ c.runs.map Run.id := fun isFormer => by
      obtain ⟨s, hs, isSame⟩ := List.mem_map.mp isFormer
      exact new s hs isSame
    exact ⟨untouched.asked r hr isLater, untouched.writable r hr isLater⟩

open Rehearsal in
/-- The rehearsed run is stopped when it has begun; meanwhile its worker goes on. -/
theorem stop_halts_rehearsed : ∃ c d : Controller Artifact,
    Reaches twice [] (fun _ _ => True) seated c ∧ c.idle = true ∧ c.transport = .running ∧
      Reaches twice [] (fun _ event => event.isQuiet = true) (c.begin .stop) d ∧ d.idle = true ∧
      c.Halts twice [] d := by
  have stopped : ((seated.after? twice [] opening).any fun c =>
      c.idle && (c.transport == .running && ((c.begin .stop).after? twice []
        [.control, .worker 1, .control, .worker 1, .control, .control, .control, .control]).any
        idle)) = true := by decide +kernel
  obtain ⟨c, happened, facts⟩ := (Option.any_eq_true _ _).mp stopped
  simp only [Bool.and_eq_true, beq_iff_eq] at facts
  obtain ⟨d, stops, answered⟩ := (Option.any_eq_true _ _).mp facts.2.2
  have path : Reaches twice [] (fun _ _ => True) seated c :=
    reaches_of_after? (fun _ _ _ => trivial) happened
  have calm : Reaches twice [] (fun _ event => event.isQuiet = true) (c.begin .stop) d :=
    reaches_of_after? (by simp [Event.isQuiet]) stops
  exact ⟨c, d, path, facts.1, facts.2.1, calm, answered,
    stop_halts (unattended_behaves _) (Arena.Forest.fresh ..) path facts.1 calm⟩

end Controller
end SimWorkbench
