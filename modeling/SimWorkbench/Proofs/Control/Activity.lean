import SimWorkbench.Proofs.Control.Admission

/-!
# The active run

The mark of the active run is that of the run whose session is on, until its monitor takes it off, or
a start that forsakes it. A run is prepared only as long as no session is on.
-/
namespace SimWorkbench

variable {α : Type}

namespace ControlPoint

/-- Whether the control thread prepares a run or launches one. -/
def prepares : ControlPoint α → Bool
  | discarding .. | resolving .. | loading .. | abandoning .. | binding .. | entering ..
  | taking | launching _ | unmarking .. | forsaking .. | yielding _ | givingBack _ => true
  | showing _ next | telling _ next => next.prepares
  | _ => false

/-- The run whose output the control thread closes, if it does now or is about to. -/
def silences? : ControlPoint α → Option Nat
  | silencing id => some id
  | showing _ next | telling _ next => next.silences?
  | _ => none

@[simp] theorem silences?_afterFault (starting : Bool) (fault : ControlFault) :
    (Controller.afterFault starting fault : ControlPoint α).silences? = none := by
  cases starting <;> rfl

/-- The context of the run that the control thread has forsaken, until it has given that up. -/
def forsaken? : ControlPoint α → Option ContextId
  | unmarking context _ | forsaking context _ => some context
  | showing _ next | telling _ next => next.forsaken?
  | _ => none

@[simp] theorem forsaken?_afterFault (starting : Bool) (fault : ControlFault) :
    (Controller.afterFault starting fault : ControlPoint α).forsaken? = none := by
  cases starting <;> rfl

/-- Whether the control thread has forsaken a run that still has the mark. -/
def unmarks : ControlPoint α → Bool
  | unmarking .. => true
  | _ => false

theorem prepares_of_forsaken? {p : ControlPoint α} (forsaken : p.forsaken? ≠ none) :
    p.prepares = true := by
  induction p with
  | showing _ _ ih => exact ih forsaken
  | telling _ _ ih => exact ih forsaken
  | _ => first | rfl | exact absurd rfl forsaken

theorem prepares_of_run? {p : ControlPoint α} {run : Run α} (inHand : p.run? = some run) :
    p.prepares = true := by
  induction p with
  | showing _ _ ih => exact ih inHand
  | telling _ _ ih => exact ih inHand
  | _ => first | rfl | cases inHand

end ControlPoint

namespace Controller

variable {kind : ArtifactKind α} {here : Location} {c d : Controller α} {id : Nat} {run : Run α}

/-- Whether a run is prepared or in the hands of the control thread. -/
def IsPrepared (c : Controller α) (run : Run α) : Prop :=
  c.prepared = some run ∨ c.control.run? = some run

/-! ### The mark -/

/-- What holds of the mark of the active run between two events. -/
structure Marked (c : Controller α) : Prop where
  marked : ∀ r ∈ c.runs, r.monitor.rank ≤ 7 → c.active = some (r.id, r.context)
  unmarked : ∀ id context, c.active = some (id, context) → c.control.unmarks = true ∨
    ∃ r ∈ c.runs, r.id = id ∧ r.context = context ∧ r.monitor.rank ≤ 7
  /-- The mark stays as long as the output of the active run is closed. -/
  locked : ∀ id, c.control.silences? = some id →
    c.control = .silencing id ∧ ∃ context, c.active = some (id, context)

theorem Marked.fresh (settings : RunSettings) (hasListener : Bool) (arena : Arena)
    (files : FileTree) : (fresh settings hasListener arena files : Controller α).Marked := by
  constructor <;> simp [Controller.fresh, ControlPoint.silences?]

/-- One run goes on, and no mark is set or taken off. -/
theorem Marked.goesOn {f : Run α → Run α} (marked : c.Marked) (runs : d.runs = changed id f c.runs)
    (goesOn : ∀ r ∈ c.runs, r.id = id → (f r).id = r.id ∧ (f r).context = r.context ∧
      ((f r).monitor.rank ≤ 7 ↔ r.monitor.rank ≤ 7))
    (active : d.active = c.active) (unmarks : c.control.unmarks = true → d.control.unmarks = true)
    (locked : ∀ id, d.control.silences? = some id →
      d.control = .silencing id ∧ ∃ context, c.active = some (id, context)) :
    d.Marked := by
  refine ⟨fun s hs low => ?_, fun i context is => ?_, active ▸ locked⟩
  · rw [active]
    rw [runs, mem_changed] at hs
    rcases hs with ⟨hs, -⟩ | ⟨r, hr, isOwn, rfl⟩
    · exact marked.marked s hs low
    · obtain ⟨sameId, sameContext, same⟩ := goesOn r hr isOwn
      rw [sameId, sameContext]
      exact marked.marked r hr (same.mp low)
  · rw [active] at is
    refine (marked.unmarked i context is).imp unmarks ?_
    rintro ⟨r, hr, rfl, rfl, low⟩
    rw [runs]
    by_cases isOwn : r.id = id
    · obtain ⟨sameId, sameContext, same⟩ := goesOn r hr isOwn
      exact ⟨f r, mem_changed.mpr (.inr ⟨r, hr, isOwn, rfl⟩), sameId, sameContext, same.mpr low⟩
    · exact ⟨r, mem_changed.mpr (.inl ⟨hr, isOwn⟩), rfl, rfl, low⟩

theorem Marked.frame (marked : c.Marked) (runs : d.runs = c.runs) (active : d.active = c.active)
    (unmarks : c.control.unmarks = true → d.control.unmarks = true)
    (locked : ∀ id, d.control.silences? = some id →
      d.control = .silencing id ∧ ∃ context, c.active = some (id, context)) :
    d.Marked :=
  marked.goesOn (runs.trans (changed_id 0 c.runs).symm) (fun _ _ _ => ⟨rfl, rfl, Iff.rfl⟩) active
    unmarks locked

/-- The mark is set when a run is launched; there is no other to lose it. -/
theorem Marked.launches (admitted : c.Admitted) (unstarted : c.Unstarted)
    (point : c.control = .launching run) :
    (atPoint { c with active := some (run.id, run.context), runs := c.runs ++ [run] }
      (.showing .running (.spawningWorker run.id))).Marked := by
  have spent := (admitted.control (by rw [point]; rfl)).2
  have new := unstarted.inHand run (by rw [point]; rfl)
  refine ⟨fun r hr low => ?_, fun id context is => ?_, by simp [ControlPoint.silences?]⟩
  · rcases List.mem_append.mp hr with hr | hr
    · have := spent r hr
      rw [Run.isOver] at this
      omega
    · rw [List.mem_singleton.mp hr]
      rfl
  · cases is
    exact .inr ⟨run, by simp, rfl, rfl, by simp [new.monitor, MonitorPoint.rank]⟩

/-- A run that is forsaken keeps the mark at first. -/
theorem Marked.forsaken {worker : Bool} {strays : List (Run α)} {fault : ThreadFault}
    (admitted : c.Admitted) (spawns : c.control.spawns? = some (run.id, worker)) :
    (c.forsaken run strays fault).Marked := by
  have after : (c.forsaken run strays fault).Admitted := admitted.forsaken spawns
  have spent := (after.control rfl).2
  refine ⟨fun r hr low => ?_, fun _ _ _ => .inl rfl, fun _ h => by cases h⟩
  have := spent r hr
  rw [Run.isOver] at this
  omega

/-- A run that was forsaken loses the mark; no other one has it. -/
theorem Marked.unmarks {context : ContextId} {fault : ThreadFault} (admitted : c.Admitted)
    (point : c.control = .unmarking context fault) :
    (atPoint { c with active := none } (.forsaking context fault)).Marked := by
  have spent := (admitted.control (by rw [point]; rfl)).2
  refine ⟨fun r hr low => ?_, by simp, fun _ h => by cases h⟩
  have := spent r hr
  rw [Run.isOver] at this
  omega

theorem Marked.controls (marked : c.Marked) (numbered : c.Numbered) (unstarted : c.Unstarted)
    (admitted : c.Admitted) (step : Controls kind here c d) : d.Marked := by
  have locked := marked.locked
  cases step with
  | waits => exact marked
  | launches point => exact .launches admitted unstarted point
  | unmarks point => exact .unmarks admitted point
  | asksToStop point active =>
    exact marked.goesOn rfl (fun _ _ _ => ⟨rfl, rfl, Iff.rfl⟩) rfl
      (by simp [point, ControlPoint.unmarks]) fun id same => by
        cases same
        exact ⟨rfl, _, active⟩
  | turnsStepping point | advances point | spawnsWorker point =>
    exact marked.goesOn rfl (fun _ _ _ => ⟨rfl, rfl, Iff.rfl⟩) rfl
      (by simp [point, ControlPoint.unmarks]) (by simp [ControlPoint.silences?])
  | @spawnsMonitor id point =>
    obtain ⟨run, member, rfl, unborn, -⟩ := admitted.spawning id false (by rw [point]; rfl)
    refine marked.goesOn rfl (fun r hr same => ?_) rfl (by simp [point, ControlPoint.unmarks])
      (by simp [ControlPoint.silences?])
    obtain rfl := numbered.eq_of_id hr member same
    simp [unborn, MonitorPoint.rank]
  | shows point | passes point | tells point =>
    refine marked.frame rfl rfl (by simp [point, ControlPoint.unmarks]) fun id same => ?_
    have isHere := (locked id (by rw [point]; exact same)).1
    rw [point] at isHere
    cases isHere
  | misses point | abandons point =>
    exact marked.frame rfl rfl (by simp [point, ControlPoint.unmarks]) fun _ h => by
      cases (ControlPoint.silences?_afterFault ..).symm.trans h
  | _ point =>
    exact marked.frame rfl rfl (by simp [point, ControlPoint.unmarks]) fun _ h => by cases h

/-- The monitor of a run takes the mark off; it is that of the run, and no other one. -/
theorem Marked.clears (marked : c.Marked) (numbered : c.Numbered) (member : run ∈ c.runs)
    (unlocked : c.control.locksMark = false) (isOwn : c.active = some (id, run.context)) :
    (moved { c with active := none } run.id .looking).Marked := by
  refine ⟨fun s hs low => ?_, by simp, fun i same => ?_⟩
  · rcases mem_changed.mp hs with ⟨hs, other⟩ | ⟨r, hr, -, rfl⟩
    · have active := isOwn.symm.trans (marked.marked s hs low)
      simp only [Option.some.injEq, Prod.mk.injEq] at active
      exact absurd (congrArg Run.id (numbered.eq_of_context member hs active.2)) (Ne.symm other)
    · simp [MonitorPoint.rank] at low
  · have isHere := (marked.locked i same).1
    rw [isHere] at unlocked
    cases unlocked

theorem Marked.tidies (marked : c.Marked) (numbered : c.Numbered) (member : run ∈ c.runs)
    (step : Tidies here c run d) : d.Marked := by
  have own : ∀ r ∈ c.runs, r.id = run.id → r = run := fun r hr => numbered.eq_of_id hr member
  have moves : ∀ {d : Controller α} {f : Run α → Run α}, d.runs = changed run.id f c.runs →
      (f run).id = run.id → (f run).context = run.context →
      ((f run).monitor.rank ≤ 7 ↔ run.monitor.rank ≤ 7) → d.active = c.active →
      d.control = c.control → d.Marked := by
    intro d f runs id context low active control
    refine marked.goesOn runs (fun r hr same => ?_) active (by rw [control]; exact fun h => h)
      (control ▸ marked.locked)
    obtain rfl := own r hr same
    exact ⟨id, context, low⟩
  cases step with
  | clears _ unlocked isOwn => exact marked.clears numbered member unlocked isOwn
  | clearsNothing point _ other =>
    exact absurd (marked.marked run member (by simp [point, MonitorPoint.rank])) (other run.id)
  | joins point | finishes point | releases point | releasesAgain point | flushes point
  | disposes point | reports point | looks point | looksAway point | shows point | passes point
  | tells point | leaves point | calls point | delivers point =>
    exact moves rfl rfl rfl (by simp [point, MonitorPoint.rank]) rfl rfl

theorem Marked.happens {event : Event} (marked : c.Marked) (numbered : c.Numbered)
    (unstarted : c.Unstarted) (admitted : c.Admitted) (happens : Happens kind here c event d) :
    d.Marked := by
  have waits : c.idle = true → c.control.unmarks = false := fun idle =>
    of_idle (f := ControlPoint.unmarks) idle (fun _ => rfl) fun _ => rfl
  cases happens with
  | controls step => exact marked.controls numbered unstarted admitted step
  | tidies member step => exact marked.tidies numbered member step
  | works _ _ step =>
    cases step <;> exact marked.goesOn rfl (fun _ _ _ => ⟨rfl, rfl, Iff.rfl⟩) rfl id marked.locked
  | roams _ _ step => cases step <;> exact marked.frame rfl rfl id marked.locked
  | refuses _ forsakes =>
    obtain ⟨worker, spawns⟩ := forsakes.spawns
    exact .forsaken admitted spawns
  | @begins call idle =>
    refine marked.frame rfl rfl (by simp [waits idle]) fun id same => ?_
    cases call <;> cases same
  | givesUp idle | closes idle =>
    exact marked.frame rfl rfl (by simp [waits idle]) fun _ h => by cases h
  | _ => exact marked.frame rfl rfl id marked.locked

/-! ### Prepared runs -/

/-- Where a run that is prepared after a step of the control thread comes from: it was prepared
before, it is the one that was just bound, or the prepared one was set to stop after each step. -/
theorem Controls.isPrepared (step : Controls kind here c d) (is : d.IsPrepared run) :
    c.IsPrepared run ∨
    (c.control.prepares = true ∧ d.sink = c.sink.session.1 ∧
      ∃ id loaded artifact, run = bound kind c id loaded artifact) ∨
    ∃ old, c.prepared = some old ∧
      run = { old with artifact := (kind.setSingleStep true old.artifact).2 } := by
  cases step with
  | waits => exact .inl is
  | binds point =>
    refine is.elim (fun prepared => .inl (.inl prepared)) fun inHand => .inr (.inl ?_)
    cases inHand
    exact ⟨by rw [point]; rfl, rfl, _, _, _, rfl⟩
  | setsStepping _ _ prepared =>
    refine is.elim (fun same => .inr (.inr ?_)) (nomatch ·)
    cases same
    exact ⟨_, prepared, rfl⟩
  | discards => exact is.elim (nomatch ·) (nomatch ·)
  | prepares point => exact is.elim (fun same => .inl (.inr (by rw [point]; exact same))) (nomatch ·)
  | takes _ prepared => exact is.elim (nomatch ·) fun inHand => .inl (.inl (prepared.trans inHand))
  | misses | abandons =>
    exact is.elim (fun prepared => .inl (.inl prepared)) fun inHand =>
      nomatch (ControlPoint.run?_afterFault ..).symm.trans inHand
  | entersToStart point | shows point | passes point | tells point =>
    exact .inl (is.imp id fun inHand => by rw [point]; exact inHand)
  | _ => exact is.elim (fun prepared => .inl (.inl prepared)) (nomatch ·)

theorem Tidies.isPrepared {other : Run α} (step : Tidies here c run d) (is : d.IsPrepared other) :
    c.IsPrepared other := by
  cases step <;> exact is

/-- Only the control thread prepares runs. -/
theorem Happens.isPrepared {event : Event} (happens : Happens kind here c event d)
    (other : event ≠ .control) (is : d.IsPrepared run) : c.IsPrepared run := by
  cases happens with
  | controls => exact absurd rfl other
  | begins => exact is.elim .inl fun inHand => nomatch (run?_entry _).symm.trans inHand
  | works _ _ step => cases step <;> exact is
  | tidies _ step => exact step.isPrepared is
  | roams _ _ step => cases step <;> exact is
  | givesUp => exact is.elim (nomatch ·) (nomatch ·)
  | closes | refuses => exact is.elim .inl (nomatch ·)
  | _ => exact is

/-- What holds of prepared runs between two events. -/
structure Ready (c : Controller α) : Prop where
  prepared : c.prepared ≠ none → ∀ r ∈ c.runs, r.isOver
  preparing : c.control.prepares = true → ∀ r ∈ c.runs, r.isOver
  forsaking : c.control.forsaken? ≠ none → c.prepared = none

theorem Ready.fresh (settings : RunSettings) (hasListener : Bool) (arena : Arena)
    (files : FileTree) : (fresh settings hasListener arena files : Controller α).Ready := by
  constructor <;> simp [Controller.fresh]

theorem Ready.over (ready : c.Ready) (is : c.IsPrepared run) : ∀ r ∈ c.runs, r.isOver :=
  is.elim (fun prepared => ready.prepared (by simp [prepared])) fun inHand =>
    ready.preparing (ControlPoint.prepares_of_run? inHand)

/-- As long as a session is on, no run is prepared. -/
theorem Ready.unprepared (ready : c.Ready) (member : run ∈ c.runs) (present : ¬run.isOver)
    (other : Run α) : ¬c.IsPrepared other :=
  fun is => present (ready.over is run member)

/-- Nothing is prepared anew, and no run is forsaken. -/
theorem Ready.goesOn (ready : c.Ready) (was : ∀ {run}, d.IsPrepared run → c.IsPrepared run)
    (spent : (∀ r ∈ c.runs, r.isOver) → ∀ r ∈ d.runs, r.isOver)
    (preparing : d.control.prepares = true → c.control.prepares = true)
    (forsaking : d.control.forsaken? ≠ none → d.prepared = none) : d.Ready := by
  refine ⟨fun some => ?_, fun h => spent (ready.preparing (preparing h)), forsaking⟩
  obtain ⟨run, is⟩ := Option.ne_none_iff_exists'.mp some
  exact spent (ready.over (was (.inl is)))

/-- Runs do not begin again. -/
theorem over_changed {f : Run α → Run α} {runs : List (Run α)}
    (goesOn : ∀ r ∈ runs, r.id = id → r.isOver → (f r).isOver) (spent : ∀ r ∈ runs, r.isOver) :
    ∀ r ∈ changed id f runs, r.isOver := by
  intro s hs
  rcases mem_changed.mp hs with ⟨hs, -⟩ | ⟨r, hr, isOwn, rfl⟩
  · exact spent s hs
  · exact goesOn r hr isOwn (spent r hr)

/-- The control thread prepares a run only when there is no session. -/
theorem Ready.steps (ready : c.Ready) (step : Controls kind here c d)
    (spent : (∀ r ∈ c.runs, r.isOver) → ∀ r ∈ d.runs, r.isOver)
    (preparing : d.control.prepares = true → c.control.prepares = true ∨ ∀ r ∈ c.runs, r.isOver)
    (forsaking : d.control.forsaken? ≠ none → d.prepared = none) : d.Ready := by
  refine ⟨fun some => spent ?_, fun h => spent ((preparing h).elim ready.preparing id), forsaking⟩
  obtain ⟨run, is⟩ := Option.ne_none_iff_exists'.mp some
  rcases step.isPrepared (.inl is) with was | ⟨binding, -⟩ | ⟨old, prepared, -⟩
  · exact ready.over was
  · exact ready.preparing binding
  · exact ready.over (.inl prepared)

theorem Ready.controls (ready : c.Ready) (numbered : c.Numbered) (admitted : c.Admitted)
    (step : Controls kind here c d) : d.Ready := by
  have unprepared := numbered.unprepared
  have steps := ready.steps step
  cases step with
  | waits => exact ready
  | asks _ free | admits _ free =>
    exact steps id (fun _ => .inr (admitted.spent (by omega))) fun h => absurd rfl h
  | launches point =>
    have none := unprepared (.inl (by simp [point, ControlPoint.id?]))
    exact ⟨fun h => absurd none h, (fun h => by cases h), fun h => absurd rfl h⟩
  | spawnsMonitor point =>
    obtain ⟨r, hr, -, unborn, -⟩ := admitted.spawning _ _ (by rw [point]; rfl)
    exact steps (fun spent => absurd (spent r hr) (Run.not_over_of_unborn unborn))
      (fun h => by cases h) fun h => absurd rfl h
  | asksToStop | turnsStepping | advances | spawnsWorker =>
    exact steps (over_changed fun _ _ _ spent => spent) (fun h => by cases h) fun h => absurd rfl h
  | misses point | abandons point =>
    exact steps id (fun _ => .inl (by rw [point]; rfl)) fun h =>
      absurd (ControlPoint.forsaken?_afterFault ..) h
  | unmarks point =>
    exact steps id (fun _ => .inl (by rw [point]; rfl)) fun _ =>
      ready.forsaking (by simp [point, ControlPoint.forsaken?])
  | discards point | numbers point | resolves point | failsToLoad point | loads point | binds point
  | takes point | prepareAgain point | lacks point | forsakes point =>
    exact steps id (fun _ => .inl (by rw [point]; rfl)) fun h => absurd rfl h
  | entersToStart point =>
    exact steps id (fun h => .inl (by rw [point]; exact h)) fun h => absurd rfl h
  | shows point | passes point | tells point =>
    exact steps id (fun h => .inl (by rw [point]; exact h)) fun h =>
      ready.forsaking (by rw [point]; exact h)
  | _ => exact steps id (fun h => by cases h) fun h => absurd rfl h

theorem Ready.tidies (ready : c.Ready) (numbered : c.Numbered) (member : run ∈ c.runs)
    (step : Tidies here c run d) : d.Ready := by
  have was : ∀ {other : Run α}, d.IsPrepared other → c.IsPrepared other := step.isPrepared
  have moves : ∀ {f : Run α → Run α}, (run.isOver → (f run).isOver) →
      (∀ r ∈ c.runs, r.isOver) → ∀ r ∈ changed run.id f c.runs, r.isOver := by
    intro f spent
    refine over_changed fun r hr same => ?_
    obtain rfl := numbered.eq_of_id hr member same
    exact spent
  cases step with
  | releases point | releasesAgain point | clears point | clearsNothing point | joins point
  | finishes point | flushes point | disposes point | reports point | looks point | looksAway point
  | shows point | passes point | tells point | leaves point | calls point | delivers point =>
    exact ready.goesOn was (moves (by simp [Run.isOver, point, MonitorPoint.rank])) id ready.forsaking

theorem Ready.happens {event : Event} (ready : c.Ready) (numbered : c.Numbered)
    (admitted : c.Admitted) (happens : Happens kind here c event d) : d.Ready := by
  have was : event ≠ .control → ∀ {run : Run α}, d.IsPrepared run → c.IsPrepared run :=
    fun other _ => happens.isPrepared other
  cases happens with
  | controls step => exact ready.controls numbered admitted step
  | tidies member step => exact ready.tidies numbered member step
  | works _ _ step =>
    cases step <;>
      exact ready.goesOn (was (nomatch ·)) (over_changed fun _ _ _ spent => spent) id ready.forsaking
  | roams _ _ step => cases step <;> exact ready.goesOn (was (nomatch ·)) id id ready.forsaking
  | refuses member forsakes =>
    -- The session of the run was on, so that none was prepared; and no other one was on.
    have unborn := admitted.unborn_of_forsakes numbered member forsakes
    have none : c.prepared = none := by
      by_contra prepared
      exact Run.not_over_of_unborn unborn (ready.prepared prepared _ member)
    obtain ⟨worker, spawns⟩ := forsakes.spawns
    exact ⟨fun h => absurd none h, fun _ => ((admitted.forsaken spawns).control rfl).2, fun _ => none⟩
  | @begins call =>
    refine ready.goesOn (was (nomatch ·)) id (fun h => ?_) fun h => ?_
    · cases call <;> cases h
    · cases call <;> exact absurd rfl h
  | givesUp | closes =>
    exact ready.goesOn (was (nomatch ·)) id (fun h => by cases h) fun h => absurd rfl h
  | _ => exact ready.goesOn (was (nomatch ·)) id id ready.forsaking

/-! ### All schedules -/

/-- What holds of runs between two events, whoever else works on the arena or changes files. -/
structure Sound (c : Controller α) : Prop where
  numbered : c.Numbered
  unstarted : c.Unstarted
  admitted : c.Admitted
  marked : c.Marked
  ready : c.Ready

theorem Sound.fresh (settings : RunSettings) (hasListener : Bool) (arena : Arena)
    (files : FileTree) : (fresh settings hasListener arena files : Controller α).Sound :=
  ⟨.fresh .., .fresh .., .fresh .., .fresh .., .fresh ..⟩

theorem Sound.happens {event : Event} (sound : c.Sound) (happens : Happens kind here c event d) :
    d.Sound where
  numbered := sound.numbered.happens happens
  unstarted := sound.unstarted.happens happens
  admitted := sound.admitted.happens sound.numbered sound.unstarted happens
  marked := sound.marked.happens sound.numbered sound.unstarted sound.admitted happens
  ready := sound.ready.happens sound.numbered sound.admitted happens

theorem Reaches.sound {allows : Controller α → Event → Prop} (path : Reaches kind here allows c d)
    (sound : c.Sound) : d.Sound :=
  path.invariant sound fun sound _ happens => sound.happens happens

end Controller
end SimWorkbench
