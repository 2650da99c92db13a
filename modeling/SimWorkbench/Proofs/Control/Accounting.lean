import SimWorkbench.Proofs.Context.Sweeping
import SimWorkbench.Proofs.Control.Sessions

/-!
# Accounting for contexts

A controller that alone makes run contexts loses none of them. There is one for the run that is being
made, is prepared, or has been launched and is not yet torn down, and there is at most one such run.
So when the controller has been given up and all monitors are gone there is none, and nothing is left
of what was made for them.
-/
namespace SimWorkbench

variable {α : Type}

/-- Whether a call makes no run context and takes none away. -/
def ArenaCall.keepsRuns : ArenaCall → Bool
  | .createRun | .dispose _ => false
  | _ => true

theorem Arena.Forest.runIds_perform {a : Arena} (forest : a.Forest) (files : FileTree)
    (here : Location) {call : ArenaCall} (keeps : call.keepsRuns = true) :
    (a.perform files here call).2.1.runIds = a.runIds := by
  cases call with
  | stage | restoreStage => exact a.runIds_stage
  | resetStage => exact forest.runIds_resetStage
  | load run name => exact a.runIds_load files here run name
  | addPath path =>
    refine a.runIds_modify _ (fun n => ?_) fun n => ?_ <;>
    · split <;> rfl
  | enter c => exact a.runIds_enter c
  | resolve c name => rfl
  | createRun | dispose c => cases keeps

theorem Arena.scratchDir_afterCalls (a : Arena) (here : Location)
    (calls : List (FileTree × ArenaCall)) : (a.afterCalls here calls).scratchDir = a.scratchDir := by
  induction calls generalizing a with
  | nil => rfl
  | cons x calls ih => exact (ih _).trans (a.scratchDir_perform x.1 here x.2)

/-- The only run context is taken away. -/
theorem Arena.Forest.runIds_dispose_only {a : Arena} {x : ContextId} (forest : a.Forest)
    (files : FileTree) (here : Location) (only : a.runIds = [x]) :
    (a.dispose files here x).2.1.runIds = [] := by
  rcases forest.runIds_dispose files here x with ⟨-, -, missing⟩ | ⟨-, -, rest, -⟩
  · simp [only] at missing
  · simp [rest, only]

/-- The number and the context of a run. -/
def Run.tag (r : Run α) : Nat × ContextId := (r.id, r.context)

/-- Whether artifacts leave alone what is in the directory of a path, though not what is further below,
and the path leads there still. -/
def ArtifactKind.Spares (kind : ArtifactKind α) (here : Location) (p : Path) : Prop :=
  ∀ artifact scene artifact' scene', (kind.advance artifact scene).next? = some (artifact', scene') →
    FileTree.Spares here p scene.files scene'.files

namespace ControlPoint

theorem prepares_of_context? {p : ControlPoint α} (context : p.context? ≠ none) :
    p.prepares = true := by
  induction p with
  | showing _ _ ih => exact ih context
  | telling _ _ ih => exact ih context
  | _ => first | rfl | exact absurd rfl context

theorem context?_of_forsaken? {p : ControlPoint α} (forsaken : p.forsaken? ≠ none) :
    p.context? = none := by
  induction p with
  | showing _ _ ih => exact ih forsaken
  | telling _ _ ih => exact ih forsaken
  | _ => first | rfl | exact absurd rfl forsaken

/-- Whether the controller has been given up, or is about to be. -/
def closes : ControlPoint α → Bool
  | closed => true
  | showing _ next | telling _ next => next.closes
  | _ => false

@[simp] theorem closes_afterFault (starting : Bool) (fault : ControlFault) :
    (Controller.afterFault starting fault : ControlPoint α).closes = false := by
  cases starting <;> rfl

/-- The number and the context of the run that the control thread makes or has in its hands. -/
def tag? : ControlPoint α → Option (Nat × ContextId)
  | loading _ _ id loaded _ | binding _ _ id loaded _ => some (id, loaded.context)
  | entering _ _ run | launching run => some run.tag
  | showing _ next | telling _ next => next.tag?
  | _ => none

@[simp] theorem tag?_afterFault (starting : Bool) (fault : ControlFault) :
    (Controller.afterFault starting fault : ControlPoint α).tag? = none := by
  cases starting <;> rfl

theorem of_tag? {p : ControlPoint α} {x : Nat × ContextId} (tagged : p.tag? = some x) (number : Nat) :
    p.id? number = some x.1 ∧ p.context? = some x.2 := by
  induction p with
  | showing _ _ ih => exact ih tagged
  | telling _ _ ih => exact ih tagged
  | loading | binding | entering | launching =>
    cases tagged
    exact ⟨rfl, rfl⟩
  | _ => cases tagged

/-- The number of a run that is to be made and has no context yet, given the next number. -/
def pending? (number : Nat) : ControlPoint α → Option Nat
  | resolving .. => some (number - 1)
  | showing _ next | telling _ next => next.pending? number
  | _ => none

theorem of_pending? {p : ControlPoint α} {number i : Nat} (pending : p.pending? number = some i) :
    p.id? number = some i ∧ p.tag? = none := by
  induction p with
  | showing _ _ ih => exact ih pending
  | telling _ _ ih => exact ih pending
  | resolving => exact ⟨pending, rfl⟩
  | _ => cases pending

@[simp] theorem pending?_afterFault (number : Nat) (starting : Bool) (fault : ControlFault) :
    (Controller.afterFault starting fault : ControlPoint α).pending? number = none := by
  cases starting <;> rfl

end ControlPoint

namespace Controller

variable {kind : ArtifactKind α} {here : Location} {c d : Controller α} {id : Nat} {run : Run α}

/-! ### Contexts that are in use -/

/-- The contexts of runs that their monitors have not disposed of. -/
def undisposed (runs : List (Run α)) : List ContextId :=
  (runs.filter fun r => r.monitor.rank ≤ 5).map Run.context

/-- The contexts of runs that were launched and are not yet torn down, or are prepared, or are being
made or forsaken. -/
def inUse (c : Controller α) : List ContextId :=
  undisposed c.runs ++ c.prepared.toList.map Run.context ++ c.control.context?.toList ++
    c.control.forsaken?.toList

theorem undisposed_eq_nil {runs : List (Run α)} (disposed : ∀ r ∈ runs, 6 ≤ r.monitor.rank) :
    undisposed runs = [] := by
  rw [undisposed, List.map_eq_nil_iff, List.filter_eq_nil_iff]
  intro r hr
  have := disposed r hr
  simp only [decide_eq_true_eq, not_le]
  omega

theorem undisposed_of_over {runs : List (Run α)} (spent : ∀ r ∈ runs, r.isOver) :
    undisposed runs = [] :=
  undisposed_eq_nil fun r hr => Nat.le_trans (by decide) (spent r hr)

theorem undisposed_concat (runs : List (Run α)) (run : Run α) :
    undisposed (runs ++ [run]) = undisposed runs ++
      if run.monitor.rank ≤ 5 then [run.context] else [] := by
  by_cases early : run.monitor.rank ≤ 5 <;> simp [undisposed, early]

/-- A change that leaves the contexts alone, and disposes of none. -/
theorem undisposed_changed {f : Run α → Run α} {runs : List (Run α)}
    (same : ∀ r ∈ runs, r.id = id →
      (f r).context = r.context ∧ ((f r).monitor.rank ≤ 5 ↔ r.monitor.rank ≤ 5)) :
    undisposed (changed id f runs) = undisposed runs := by
  induction runs with
  | nil => rfl
  | cons r runs ih =>
    have rest := ih fun s hs => same s (List.mem_cons_of_mem _ hs)
    have head : ∀ s : Run α, s.context = r.context → (s.monitor.rank ≤ 5 ↔ r.monitor.rank ≤ 5) →
        undisposed (s :: changed id f runs) = undisposed (r :: runs) := by
      intro s context disposed
      simp only [undisposed] at rest ⊢
      by_cases early : r.monitor.rank ≤ 5 <;> simp [early, disposed, context, rest]
    by_cases isOwn : r.id = id
    · obtain ⟨context, disposed⟩ := same r List.mem_cons_self isOwn
      have step : changed id f (r :: runs) = f r :: changed id f runs := by simp [changed, isOwn]
      exact step ▸ head _ context disposed
    · have step : changed id f (r :: runs) = r :: changed id f runs := by simp [changed, isOwn]
      exact step ▸ head r rfl Iff.rfl

theorem undisposed_sublist (c : Controller α) : (undisposed c.runs).Sublist c.contexts :=
  (List.filter_sublist.map Run.context).trans
    ((List.sublist_append_left _ _).trans (List.sublist_append_left _ _))

/-- At most one run was launched and is not yet torn down; as long as another one is made or
prepared there is none. -/
theorem Sound.inUse_le_one (sound : c.Sound) : c.inUse.length ≤ 1 := by
  have ready := sound.ready
  by_cases forsaking : c.control.forsaken? ≠ none
  · have spent := undisposed_of_over
      (ready.preparing (ControlPoint.prepares_of_forsaken? forsaking))
    have unprepared := ready.forsaking forsaking
    obtain ⟨x, isForsaken⟩ := Option.ne_none_iff_exists'.mp forsaking
    simp [inUse, spent, unprepared, isForsaken, ControlPoint.context?_of_forsaken? forsaking]
  rw [not_not] at forsaking
  by_cases making : c.control.context? = none
  · by_cases prepared : c.prepared = none
    · have rising := sound.numbered.rising.sublist c.undisposed_sublist
      have alike : ∀ x ∈ undisposed c.runs, ∀ y ∈ undisposed c.runs, x = y := by
        intro x hx y hy
        simp only [undisposed, List.mem_map, List.mem_filter, decide_eq_true_eq] at hx hy
        obtain ⟨r, ⟨hr, lowR⟩, rfl⟩ := hx
        obtain ⟨s, ⟨hs, lowS⟩, rfl⟩ := hy
        have present : ∀ r : Run α, r.monitor.rank ≤ 5 → ¬r.isOver := fun r low => by
          rw [Run.isOver]
          omega
        rw [sound.numbered.eq_of_id hr hs
          (sound.admitted.unique r hr s hs (present r lowR) (present s lowS))]
      simp only [inUse, making, forsaking, prepared, Option.toList_none, List.map_nil,
        List.append_nil]
      rcases found : undisposed c.runs with _ | ⟨x, _ | ⟨y, rest⟩⟩
      · simp
      · simp
      · rw [found] at rising alike
        have same := alike x (by simp) y (by simp)
        simp [same] at rising
    · have spent := undisposed_of_over (ready.prepared prepared)
      obtain ⟨run, isPrepared⟩ := Option.ne_none_iff_exists'.mp prepared
      simp [inUse, spent, making, forsaking, isPrepared]
  · have spent := undisposed_of_over (ready.preparing (ControlPoint.prepares_of_context? making))
    have unprepared := sound.numbered.unprepared (.inr making)
    obtain ⟨x, isMade⟩ := Option.ne_none_iff_exists'.mp making
    simp [inUse, spent, forsaking, unprepared, isMade]

theorem Sound.inUse_eq (sound : c.Sound) {x : ContextId} (member : x ∈ c.inUse) : c.inUse = [x] := by
  have single := sound.inUse_le_one
  rcases found : c.inUse with _ | ⟨y, _ | ⟨z, rest⟩⟩
  · simp [found] at member
  · rw [found, List.mem_singleton] at member
    rw [member]
  · simp [found] at single

/-! ### Every context is in use -/

/-- Whether the run contexts of the arena are those in use. -/
def Accounted (c : Controller α) : Prop := c.arena.runIds = c.inUse

/-- What does not concern contexts may change. -/
theorem Accounted.frame (accounted : c.Accounted) (arena : d.arena.runIds = c.arena.runIds)
    (runs : undisposed d.runs = undisposed c.runs) (prepared : d.prepared = c.prepared)
    (context : d.control.context? = c.control.context?)
    (forsaken : d.control.forsaken? = c.control.forsaken?) : d.Accounted := by
  rw [Accounted, arena, accounted, inUse, inUse, runs, prepared, context, forsaken]

/-- A context is disposed of when it goes out of use. -/
theorem Accounted.disposes {x : ContextId} (accounted : c.Accounted) (sound : c.Sound)
    (forest : c.arena.Forest) (member : x ∈ c.inUse)
    (arena : d.arena = (c.arena.dispose c.files here x).2.1) (unused : d.inUse = []) :
    d.Accounted := by
  rw [Accounted, unused, arena]
  exact forest.runIds_dispose_only _ _ (accounted.trans (sound.inUse_eq member))

theorem Accounted.controls (accounted : c.Accounted) (sound : c.Sound) (forest : c.arena.Forest)
    (step : Controls kind here c d) : d.Accounted := by
  have ready := sound.ready
  have unprepared := sound.numbered.unprepared
  -- As long as a run is made, none is in use but that one.
  have unused : c.control.prepares = true → undisposed c.runs = [] := fun preparing =>
    undisposed_of_over (ready.preparing preparing)
  cases step with
  | waits => exact accounted
  | discards point prepared =>
    have spent := unused (by rw [point]; rfl)
    exact accounted.disposes sound forest (by simp [inUse, prepared]) rfl
      (by simp [inUse, spent, ControlPoint.context?, ControlPoint.forsaken?])
  | abandons point =>
    have spent := unused (by rw [point]; rfl)
    have none := unprepared (.inr (by simp [point, ControlPoint.context?]))
    exact accounted.disposes sound forest
      (by simp [inUse, point, ControlPoint.context?, ControlPoint.forsaken?]) rfl
      (by simp [inUse, spent, none])
  | forsakes point =>
    have spent := unused (by rw [point]; rfl)
    have none := sound.ready.forsaking (by simp [point, ControlPoint.forsaken?])
    exact accounted.disposes sound forest (by simp [inUse, point, ControlPoint.forsaken?]) rfl
      (by simp [inUse, spent, none, ControlPoint.context?, ControlPoint.forsaken?])
  | misses point =>
    have spent := unused (by rw [point]; rfl)
    have none := unprepared (.inl (by simp [point, ControlPoint.id?]))
    have before : c.arena.runIds = [] := by
      rw [accounted]
      simp [inUse, spent, none, point, ControlPoint.context?, ControlPoint.forsaken?]
    have only : c.arena.createRun.1.runIds = [c.arena.createRun.2] := by
      rw [c.arena.runIds_createRun.1, before, List.nil_append]
    rw [Accounted]
    refine (forest.createRun.runIds_dispose_only _ _ only).trans ?_
    simp [inUse, spent, none]
  | @resolves _ _ name _ _ _ point done context =>
    have spent := unused (by rw [point]; rfl)
    have none := unprepared (.inl (by simp [point, ControlPoint.id?]))
    have before : c.arena.runIds = [] := by
      rw [accounted]
      simp [inUse, spent, none, point, ControlPoint.context?, ControlPoint.forsaken?]
    have kept := c.arena.createRun.1.runIds_load c.files here c.arena.createRun.2 name
    rw [done, c.arena.runIds_createRun.1, before] at kept
    rw [Accounted]
    refine kept.trans ?_
    simp [inUse, spent, none, ControlPoint.context?, ControlPoint.forsaken?, context]
  | @launches run point =>
    have new := sound.unstarted.inHand run (by rw [point]; rfl)
    have spent := unused (by rw [point]; rfl)
    have none := unprepared (.inl (by simp [point, ControlPoint.id?]))
    have launched : undisposed (c.runs ++ [run]) = [run.context] := by
      rw [undisposed_concat, spent, new.monitor]
      rfl
    rw [Accounted]
    refine accounted.trans ?_
    simp [inUse, launched, spent, none, point, ControlPoint.context?, ControlPoint.forsaken?]
  | spawnsMonitor point =>
    obtain ⟨run, member, rfl, unborn, -⟩ := sound.admitted.spawning _ _ (by rw [point]; rfl)
    refine accounted.frame rfl (undisposed_changed fun r hr same => ⟨rfl, ?_⟩) rfl
      (by rw [point]; rfl) (by rw [point]; rfl)
    rw [sound.numbered.eq_of_id hr member same, unborn]
    simp [MonitorPoint.rank]
  | spawnsWorker point | asksToStop point | turnsStepping point | advances point =>
    exact accounted.frame rfl (undisposed_changed fun _ _ _ => ⟨rfl, Iff.rfl⟩) rfl
      (by rw [point]; rfl) (by rw [point]; rfl)
  | setsStepping point _ prepared =>
    rw [Accounted]
    refine accounted.trans ?_
    simp [inUse, prepared, point, ControlPoint.context?, ControlPoint.forsaken?]
  | takes point prepared =>
    rw [Accounted]
    refine accounted.trans ?_
    simp [inUse, prepared, point, unused (by rw [point]; rfl), ControlPoint.context?,
      ControlPoint.forsaken?]
  | entersToStart point =>
    exact accounted.frame (c.arena.runIds_enter _) rfl rfl (by rw [point]; rfl) (by rw [point]; rfl)
  | prepares point =>
    have none := unprepared (.inl (by simp [point, ControlPoint.id?]))
    rw [Accounted]
    refine (c.arena.runIds_enter _).trans (accounted.trans ?_)
    simp [inUse, none, point, ControlPoint.context?, ControlPoint.forsaken?]
  | restores point =>
    exact accounted.frame c.arena.runIds_stage rfl rfl (by rw [point]; rfl) (by rw [point]; rfl)
  | refuses point | asks point | numbers point | failsToLoad point | loads point | binds point
  | admits point | rejects point | prepareAgain point | lacks point | unmarks point | yields point
  | givesBack point | stopsNothing point | silences point | silencesAgain point
  | silencesNothing point | flushes point | stepsNothing point | shows point | passes point
  | tells point =>
    exact accounted.frame rfl rfl rfl (by rw [point]; rfl) (by rw [point]; rfl)

/-- When a run is forsaken its context is still in use: no longer as that of a run, but as that of one
that is forsaken. -/
theorem Accounted.forsaken {worker : Bool} {strays : List (Run α)} {fault : ThreadFault}
    (accounted : c.Accounted) (sound : c.Sound) (member : run ∈ c.runs)
    (spawns : c.control.spawns? = some (run.id, worker)) :
    (c.forsaken run strays fault).Accounted := by
  obtain ⟨r, hr, same, unborn, -⟩ := sound.admitted.spawning _ _ spawns
  obtain rfl := sound.numbered.eq_of_id hr member same
  have after : (c.forsaken r strays fault).Admitted := sound.admitted.forsaken spawns
  have spent := (after.control rfl).2
  have none : c.prepared = none := by
    by_contra prepared
    exact Run.not_over_of_unborn unborn (sound.ready.prepared prepared r hr)
  have isInUse : r.context ∈ c.inUse := by
    refine List.mem_append_left _ (List.mem_append_left _ (List.mem_append_left _ ?_))
    exact List.mem_map_of_mem (List.mem_filter.mpr ⟨hr, by simp [unborn, MonitorPoint.rank]⟩)
  rw [Accounted]
  refine accounted.trans ((sound.inUse_eq isInUse).trans ?_)
  rw [inUse, undisposed_of_over spent]
  simp [none, ControlPoint.context?, ControlPoint.forsaken?]

/-- A monitor goes on to another point, and disposes of nothing. -/
theorem Accounted.monitors {f : Run α → Run α} {point : MonitorPoint} (accounted : c.Accounted)
    (numbered : c.Numbered) (member : run ∈ c.runs) (runs : d.runs = changed run.id f c.runs)
    (same : ∀ r, (f r).context = r.context ∧ (f r).monitor = point)
    (disposed : point.rank ≤ 5 ↔ run.monitor.rank ≤ 5) (arena : d.arena = c.arena)
    (prepared : d.prepared = c.prepared) (control : d.control = c.control) : d.Accounted := by
  refine accounted.frame (by rw [arena]) ?_ prepared (by rw [control]) (by rw [control])
  rw [runs]
  refine undisposed_changed fun r hr isOwn => ⟨(same r).1, ?_⟩
  rw [(same r).2, numbered.eq_of_id hr member isOwn, disposed]

theorem Accounted.tidies (accounted : c.Accounted) (sound : c.Sound) (forest : c.arena.Forest)
    (member : run ∈ c.runs) (step : Tidies here c run d) : d.Accounted := by
  have ready := sound.ready
  cases step with
  | disposes point =>
    have present : ¬run.isOver := by simp [Run.isOver, point, MonitorPoint.rank]
    have isInUse : run.context ∈ c.inUse := by
      refine List.mem_append_left _ (List.mem_append_left _
        (List.mem_append_left _ (List.mem_map_of_mem ?_)))
      exact List.mem_filter.mpr ⟨member, by simp [point, MonitorPoint.rank]⟩
    have undisposed : undisposed (changed run.id (fun r => { r with monitor := .reporting }) c.runs) =
        [] := by
      refine undisposed_eq_nil fun s hs => ?_
      rcases mem_changed.mp hs with ⟨hs, other⟩ | ⟨r, -, -, rfl⟩
      · have spent : s.isOver := by
          by_contra isOn
          exact other (sound.admitted.unique s hs run member isOn present)
        exact Nat.le_trans (by decide) spent
      · simp [MonitorPoint.rank]
    have none : c.prepared = none := by
      by_contra prepared
      exact present (ready.prepared prepared run member)
    have idle : c.control.context? = Option.none := by
      by_contra making
      exact present (ready.preparing (ControlPoint.prepares_of_context? making) run member)
    have calm : c.control.forsaken? = Option.none := by
      by_contra forsaking
      exact present (ready.preparing (ControlPoint.prepares_of_forsaken? forsaking) run member)
    exact accounted.disposes sound forest isInUse rfl (by simp [inUse, undisposed, none, idle, calm])
  | joins point | finishes point | releases point | releasesAgain point | flushes point
  | reports point | clears point | clearsNothing point | looks point | looksAway point
  | shows point | passes point | tells point | leaves point | calls point | delivers point =>
    exact accounted.monitors sound.numbered member rfl (fun _ => ⟨rfl, rfl⟩)
      (by simp [point, MonitorPoint.rank]) rfl rfl rfl

/-- Whether an event makes no run context in the arena and takes none away, unless the controller
does. -/
def Event.keepsRuns : Event → Bool
  | .arena work => work.keepsRuns
  | _ => true

theorem Accounted.happens {event : Event} (accounted : c.Accounted) (sound : c.Sound)
    (forest : c.arena.Forest) (keeps : event.keepsRuns = true)
    (happens : Happens kind here c event d) : d.Accounted := by
  have waits : c.idle = true → c.control.context? = none ∧ c.control.forsaken? = none := fun idle =>
    ⟨of_idle (f := ControlPoint.context?) idle (fun _ => rfl) fun _ => rfl,
      of_idle (f := ControlPoint.forsaken?) idle (fun _ => rfl) fun _ => rfl⟩
  cases happens with
  | controls step => exact accounted.controls sound forest step
  | tidies member step => exact accounted.tidies sound forest member step
  | works _ _ step =>
    cases step <;>
      exact accounted.frame rfl (undisposed_changed fun _ _ _ => ⟨rfl, Iff.rfl⟩) rfl rfl rfl
  | roams _ _ step => cases step <;> exact accounted.frame rfl rfl rfl rfl rfl
  | refuses member forsakes =>
    obtain ⟨worker, spawns⟩ := forsakes.spawns
    exact accounted.forsaken sound member spawns
  | @begins call idle =>
    obtain ⟨unmade, calm⟩ := waits idle
    refine accounted.frame rfl rfl rfl (by rw [atPoint_control, context?_entry, unmade]) ?_
    rw [atPoint_control, calm]
    cases call <;> rfl
  | givesUp idle prepared =>
    have spent := undisposed_of_over (sound.ready.prepared (by simp [prepared]))
    exact accounted.disposes sound forest (by simp [inUse, prepared]) rfl
      (by simp [inUse, spent, ControlPoint.context?, ControlPoint.forsaken?])
  | closes idle =>
    obtain ⟨unmade, calm⟩ := waits idle
    exact accounted.frame rfl rfl rfl (by rw [unmade]; rfl) (by rw [calm]; rfl)
  | arena => exact accounted.frame (forest.runIds_perform c.files here keeps) rfl rfl rfl rfl
  | _ => exact accounted.frame rfl rfl rfl rfl rfl

/-! ### Numbers and contexts are given once -/

/-- The numbers and contexts of all runs that were started, are prepared, or are being made, oldest
first. -/
def made (c : Controller α) : List (Nat × ContextId) :=
  c.runs.map Run.tag ++ c.prepared.toList.map Run.tag ++ c.control.tag?.toList

/-- The number of a run that is to be made and has no context yet. -/
def pending? (c : Controller α) : Option Nat := c.control.pending? c.nextRun

theorem tag?_entry (call : Call) : (call.entry : ControlPoint α).tag? = none := by
  cases call <;> rfl

theorem closes_entry (call : Call) : (call.entry : ControlPoint α).closes = false := by
  cases call <;> rfl

theorem pending?_entry (number : Nat) (call : Call) :
    (call.entry : ControlPoint α).pending? number = none := by
  cases call <;> rfl

theorem ids_made (c : Controller α) : (c.made.map Prod.fst).Sublist c.ids := by
  simp only [made, List.map_append, List.map_map]
  refine .append (.refl _) ?_
  cases tagged : c.control.tag? with
  | none => exact List.nil_sublist _
  | some x => simp [(ControlPoint.of_tag? tagged c.nextRun).1]

theorem contexts_made (c : Controller α) : (c.made.map Prod.snd).Sublist c.contexts := by
  simp only [made, List.map_append, List.map_map]
  refine .append (.refl _) ?_
  cases tagged : c.control.tag? with
  | none => exact List.nil_sublist _
  | some x => simp [(ControlPoint.of_tag? tagged c.nextRun).2]

/-- Numbers and contexts of runs both grow. -/
theorem Numbered.made (numbered : c.Numbered) :
    c.made.Pairwise fun x y => x.1 < y.1 ∧ x.2.number < y.2.number := by
  have increasing := List.pairwise_map.mp (numbered.increasing.sublist c.ids_made)
  have rising := List.pairwise_map.mp (numbered.rising.sublist c.contexts_made)
  exact increasing.and rising

/-- A run that is to be made has a greater number than all that are. -/
theorem Numbered.lt_pending (numbered : c.Numbered) {x : Nat × ContextId} {i : Nat}
    (member : x ∈ c.made) (pending : c.pending? = some i) : x.1 < i := by
  obtain ⟨isId, untagged⟩ := ControlPoint.of_pending? pending
  have increasing := numbered.increasing
  rw [Controller.ids, isId] at increasing
  rw [Controller.made, untagged, Option.toList_none, List.append_nil] at member
  refine (List.pairwise_append.mp increasing).2.2 x.1 ?_ i (by simp)
  have first := List.mem_map_of_mem (f := Prod.fst) member
  rwa [List.map_append, List.map_map, List.map_map] at first

/-- What an event does to numbers and contexts: it gives none, it gives the next number, or it gives
a context to the run that has a number already. -/
inductive Tags (c d : Controller α) : Prop where
  | recedes (pending : ∀ i, d.pending? = some i → c.pending? = some i)
    (made : d.made.Sublist c.made) : Tags c d
  | numbers (pending : d.pending? = some c.nextRun) (made : d.made.Sublist c.made) : Tags c d
  | completes (x : Nat × ContextId) (isPending : c.pending? = some x.1)
    (isNew : c.arena.next ≤ x.2.number) (pending : d.pending? = none) (made : d.made = c.made ++ [x]) :
    Tags c d

/-- No number and no context is given as long as the runs and the prepared one stay, and the control
thread gets nothing into its hands. -/
theorem Tags.frame (runs : d.runs.map Run.tag = c.runs.map Run.tag)
    (prepared : d.prepared.map Run.tag = c.prepared.map Run.tag)
    (tag : ∀ x, d.control.tag? = some x → c.control.tag? = some x)
    (pending : ∀ i, d.pending? = some i → c.pending? = some i) : Tags c d := by
  refine .recedes pending ?_
  rw [made, made, runs, ← Option.toList_map, ← Option.toList_map, prepared]
  exact (List.Sublist.refl _).append (toList_sublist tag)

theorem Controls.tags (step : Controls kind here c d) (unprepared : c.Making → c.prepared = none) :
    Tags c d := by
  cases step with
  | waits => exact .recedes (fun _ => id) (.refl _)
  | discards point prepared =>
    exact .numbers rfl (by simp [made, point, prepared, ControlPoint.tag?])
  | numbers point prepared =>
    exact .numbers rfl (by simp [made, point, prepared, ControlPoint.tag?])
  | @resolves _ _ _ _ _ loaded point done context =>
    have isNew : c.arena.next ≤ loaded.context.number := context ▸ c.arena.follows_stage.next
    have isPending : c.pending? = some (c.nextRun - 1) := by
      rw [pending?, point]
      rfl
    refine .completes (_, loaded.context) isPending isNew rfl ?_
    simp [made, point, ControlPoint.tag?]
  | spawnsWorker | spawnsMonitor | asksToStop | turnsStepping | advances =>
    refine .frame (map_changed (fun _ => ?_) c.runs) rfl (fun _ h => by cases h) fun _ h => by cases h
    rfl
  | setsStepping _ _ prepared =>
    exact .frame rfl (by rw [prepared]; rfl) (fun _ h => by cases h) fun _ h => by cases h
  | misses | abandons =>
    refine .frame rfl rfl (fun _ h => ?_) fun _ h => ?_
    · cases (ControlPoint.tag?_afterFault ..).symm.trans h
    · cases (ControlPoint.pending?_afterFault ..).symm.trans h
  | loads point | binds point | entersToStart point =>
    exact .frame rfl rfl (fun _ h => by rw [point]; exact h) fun _ h => by cases h
  | shows point | passes point | tells point =>
    exact .frame rfl rfl (fun _ h => by rw [point]; exact h) fun _ h => by
      rw [pending?, point]
      exact h
  | prepares | takes | launches =>
    -- The run passes from the hands of the control thread to the prepared or the started ones, or back.
    refine .recedes (fun _ h => by cases h) ?_
    simp_all [made, Making, Run.tag, ControlPoint.tag?, ControlPoint.id?, ControlPoint.context?]
  | _ => exact .frame rfl rfl (fun _ h => by cases h) fun _ h => by cases h

theorem Happens.tags {event : Event} (happens : Happens kind here c event d)
    (unprepared : c.Making → c.prepared = none) : Tags c d := by
  cases happens with
  | controls step => exact step.tags unprepared
  | tidies _ step =>
    cases step <;>
    · refine .frame (map_changed (fun _ => ?_) c.runs) rfl (fun _ => id) fun _ => id
      rfl
  | works _ _ step =>
    cases step <;>
    · refine .frame (map_changed (fun _ => ?_) c.runs) rfl (fun _ => id) fun _ => id
      rfl
  | roams _ _ step => cases step <;> exact .recedes (fun _ => id) (.refl _)
  | refuses =>
    exact .recedes (fun _ h => nomatch h)
      ((((without_sublist _ c.runs).map _).append (.refl _)).append (List.nil_sublist _))
  | begins =>
    exact .frame rfl rfl (fun _ h => nomatch (tag?_entry _).symm.trans h)
      fun _ h => nomatch (pending?_entry ..).symm.trans h
  | givesUp =>
    exact .recedes (fun _ h => nomatch h) (by simp [made, ControlPoint.tag?])
  | closes => exact .frame rfl rfl (fun _ h => nomatch h) fun _ h => nomatch h
  | _ => exact .frame rfl rfl (fun _ => id) fun _ => id

/-- Every run of a later state was there before, or has got its number and its context since. -/
structure Later (c d : Controller α) : Prop where
  nextRun : c.nextRun ≤ d.nextRun
  issued : c.arena.next ≤ d.arena.next
  pending : ∀ i, d.pending? = some i → c.pending? = some i ∨ c.nextRun ≤ i
  made : ∀ x ∈ d.made, x ∈ c.made ∨
    (c.pending? = some x.1 ∨ c.nextRun ≤ x.1) ∧ c.arena.next ≤ x.2.number

theorem Later.refl (c : Controller α) : Later c c :=
  ⟨Nat.le_refl _, Nat.le_refl _, fun _ => .inl, fun _ => .inl⟩

theorem Later.trans {e : Controller α} (first : Later c d) (second : Later d e) : Later c e := by
  have pending : ∀ i, d.pending? = some i ∨ d.nextRun ≤ i → c.pending? = some i ∨ c.nextRun ≤ i :=
    fun i h => h.elim (first.pending i) fun high => .inr (Nat.le_trans first.nextRun high)
  refine ⟨Nat.le_trans first.nextRun second.nextRun, Nat.le_trans first.issued second.issued,
    fun i h => pending i (second.pending i h), fun x member => ?_⟩
  rcases second.made x member with was | ⟨number, context⟩
  · exact first.made x was
  · exact .inr ⟨pending _ number, Nat.le_trans first.issued context⟩

theorem Happens.later {event : Event} (happens : Happens kind here c event d)
    (unprepared : c.Making → c.prepared = none) : Later c d := by
  have nextRun : c.nextRun ≤ d.nextRun := by
    rcases happens.grows unprepared with passes | numbers | step
    · exact passes.nextRun
    · exact numbers.nextRun ▸ Nat.le_succ _
    · exact Nat.le_of_eq step.nextRun.symm
  have issued := happens.follows.next
  cases happens.tags unprepared with
  | recedes pending made =>
    exact ⟨nextRun, issued, fun i h => .inl (pending i h), fun x h => .inl (made.subset h)⟩
  | numbers pending made =>
    refine ⟨nextRun, issued, fun i h => ?_, fun x h => .inl (made.subset h)⟩
    rw [pending] at h
    cases h
    exact .inr (Nat.le_refl _)
  | completes x isPending isNew pending made =>
    refine ⟨nextRun, issued, by simp [pending], fun y member => ?_⟩
    rw [made, List.mem_append, List.mem_singleton] at member
    rcases member with old | rfl
    · exact .inl old
    · exact .inr ⟨.inl isPending, isNew⟩

/-- A run with the number or the context of an earlier one is that run. -/
theorem Later.same {x y : Nat × ContextId} (later : Later c d) (numbered : c.Numbered)
    (hx : x ∈ c.made) (hy : y ∈ d.made) (shared : x.1 = y.1 ∨ x.2 = y.2) : y ∈ c.made ∧ x = y := by
  have given := numbered.given x.1 (c.ids_made.subset (List.mem_map_of_mem hx))
  have issued := numbered.issued x.2 (c.contexts_made.subset (List.mem_map_of_mem hx))
  rcases later.made y hy with old | ⟨number, context⟩
  · refine ⟨old, shared.elim (fun same => ?_) fun same => ?_⟩
    · have increasing := numbered.increasing.sublist c.ids_made
      exact List.inj_on_of_nodup_map (increasing.imp Nat.ne_of_lt) hx old same
    · have rising := numbered.rising.sublist c.contexts_made
      refine List.inj_on_of_nodup_map (rising.imp fun less equal => ?_) hx old same
      exact Nat.lt_irrefl _ (equal ▸ less)
  · exfalso
    rcases shared with same | same
    · rw [← same] at number
      rcases number with pending | number
      · exact Nat.lt_irrefl _ (numbered.lt_pending hx pending)
      · omega
    · rw [← same] at context
      omega

/-- No run is prepared when the controller has been given up. -/
theorem Happens.closed {event : Event} (happens : Happens kind here c event d)
    (closed : c.control.closes = true → c.prepared = none) :
    d.control.closes = true → d.prepared = none := by
  cases happens with
  | controls step =>
    cases step with
    | waits => exact closed
    | misses | abandons => exact fun h => nomatch (ControlPoint.closes_afterFault ..).symm.trans h
    | shows point | passes point | tells point => exact fun h => closed (by rw [point]; exact h)
    | _ => exact fun h => nomatch h
  | tidies _ step => cases step <;> exact closed
  | works _ _ step => cases step <;> exact closed
  | roams _ _ step => cases step <;> exact closed
  | refuses => exact fun h => nomatch h
  | begins => exact fun h => nomatch (closes_entry _).symm.trans h
  | givesUp => exact fun _ => rfl
  | closes _ unprepared => exact fun _ => unprepared
  | _ => exact closed

/-! ### The scratch directory -/

theorem Happens.swept {event : Event} {p : Path} {first : FileTree}
    (happens : Happens kind here c event d) (swept : Arena.Swept here p first c.arena c.files)
    (forest : c.arena.Forest) (isScratch : c.arena.scratchPath here = p)
    (proper : ∀ name ∈ here, Path.IsName name) (rooted : c.files.Rooted here)
    (files : ∀ files, event = .files files → FileTree.Spares here p c.files files)
    (spares : kind.Spares here p) : Arena.Swept here p first d.arena d.files := by
  have disposes : ∀ x, Arena.Swept here p first (c.arena.dispose c.files here x).2.1
      (c.arena.dispose c.files here x).1 := fun x =>
    swept.changes forest isScratch proper (c.arena.changes_dispose c.files here x)
  have performs : ∀ call, Arena.Swept here p first (c.arena.perform c.files here call).2.1
      (c.arena.perform c.files here call).1 := fun call =>
    swept.changes forest isScratch proper (forest.changes proper rooted call)
  -- A run context is made, and an artifact is loaded into it or not.
  have created := performs .createRun
  have samePath : c.arena.createRun.1.scratchPath here = p :=
    (congrArg here.path.join c.arena.scratchDir_stage).trans isScratch
  have loads : ∀ {name files arena answer},
      c.arena.createRun.1.load c.files here c.arena.createRun.2 name = (files, arena, answer) →
      Arena.Swept here p first arena files := by
    intro name files arena answer tried
    have changes := forest.createRun.changes proper rooted (.load c.arena.createRun.2 name)
    simp only [Arena.perform, tried] at changes
    exact created.changes forest.createRun samePath proper changes
  cases happens with
  | controls step =>
    cases step with
    | discards | abandons | forsakes => exact disposes _
    | entersToStart | prepares => exact performs (.enter _)
    | restores => exact performs .restoreStage
    | @misses _ _ files _ _ tried =>
      have failed : Arena.Swept here p first c.arena.createRun.1 files := by
        rcases tried with rfl | ⟨name, tried⟩
        · exact created
        · exact loads tried
      exact failed.changes forest.createRun samePath proper (Arena.changes_dispose ..)
    | resolves _ done => exact loads done
    | _ => exact swept
  | tidies _ step =>
    cases step with
    | disposes => exact disposes _
    | _ => exact swept
  | works _ _ step =>
    cases step with
    | went advanced => exact swept.spared (spares _ _ _ _ (by rw [advanced]; rfl))
    | ended advanced => exact swept.spared (spares _ _ _ _ (by rw [advanced]; rfl))
  | roams _ _ step =>
    cases step with
    | went advanced => exact swept.spared (spares _ _ _ _ (by rw [advanced]; rfl))
    | ended advanced => exact swept.spared (spares _ _ _ _ (by rw [advanced]; rfl))
  | givesUp => exact disposes _
  | arena => exact performs _
  | files => exact swept.spared (files _ rfl)
  | _ => exact swept

/-- An arena keeps its scratch directory, whatever happens. -/
theorem Happens.scratchPath {event : Event} (happens : Happens kind here c event d) :
    d.arena.scratchPath here = c.arena.scratchPath here := by
  obtain ⟨calls, same⟩ := happens.calls
  rw [same, Arena.scratchPath, Arena.scratchPath, Arena.scratchDir_afterCalls]

/-! ### Accounts -/

/-- Events that leave the accounts of a controller alone: nobody else makes run contexts or takes them
away, and nobody puts anything into the scratch directory, takes anything out of it, or moves it. -/
structure Undisturbed (here : Location) (p : Path) (c : Controller α) (event : Event) : Prop where
  rooted : c.files.Rooted here
  keepsRuns : event.keepsRuns = true
  files : ∀ files, event = .files files → FileTree.Spares here p c.files files

/-- What holds between two events. -/
structure Balanced (kind : ArtifactKind α) (here : Location) (p : Path) (first : FileTree)
    (c : Controller α) : Prop where
  sound : c.Sound
  forest : c.arena.Forest
  scratch : c.arena.scratchPath here = p
  accounted : c.Accounted
  closed : c.control.closes = true → c.prepared = none
  swept : kind.Spares here p → Arena.Swept here p first c.arena c.files

theorem Balanced.fresh (kind : ArtifactKind α) (here : Location) (settings : RunSettings)
    (hasListener : Bool) {arena : Arena} (forest : arena.Forest) (empty : arena.runs = [])
    (files : FileTree) : Balanced kind here (arena.scratchPath here) files
      (fresh settings hasListener arena files) where
  sound := .fresh ..
  forest := forest
  scratch := rfl
  accounted := by
    have none : arena.runIds = [] := congrArg (List.map ContextNode.id) empty
    exact none
  closed := by simp [Controller.fresh]
  swept _ := .start empty here _ files

theorem Balanced.happens {event : Event} {p : Path} {first : FileTree}
    (balanced : c.Balanced kind here p first) (proper : ∀ name ∈ here, Path.IsName name)
    (undisturbed : c.Undisturbed here p event) (happens : Happens kind here c event d) :
    d.Balanced kind here p first where
  sound := balanced.sound.happens happens
  forest := happens.forest balanced.forest
  scratch := happens.scratchPath.trans balanced.scratch
  accounted := balanced.accounted.happens balanced.sound balanced.forest undisturbed.keepsRuns happens
  closed := happens.closed balanced.closed
  swept spares := happens.swept (balanced.swept spares) balanced.forest balanced.scratch proper
    undisturbed.rooted undisturbed.files spares

/-- What a controller's accounts come to. -/
structure Accounts (kind : ArtifactKind α) (here : Location) (p : Path) (first : FileTree)
    (c : Controller α) : Prop where
  /-- Unless a run is being prepared or launched, the run contexts are those of the prepared run and of
  the active one, until its monitor has disposed of it. -/
  contexts : c.control.prepares = false → ∀ x, x ∈ c.arena.runIds ↔
    (∃ r, c.prepared = some r ∧ r.context = x) ∨
      ∃ r ∈ c.runs, c.active = some (r.id, x) ∧ r.context = x ∧ r.monitor.rank ≤ 5
  /-- At no time is there more than one. -/
  single : c.arena.liveRuns ≤ 1
  /-- Numbers and contexts of runs grow from one run to the next. -/
  ordered : c.made.Pairwise fun x y => x.1 < y.1 ∧ x.2.number < y.2.number
  /-- What has the number or the context of a run at a later time is that run, which has been there
  all the time. -/
  unique : ∀ d, Reaches kind here (Undisturbed here p) c d →
    ∀ e, Reaches kind here (Undisturbed here p) d e →
    ∀ x ∈ c.made, ∀ y ∈ e.made, x.1 = y.1 ∨ x.2 = y.2 → x = y ∧ x ∈ d.made
  /-- When the controller has been given up and the monitors are gone, there is no run context, and
  in the scratch directory there is what was there at first. -/
  closed : c.control = .closed → (∀ r ∈ c.runs, r.monitor = .gone) → c.arena.liveRuns = 0 ∧
    (kind.Spares here p → ∀ s, Path.IsName s → p.Avoids here (p.location here ++ [s]) →
      c.files.get? (p.location here ++ [s]) = first.get? (p.location here ++ [s]))

theorem Reaches.balanced {p : Path} {first : FileTree}
    (path : Reaches kind here (Undisturbed here p) c d) (proper : ∀ name ∈ here, Path.IsName name)
    (balanced : c.Balanced kind here p first) : d.Balanced kind here p first :=
  path.invariant balanced fun balanced undisturbed happens =>
    balanced.happens proper undisturbed happens

theorem Reaches.later {allows : Controller α → Event → Prop} (path : Reaches kind here allows c d)
    (numbered : c.Numbered) : Later c d :=
  (path.invariant (P := fun d => d.Numbered ∧ Later c d) ⟨numbered, .refl c⟩
    fun ⟨numbered, later⟩ _ happens =>
      ⟨numbered.happens happens, later.trans (happens.later numbered.unprepared)⟩).2

/-- A controller that alone makes run contexts in its arena accounts for all of them, however the
threads take turns. -/
theorem accounting {settings : RunSettings} {hasListener : Bool} {arena : Arena} {files : FileTree}
    (proper : ∀ name ∈ here, Path.IsName name) (forest : arena.Forest) (empty : arena.runs = [])
    (path : Reaches kind here (Undisturbed here (arena.scratchPath here))
      (fresh settings hasListener arena files) c) :
    c.Accounts kind here (arena.scratchPath here) files := by
  have balanced := path.balanced proper (.fresh kind here settings hasListener forest empty files)
  have sound := balanced.sound
  have accounted := balanced.accounted
  have swept := balanced.swept
  refine ⟨fun idle x => ?_, ?_, sound.numbered.made, fun d past e later x hx y hy shared => ?_,
    fun isClosed gone => ?_⟩
  · have none : c.control.context? = Option.none := by
      by_contra making
      simp [ControlPoint.prepares_of_context? making] at idle
    have calm : c.control.forsaken? = Option.none := by
      by_contra forsaking
      simp [ControlPoint.prepares_of_forsaken? forsaking] at idle
    rw [accounted]
    simp only [inUse, none, calm, Option.toList_none, List.append_nil, List.mem_append, undisposed,
      List.mem_map, List.mem_filter, decide_eq_true_eq, Option.mem_toList]
    constructor
    · rintro (⟨r, ⟨hr, early⟩, rfl⟩ | isPrepared)
      · exact .inr ⟨r, hr, sound.marked.marked r hr (by omega), rfl, early⟩
      · exact .inl isPrepared
    · rintro (isPrepared | ⟨r, hr, -, rfl, early⟩)
      · exact .inr isPrepared
      · exact .inl ⟨r, ⟨hr, early⟩, rfl⟩
  · rw [c.arena.liveRuns_eq, accounted]
    exact sound.inUse_le_one
  · have numbered := (past.sound sound).numbered
    have after := later.later numbered
    have between := past.later sound.numbered
    obtain ⟨-, rfl⟩ := (between.trans after).same sound.numbered hx hy shared
    refine ⟨rfl, (after.made x hy).resolve_right fun isNew => ?_⟩
    have issued := sound.numbered.issued x.2 (c.contexts_made.subset (List.mem_map_of_mem hx))
    have := between.issued
    omega
  · have unused : c.inUse = [] := by
      have spent : ∀ r ∈ c.runs, r.isOver := fun r hr => by
        rw [Run.isOver, gone r hr]
        decide
      have none := balanced.closed (by rw [isClosed]; rfl)
      simp [inUse, undisposed_of_over spent, none, isClosed, ControlPoint.context?,
        ControlPoint.forsaken?]
    have empty := accounted.trans unused
    refine ⟨by rw [c.arena.liveRuns_eq, empty]; rfl, fun spares s isName avoids => ?_⟩
    exact (swept spares).left empty isName avoids

end Controller

open Controller.Event in
/-- A run ends and is torn down, another one is prepared, and the controller is given up. -/
def Rehearsal.ending : List Controller.Event :=
  opening ++ List.replicate 5 (worker 1) ++ List.replicate 13 (monitor 1) ++
    call (.prepare staged) :: List.replicate 8 control ++ [close]

open Controller Rehearsal in
/-- When the rehearsed controller has been given up, its accounts are closed. -/
theorem Controller.accounting_rehearsed : ∃ c : Controller Artifact,
    Reaches twice [] (Undisturbed [] (stageArena.scratchPath [])) seated c ∧ c.control.closes = true ∧
      (∀ r ∈ c.runs, r.monitor = .gone) ∧ c.nextRun = 3 ∧
      c.Accounts twice [] (stageArena.scratchPath []) stageFiles := by
  have calm : ∀ event ∈ ending, event.keepsRuns = true ∧ ∀ files, event ≠ .files files := by
    simp [ending, opening, Event.keepsRuns]
  have givenUp : ((seated.after? twice [] ending).any fun c =>
      c.control.closes && ((c.runs.all fun r => r.monitor == .gone) && c.nextRun == 3)) = true := by
    decide +kernel
  obtain ⟨c, happened, facts⟩ := (Option.any_eq_true _ _).mp givenUp
  simp only [Bool.and_eq_true, List.all_eq_true, beq_iff_eq] at facts
  have path : Reaches twice [] (Undisturbed [] (stageArena.scratchPath [])) seated c :=
    reaches_of_after? (fun event member c => ⟨fun _ => rfl, (calm event member).1,
      fun files is => absurd is ((calm event member).2 files)⟩) happened
  exact ⟨c, path, facts.1, facts.2.1, facts.2.2,
    accounting (List.forall_mem_nil _) (Arena.Forest.fresh ..) rfl path⟩

end SimWorkbench
