import SimWorkbench.Proofs.Context.Lodging
import SimWorkbench.Proofs.Control.Events

/-!
# The numbers of runs

Every run has a number and a context of its own. Both grow from run to run, whatever the threads do
and whoever else works on the arena, so no number and no context is given twice.
-/
namespace SimWorkbench

variable {α : Type}

/-- The arena after some calls, each with the files that it finds. -/
def Arena.afterCalls (a : Arena) (here : Location) (calls : List (FileTree × ArenaCall)) : Arena :=
  calls.foldl (fun a x => (a.perform x.1 here x.2).2.1) a

theorem Arena.Forest.afterCalls {a : Arena} (forest : a.Forest) (here : Location)
    (calls : List (FileTree × ArenaCall)) : (a.afterCalls here calls).Forest := by
  induction calls generalizing a with
  | nil => exact forest
  | cons x calls ih => exact ih (forest.perform x.1 here x.2)

theorem Arena.follows_afterCalls (a : Arena) (here : Location) (calls : List (FileTree × ArenaCall)) :
    a.Follows (a.afterCalls here calls) := by
  induction calls generalizing a with
  | nil => exact .refl a
  | cons x calls ih => exact (a.follows_perform x.1 here x.2).trans (ih _)

theorem Arena.sameDirs_afterCalls (a : Arena) (here : Location) (calls : List (FileTree × ArenaCall)) :
    a.SameDirs (a.afterCalls here calls) := by
  induction calls generalizing a with
  | nil => exact ⟨rfl, rfl, rfl⟩
  | cons x calls ih => exact (a.sameDirs_perform x.1 here x.2).trans (ih _)

namespace ControlPoint

/-- The context of the run that the control thread makes or has in its hands. -/
def context? : ControlPoint α → Option ContextId
  | loading _ _ _ loaded _ | binding _ _ _ loaded _ => some loaded.context
  | abandoning _ context _ => some context
  | entering _ _ run | launching run => some run.context
  | showing _ next | telling _ next => next.context?
  | _ => none

@[simp] theorem context?_afterFault (starting : Bool) (fault : ControlFault) :
    (Controller.afterFault starting fault : ControlPoint α).context? = none := by
  cases starting <;> rfl

/-- The run that the control thread has in its hands. -/
def run? : ControlPoint α → Option (Run α)
  | entering _ _ run | launching run => some run
  | showing _ next | telling _ next => next.run?
  | _ => none

@[simp] theorem run?_afterFault (starting : Bool) (fault : ControlFault) :
    (Controller.afterFault starting fault : ControlPoint α).run? = none := by
  cases starting <;> rfl

/-- The number of the run that the control thread makes or has in its hands, given the next one. -/
def id? (number : Nat) : ControlPoint α → Option Nat
  | resolving .. => some (number - 1)
  | loading _ _ id _ _ | binding _ _ id _ _ => some id
  | entering _ _ run | launching run => some run.id
  | showing _ next | telling _ next => next.id? number
  | _ => none

@[simp] theorem id?_afterFault (number : Nat) (starting : Bool) (fault : ControlFault) :
    (Controller.afterFault starting fault : ControlPoint α).id? number = none := by
  cases starting <;> rfl

end ControlPoint

/-- What a run keeps for good. -/
def Run.marks (r : Run α) : Nat × ContextId × Path × Handle := (r.id, r.context, r.name, r.handle)

/-- A run that was not started: nothing was asked of it, nothing came of it. -/
structure Run.IsNew (r : Run α) : Prop where
  channel : r.channel = .fresh
  properties : r.properties = []
  worker : r.worker = .unborn
  monitor : r.monitor = .unborn
  report : r.report = none

namespace Controller

variable {kind : ArtifactKind α} {here : Location} {c d : Controller α} {id : Nat} {run : Run α}

/-! ### The arena -/

/-- Whatever happens works on the arena by calls. -/
theorem Happens.calls {event : Event} (happens : Happens kind here c event d) :
    ∃ calls, d.arena = c.arena.afterCalls here calls := by
  cases happens with
  | controls step =>
    cases step with
    | discards => exact ⟨[(c.files, .dispose _)], rfl⟩
    | misses => exact ⟨[(c.files, .createRun), (_, .dispose _)], rfl⟩
    | @resolves _ _ name _ _ _ _ done =>
      exact ⟨[(c.files, .createRun), (c.files, .load c.arena.createRun.2 name)],
        by simp [Arena.afterCalls, Arena.perform, done]⟩
    | abandons | forsakes => exact ⟨[(c.files, .dispose _)], rfl⟩
    | entersToStart => exact ⟨[(c.files, .enter _)], rfl⟩
    | prepares => exact ⟨[(c.files, .enter _)], rfl⟩
    | restores => exact ⟨[(c.files, .restoreStage)], rfl⟩
    | _ => exact ⟨[], rfl⟩
  | tidies _ step =>
    cases step with
    | disposes => exact ⟨[(c.files, .dispose _)], rfl⟩
    | _ => exact ⟨[], rfl⟩
  | works _ _ step => cases step <;> exact ⟨[], rfl⟩
  | roams _ _ step => cases step <;> exact ⟨[], rfl⟩
  | givesUp => exact ⟨[(c.files, .dispose _)], rfl⟩
  | arena => exact ⟨[(c.files, _)], rfl⟩
  | _ => exact ⟨[], rfl⟩

theorem Happens.sameDirs {event : Event} (happens : Happens kind here c event d) :
    c.arena.SameDirs d.arena := by
  obtain ⟨calls, same⟩ := happens.calls
  exact same ▸ c.arena.sameDirs_afterCalls here calls

theorem Happens.forest {event : Event} (happens : Happens kind here c event d)
    (forest : c.arena.Forest) : d.arena.Forest := by
  obtain ⟨calls, same⟩ := happens.calls
  exact same ▸ forest.afterCalls here calls

theorem Happens.follows {event : Event} (happens : Happens kind here c event d) :
    c.arena.Follows d.arena := by
  obtain ⟨calls, same⟩ := happens.calls
  exact same ▸ c.arena.follows_afterCalls here calls

/-! ### Numbers and contexts grow -/

/-- The numbers of all runs that were started, are prepared, or are being made, oldest first. -/
def ids (c : Controller α) : List Nat :=
  c.runs.map Run.id ++ c.prepared.toList.map Run.id ++ (c.control.id? c.nextRun).toList

/-- Their contexts. -/
def contexts (c : Controller α) : List ContextId :=
  c.runs.map Run.context ++ c.prepared.toList.map Run.context ++ c.control.context?.toList

/-- Whether the control thread makes a run or has one in its hands. -/
def Making (c : Controller α) : Prop :=
  c.control.id? c.nextRun ≠ none ∨ c.control.context? ≠ none

/-- An event that gives no number and makes no context takes runs out of hand, or moves them on. -/
structure Passes (c d : Controller α) : Prop where
  ids : d.ids.Sublist c.ids
  contexts : d.contexts.Sublist c.contexts
  nextRun : c.nextRun ≤ d.nextRun
  unprepared : d.Making → d.prepared = none

/-- A number is given. -/
structure Numbers (c d : Controller α) : Prop where
  runs : d.runs = c.runs
  unprepared : d.prepared = none
  control : ∃ descriptor starting, d.control = .resolving descriptor starting
  nextRun : d.nextRun = c.nextRun + 1

/-- A context is made, and an artifact is loaded into it. -/
structure Contextualizes (here : Location) (c d : Controller α) : Prop where
  resolving : ∃ descriptor starting, c.control = .resolving descriptor starting
  runs : d.runs = c.runs
  prepared : d.prepared = c.prepared
  nextRun : d.nextRun = c.nextRun
  loading : ∃ descriptor starting loaded places,
    d.control = .loading descriptor starting (c.nextRun - 1) loaded places ∧
      loaded.context = c.arena.createRun.2
  arena : ∃ name,
    d.arena = (c.arena.createRun.1.load c.files here c.arena.createRun.2 name).2.1

theorem id?_entry (number : Nat) (call : Call) : (call.entry : ControlPoint α).id? number = none := by
  cases call <;> rfl

theorem context?_entry (call : Call) : (call.entry : ControlPoint α).context? = none := by
  cases call <;> rfl

theorem toList_sublist {β : Type} {o p : Option β} (kept : ∀ x, o = some x → p = some x) :
    o.toList.Sublist p.toList := by
  cases o with
  | none => exact List.nil_sublist _
  | some x => rw [kept x rfl]

/-- No number is given and no context is made as long as the runs and the prepared one stay, and the
control thread gets nothing into its hands. -/
theorem Passes.of_marks (unprepared : c.Making → c.prepared = none)
    (runs : d.runs.map Run.marks = c.runs.map Run.marks)
    (prepared : d.prepared.map Run.marks = c.prepared.map Run.marks) (nextRun : d.nextRun = c.nextRun)
    (id : ∀ i, d.control.id? c.nextRun = some i → c.control.id? c.nextRun = some i)
    (context : ∀ x, d.control.context? = some x → c.control.context? = some x) : c.Passes d := by
  have marks : (d.runs ++ d.prepared.toList).map Run.marks =
      (c.runs ++ c.prepared.toList).map Run.marks := by
    rw [List.map_append, List.map_append, runs, ← Option.toList_map, ← Option.toList_map, prepared]
  have listed : ∀ {β : Type} (f : Nat × ContextId × Path × Handle → β),
      (d.runs ++ d.prepared.toList).map (f ∘ Run.marks) =
        (c.runs ++ c.prepared.toList).map (f ∘ Run.marks) := by
    intro β f
    rw [← List.map_map, ← List.map_map, marks]
  have numbers : (d.runs ++ d.prepared.toList).map Run.id = (c.runs ++ c.prepared.toList).map Run.id :=
    listed Prod.fst
  have places : (d.runs ++ d.prepared.toList).map Run.context =
      (c.runs ++ c.prepared.toList).map Run.context := listed fun marks => marks.2.1
  refine ⟨?_, ?_, Nat.le_of_eq nextRun.symm, fun making => ?_⟩
  · rw [Controller.ids, Controller.ids, nextRun, ← List.map_append, ← List.map_append, numbers]
    exact (List.Sublist.refl _).append (toList_sublist id)
  · rw [Controller.contexts, Controller.contexts, ← List.map_append, ← List.map_append, places]
    exact (List.Sublist.refl _).append (toList_sublist context)
  · have none : c.prepared = none := by
      refine unprepared (making.imp (fun given => ?_) fun made => ?_)
      · obtain ⟨i, is⟩ := Option.ne_none_iff_exists'.mp (nextRun ▸ given)
        exact fun none => nomatch none.symm.trans (id i is)
      · obtain ⟨x, is⟩ := Option.ne_none_iff_exists'.mp made
        exact fun none => nomatch none.symm.trans (context x is)
    rw [none] at prepared
    exact Option.map_eq_none_iff.mp prepared

theorem Controls.grows (step : Controls kind here c d) (unprepared : c.Making → c.prepared = none) :
    c.Passes d ∨ c.Numbers d ∨ c.Contextualizes here d := by
  cases step with
  | waits => exact .inl ⟨.refl _, .refl _, Nat.le_refl _, unprepared⟩
  | discards => exact .inr (.inl ⟨rfl, rfl, ⟨_, _, rfl⟩, rfl⟩)
  | numbers _ none => exact .inr (.inl ⟨rfl, none, ⟨_, _, rfl⟩, rfl⟩)
  | resolves point done context =>
    exact .inr (.inr ⟨⟨_, _, point⟩, rfl, rfl, rfl, ⟨_, _, _, _, rfl, context⟩, _, by rw [done]; rfl⟩)
  | refuses | asks | admits | rejects | prepareAgain | lacks | unmarks | forsakes | yields | givesBack
  | stopsNothing | silences | silencesAgain | silencesNothing | flushes | restores | stepsNothing =>
    exact .inl (.of_marks unprepared rfl rfl rfl (fun _ h => nomatch h) fun _ h => nomatch h)
  | spawnsWorker | spawnsMonitor | asksToStop | turnsStepping | advances =>
    refine .inl (.of_marks unprepared (map_changed (fun _ => ?_) c.runs) rfl rfl
      (fun _ h => nomatch h) fun _ h => nomatch h)
    rfl
  | misses | abandons =>
    exact .inl (.of_marks unprepared rfl rfl rfl
      (fun _ h => nomatch (ControlPoint.id?_afterFault ..).symm.trans h)
      fun _ h => nomatch (ControlPoint.context?_afterFault ..).symm.trans h)
  | failsToLoad point =>
    exact .inl (.of_marks unprepared rfl rfl rfl (fun _ h => nomatch h) fun _ h => by
      rw [point]
      exact h)
  | loads point | binds point | entersToStart point | shows point | passes point | tells point =>
    exact .inl (.of_marks unprepared rfl rfl rfl (fun _ h => by rw [point]; exact h) fun _ h => by
      rw [point]
      exact h)
  | setsStepping _ _ prepared =>
    exact .inl (.of_marks unprepared rfl (by rw [prepared]; rfl) rfl (fun _ h => nomatch h)
      fun _ h => nomatch h)
  | prepares | takes | launches =>
    -- The run passes from the hands of the control thread to the prepared or the started ones, or back.
    refine .inl ⟨?_, ?_, ?_, ?_⟩ <;>
      simp_all [ids, contexts, Making, ControlPoint.id?, ControlPoint.context?]

/-- Whatever happens gives a number, makes a context, or does neither. -/
theorem Happens.grows {event : Event} (happens : Happens kind here c event d)
    (unprepared : c.Making → c.prepared = none) :
    c.Passes d ∨ c.Numbers d ∨ c.Contextualizes here d := by
  cases happens with
  | controls step => exact step.grows unprepared
  | tidies _ step =>
    -- Runs keep their numbers and contexts, and nothing else that is numbered is touched.
    cases step <;>
    · refine .inl (.of_marks unprepared (map_changed (fun _ => ?_) c.runs) rfl rfl (fun _ h => h)
        fun _ h => h)
      rfl
  | works _ _ step =>
    cases step <;>
    · refine .inl (.of_marks unprepared (map_changed (fun _ => ?_) c.runs) rfl rfl (fun _ h => h)
        fun _ h => h)
      rfl
  | roams _ _ step => cases step <;> exact .inl ⟨.refl _, .refl _, Nat.le_refl _, unprepared⟩
  | refuses =>
    -- A run that is forsaken is none of those that the control thread has in its hands.
    refine .inl ⟨?_, ?_, Nat.le_refl _, fun making => ?_⟩
    · exact (((without_sublist _ c.runs).map _).append (.refl _)).append (List.nil_sublist _)
    · exact (((without_sublist _ c.runs).map _).append (.refl _)).append (List.nil_sublist _)
    · exact making.elim (absurd rfl) (absurd rfl)
  | begins =>
    exact .inl (.of_marks unprepared rfl rfl rfl (fun _ h => nomatch (id?_entry ..).symm.trans h)
      fun _ h => nomatch (context?_entry _).symm.trans h)
  | givesUp | closes =>
    exact .inl ⟨by simp [ids, ControlPoint.id?], by simp [contexts, ControlPoint.context?],
      Nat.le_refl _, by simp [Making, ControlPoint.id?, ControlPoint.context?]⟩
  | _ => exact .inl ⟨.refl _, .refl _, Nat.le_refl _, unprepared⟩

/-- Runs are only added, one by one, as they are launched, or taken away when they are forsaken. -/
theorem Happens.runs {event : Event} (happens : Happens kind here c event d) :
    d.runs.map Run.marks = c.runs.map Run.marks ∨
      (∃ run, c.control = .launching run ∧ d.runs = c.runs ++ [run] ∧
        d.control = .showing .running (.spawningWorker run.id)) ∨
      ∃ cause, event = .refusal cause := by
  cases happens with
  | controls step =>
    cases step with
    | launches point => exact .inr (.inl ⟨_, point, rfl, rfl⟩)
    | spawnsWorker | spawnsMonitor | asksToStop | turnsStepping | advances =>
      refine .inl (map_changed (fun _ => ?_) c.runs)
      rfl
    | _ => exact .inl rfl
  | works _ _ step =>
    cases step <;>
    · refine .inl (map_changed (fun _ => ?_) c.runs)
      rfl
  | tidies _ step =>
    cases step <;>
    · refine .inl (map_changed (fun _ => ?_) c.runs)
      rfl
  | roams _ _ step => cases step <;> exact .inl rfl
  | refuses => exact .inr (.inr ⟨_, rfl⟩)
  | _ => exact .inl rfl

/-- No run is lost, unless it is forsaken. -/
theorem Happens.kept {event : Event} (happens : Happens kind here c event d)
    (granted : ∀ cause, event ≠ .refusal cause) (member : run ∈ c.runs) :
    ∃ s ∈ d.runs, s.marks = run.marks := by
  rcases happens.runs with same | ⟨added, -, runs, -⟩ | ⟨cause, refused⟩
  · exact List.mem_map.mp (same ▸ List.mem_map_of_mem member)
  · exact ⟨run, runs ▸ List.mem_append_left _ member, rfl⟩
  · exact absurd refused (granted cause)

theorem Happens.kept_id {event : Event} (happens : Happens kind here c event d)
    (granted : ∀ cause, event ≠ .refusal cause) (i : Nat) (present : ∃ r ∈ c.runs, r.id = i) :
    ∃ r ∈ d.runs, r.id = i := by
  obtain ⟨r, hr, rfl⟩ := present
  obtain ⟨s, hs, same⟩ := happens.kept granted hr
  exact ⟨s, hs, congrArg Prod.fst same⟩

theorem Happens.ids {event : Event} (happens : Happens kind here c event d) :
    d.runs.map Run.id = c.runs.map Run.id ∨ (∃ run, c.control = .launching run ∧
      d.runs.map Run.id = c.runs.map Run.id ++ [run.id] ∧
      d.control = .showing .running (.spawningWorker run.id)) ∨
      ∃ cause, event = .refusal cause := by
  have first : ∀ runs : List (Run α), runs.map Run.id = (runs.map Run.marks).map Prod.fst :=
    fun runs => by rw [List.map_map]; rfl
  rcases happens.runs with same | ⟨run, point, runs, next⟩ | refused
  · exact .inl (by rw [first, first, same])
  · exact .inr (.inl ⟨run, point, by rw [runs, List.map_append]; rfl, next⟩)
  · exact .inr (.inr refused)

/-- What holds of the numbers of runs between two events. -/
structure Numbered (c : Controller α) : Prop where
  increasing : c.ids.Pairwise (· < ·)
  rising : c.contexts.Pairwise fun x y => x.number < y.number
  given : ∀ i ∈ c.ids, i < c.nextRun
  issued : ∀ x ∈ c.contexts, x.number < c.arena.next
  /-- A run is not made as long as another one is prepared. -/
  unprepared : c.Making → c.prepared = none

theorem Numbered.passes (numbered : c.Numbered) (passes : c.Passes d)
    (next : c.arena.next ≤ d.arena.next) : d.Numbered where
  increasing := numbered.increasing.sublist passes.ids
  rising := numbered.rising.sublist passes.contexts
  given i member := Nat.lt_of_lt_of_le (numbered.given i (passes.ids.subset member)) passes.nextRun
  issued x member := Nat.lt_of_lt_of_le (numbered.issued x (passes.contexts.subset member)) next
  unprepared := passes.unprepared

/-- A new number is greater than all that were given. -/
theorem Numbered.numbers (numbered : c.Numbered) (numbers : c.Numbers d)
    (next : c.arena.next ≤ d.arena.next) : d.Numbered := by
  obtain ⟨runs, unprepared, ⟨descriptor, starting, control⟩, nextRun⟩ := numbers
  have ids : d.ids = c.runs.map Run.id ++ [c.nextRun] := by
    simp [Controller.ids, runs, unprepared, control, nextRun, ControlPoint.id?]
  have contexts : d.contexts = c.runs.map Run.context := by
    simp [Controller.contexts, runs, unprepared, control, ControlPoint.context?]
  have older : ∀ i ∈ c.runs.map Run.id, i < c.nextRun := fun i member =>
    numbered.given i (List.mem_append_left _ (List.mem_append_left _ member))
  have increasing := (List.pairwise_append.mp (List.pairwise_append.mp numbered.increasing).1).1
  have rising := (List.pairwise_append.mp (List.pairwise_append.mp numbered.rising).1).1
  refine ⟨?_, contexts ▸ rising, ?_, ?_, fun _ => unprepared⟩
  · rw [ids]
    exact List.pairwise_append.mpr ⟨increasing, by simp, fun i member j last => by
      rw [List.mem_singleton.mp last]
      exact older i member⟩
  · intro i member
    rw [ids, List.mem_append, List.mem_singleton] at member
    rcases member with member | rfl
    · exact nextRun ▸ Nat.lt_succ_of_lt (older i member)
    · exact nextRun ▸ Nat.lt_succ_self _
  · intro x member
    rw [contexts] at member
    exact Nat.lt_of_lt_of_le
      (numbered.issued x (List.mem_append_left _ (List.mem_append_left _ member))) next

/-- A run context that is made is greater than all others. -/
theorem Numbered.contextualizes (numbered : c.Numbered) (step : c.Contextualizes here d) :
    d.Numbered := by
  obtain ⟨⟨_, _, point⟩, runs, prepared, nextRun, ⟨_, _, loaded, _, control, context⟩, name, arena⟩ :=
    step
  have unprepared := numbered.unprepared (.inl (by simp [point, ControlPoint.id?]))
  have grows : c.arena.next ≤ c.arena.createRun.2.number := c.arena.follows_stage.next
  have made : c.arena.createRun.2.number < d.arena.next :=
    Nat.lt_of_lt_of_le (Nat.lt_succ_self c.arena.createRun.2.number)
      (arena ▸ (c.arena.createRun.1.follows_load ..).next)
  have contexts : c.contexts = c.runs.map Run.context := by
    simp [Controller.contexts, unprepared, point, ControlPoint.context?]
  have older : ∀ x ∈ c.runs.map Run.context, x.number < c.arena.createRun.2.number :=
    fun x member => Nat.lt_of_lt_of_le (numbered.issued x (contexts ▸ member)) grows
  have ids : d.ids = c.ids := by
    simp [Controller.ids, runs, prepared, control, point, ControlPoint.id?]
  have appended : d.contexts = c.runs.map Run.context ++ [c.arena.createRun.2] := by
    simp [Controller.contexts, runs, prepared, unprepared, control, context, ControlPoint.context?]
  refine ⟨ids ▸ numbered.increasing, ?_, ids ▸ nextRun ▸ numbered.given, ?_,
    fun _ => prepared.trans unprepared⟩
  · rw [appended]
    exact List.pairwise_append.mpr ⟨contexts ▸ numbered.rising, by simp, fun x member y last => by
      rw [List.mem_singleton.mp last]
      exact older x member⟩
  · intro x member
    rw [appended, List.mem_append, List.mem_singleton] at member
    rcases member with member | rfl
    · exact Nat.lt_trans (older x member) made
    · exact made

theorem Numbered.happens {event : Event} (numbered : c.Numbered)
    (happens : Happens kind here c event d) : d.Numbered := by
  have next := happens.follows.next
  rcases happens.grows numbered.unprepared with passes | numbers | step
  · exact numbered.passes passes next
  · exact numbered.numbers numbers next
  · exact numbered.contextualizes step

theorem Numbered.fresh (settings : RunSettings) (hasListener : Bool) (arena : Arena)
    (files : FileTree) : (fresh settings hasListener arena files : Controller α).Numbered := by
  constructor <;>
    simp [Controller.fresh, ids, contexts, Making, ControlPoint.id?, ControlPoint.context?]

/-- A run that is in the hands of the control thread has a number that no started run has. -/
theorem Numbered.ne_of_launching (numbered : c.Numbered) (point : c.control = .launching run) :
    ∀ r ∈ c.runs, r.id ≠ run.id := by
  intro r hr
  have increasing := numbered.increasing
  rw [Controller.ids, point] at increasing
  have less := (List.pairwise_append.mp increasing).2.2 r.id
    (List.mem_append_left _ (List.mem_map_of_mem hr)) run.id (by simp [ControlPoint.id?])
  exact Nat.ne_of_lt less

/-- Two runs with one number are the same run. -/
theorem Numbered.eq_of_id (numbered : c.Numbered) {r s : Run α} (hr : r ∈ c.runs) (hs : s ∈ c.runs)
    (same : r.id = s.id) : r = s := by
  have increasing := (List.pairwise_append.mp (List.pairwise_append.mp numbered.increasing).1).1
  exact List.inj_on_of_nodup_map (increasing.imp Nat.ne_of_lt) hr hs same

/-- What holds of one run after its change, and of the others, holds of all. -/
theorem Numbered.forall_changed (numbered : c.Numbered) (member : run ∈ c.runs)
    {f : Run α → Run α} {P : Run α → Prop} (own : P (f run))
    (others : ∀ r ∈ c.runs, r.id ≠ run.id → P r) : ∀ s ∈ changed run.id f c.runs, P s := by
  intro s hs
  rcases mem_changed.mp hs with ⟨hs, other⟩ | ⟨r, hr, same, rfl⟩
  · exact others s hs other
  · rw [numbered.eq_of_id hr member same]
    exact own

/-- Two runs with one context are the same run. -/
theorem Numbered.eq_of_context (numbered : c.Numbered) {r s : Run α} (hr : r ∈ c.runs)
    (hs : s ∈ c.runs) (same : r.context = s.context) : r = s := by
  have rising := (List.pairwise_append.mp (List.pairwise_append.mp numbered.rising).1).1
  refine List.inj_on_of_nodup_map (rising.imp fun less equal => ?_) hr hs same
  exact Nat.lt_irrefl _ (equal ▸ less)

/-- The run that is found by its number. -/
theorem Numbered.run?_of_mem (numbered : c.Numbered) (member : run ∈ c.runs) :
    c.run? run.id = some run := by
  cases found : c.run? run.id with
  | none => exact absurd (List.find?_eq_none.mp found run member) (by simp)
  | some other =>
    obtain ⟨isMember, same⟩ := mem_of_run? found
    rw [numbered.eq_of_id isMember member same]

/-! ### Runs that were not started -/

/-- The prepared run and the one in the hands of the control thread were not started. -/
structure Unstarted (c : Controller α) : Prop where
  prepared : ∀ run, c.prepared = some run → run.IsNew
  inHand : ∀ run, c.control.run? = some run → run.IsNew

theorem Unstarted.fresh (settings : RunSettings) (hasListener : Bool) (arena : Arena)
    (files : FileTree) : (fresh settings hasListener arena files : Controller α).Unstarted := by
  constructor <;> simp [Controller.fresh, ControlPoint.run?]

/-- No run comes from anywhere else. -/
theorem Unstarted.frame (unstarted : c.Unstarted)
    (prepared : ∀ run, d.prepared = some run → c.prepared = some run ∨ c.control.run? = some run)
    (inHand : ∀ run, d.control.run? = some run → c.prepared = some run ∨ c.control.run? = some run) :
    d.Unstarted :=
  ⟨fun run is => (prepared run is).elim (unstarted.prepared run) (unstarted.inHand run),
    fun run is => (inHand run is).elim (unstarted.prepared run) (unstarted.inHand run)⟩

theorem Unstarted.controls (unstarted : c.Unstarted) (step : Controls kind here c d) :
    d.Unstarted := by
  cases step with
  | waits => exact unstarted
  | binds =>
    exact ⟨unstarted.prepared, fun run made => by cases made; exact ⟨rfl, rfl, rfl, rfl, rfl⟩⟩
  | setsStepping _ _ isPrepared =>
    have new := unstarted.prepared _ isPrepared
    exact ⟨fun run same => by cases same; exact ⟨new.1, new.2, new.3, new.4, new.5⟩,
      fun _ h => nomatch h⟩
  | prepares point =>
    exact unstarted.frame (fun _ h => .inr (by rw [point]; exact h)) fun _ h => nomatch h
  | takes _ isPrepared =>
    exact unstarted.frame (fun _ h => nomatch h) fun _ h => .inl (isPrepared.trans h)
  | discards => exact unstarted.frame (fun _ h => nomatch h) fun _ h => nomatch h
  | misses | abandons =>
    exact unstarted.frame (fun _ h => .inl h)
      fun _ h => nomatch (ControlPoint.run?_afterFault ..).symm.trans h
  | entersToStart point | shows point | passes point | tells point =>
    exact unstarted.frame (fun _ h => .inl h) fun _ h => .inr (by rw [point]; exact h)
  | _ => exact unstarted.frame (fun _ h => .inl h) fun _ h => nomatch h

theorem run?_entry (call : Call) : (call.entry : ControlPoint α).run? = none := by
  cases call <;> rfl

theorem Unstarted.happens {event : Event} (unstarted : c.Unstarted)
    (happens : Happens kind here c event d) : d.Unstarted := by
  cases happens with
  | controls step => exact unstarted.controls step
  | begins => exact ⟨unstarted.prepared, by simp [run?_entry]⟩
  | works _ _ step => cases step <;> exact ⟨unstarted.prepared, unstarted.inHand⟩
  | tidies _ step => cases step <;> exact ⟨unstarted.prepared, unstarted.inHand⟩
  | roams _ _ step => cases step <;> exact ⟨unstarted.prepared, unstarted.inHand⟩
  | refuses => exact ⟨unstarted.prepared, by simp [ControlPoint.run?]⟩
  | givesUp => exact ⟨by simp, by simp [ControlPoint.run?]⟩
  | closes => exact ⟨unstarted.prepared, by simp [ControlPoint.run?]⟩
  | _ => exact ⟨unstarted.prepared, unstarted.inHand⟩

end Controller
end SimWorkbench
