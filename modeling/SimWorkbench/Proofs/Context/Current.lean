import SimWorkbench.Proofs.Context.Account

/-!
# The current context

An arena has a current context, which calls move from one to another. A retired stage is kept as
long as run contexts stand on it, and can still be entered; when the last of them is taken away, it
goes too. So the current context is there as long as nobody enters a retired stage, and whenever it
goes, it is such a stage that goes with the last run context on it.
-/
namespace SimWorkbench.Arena

variable {a a' : Arena} {c s : ContextId} {n : ContextNode} {files : FileTree} {here : Location}
  {call : ArenaCall}

/-- Whether a context is a stage that new runs do not stand on any more. -/
def Retired (a : Arena) (c : ContextId) : Prop :=
  a.currentStage ≠ some c ∧ ∃ n ∈ a.nodes, n.id = c ∧ n.layer = .stage

/-- Whether a run context is the last one that stands on a retired stage. -/
def LastOn (a : Arena) (c s : ContextId) : Prop :=
  a.Retired s ∧ (∃ n ∈ a.nodes, n.id = c ∧ n.layer = .run ∧ n.parent = some s) ∧
    ∀ n ∈ a.nodes, n.parent = some s → n.id = c

/-- Whether the current context is one of the arena. -/
def Present (a : Arena) : Prop := ∃ n ∈ a.nodes, n.id = a.current

/-- The current context is in some layer, and no call that names it is refused because it is not
known. -/
structure Oriented (a : Arena) : Prop where
  layer : a.layer? a.current ≠ none
  known : ∀ files here call, call.named? = some a.current →
    (a.perform files here call).2.2 ≠ .error (.unknownContext a.current)

/-! ### Contexts that are known -/

theorem findOrigin_error {places : List Path} {name : Path} {e : ResolutionError}
    (refused : findOrigin files here places name = .error e) : e = .notFound name .stage := by
  unfold findOrigin at refused
  split at refused
  · cases refused
    rfl
  · split at refused <;> cases refused
    rfl

theorem takeSnapshot_refusal {origin : Path} {e : ResolutionError}
    (refused : (a.takeSnapshot files here origin c).2 = .error e) :
    ∃ path cause, e = .snapshot path cause := by
  simp only [takeSnapshot] at refused
  repeat' split at refused
  all_goals cases refused
  all_goals exact ⟨_, _, rfl⟩

/-- A context of the forest that cannot load an executable is no run context, or has loaded one. -/
theorem Forest.loadable_error {e : ResolutionError} (forest : a.Forest) (member : n ∈ a.nodes)
    (refused : a.loadable n.id = .error e) :
    (∃ layer, e = .notRunContext n.id layer) ∨ ∃ name, e = .alreadyLoaded n.id name := by
  have live := live_of_node? (forest.node?_of_mem member)
  simp only [Arena.loadable, live, bind, Except.bind] at refused
  by_cases isRun : n.layer = .run
  · obtain ⟨s, isStage, -, standsOn, -⟩ := forest.runs n member isRun
    have below := live_of_node? (forest.node?_of_mem isStage)
    cases loaded : n.loaded <;> simp [isRun, loaded, standsOn, below, pure, Except.pure] at refused
    exact .inr ⟨_, refused.symm⟩
  · rw [if_pos isRun] at refused
    cases refused
    exact .inl ⟨_, rfl⟩

/-- No call that names a context of the forest is refused because it is not known. -/
theorem Forest.known (forest : a.Forest) (member : n ∈ a.nodes) (named : call.named? = some n.id) :
    (a.perform files here call).2.2 ≠ .error (.unknownContext n.id) := by
  have live := live_of_node? (forest.node?_of_mem member)
  cases call with
  | load run name =>
    cases named
    simp only [Arena.perform, Arena.load]
    split
    · rename_i e refused
      rcases forest.loadable_error member refused with ⟨layer, rfl⟩ | ⟨name, rfl⟩ <;>
        simp [Except.map]
    · split
      · rename_i e refused
        simp [findOrigin_error refused, Except.map]
      · split
        · rename_i e refused
          obtain ⟨path, cause, rfl⟩ := takeSnapshot_refusal (congrArg Prod.snd refused)
          simp [Except.map]
        · simp [Except.map]
  | enter context =>
    cases named
    simp [Arena.perform, Arena.enter, live, Except.map]
  | resolve context name =>
    cases named
    simp only [Arena.perform, Arena.resolve, live, bind, Except.bind]
    split <;> simp [Except.map]
  | dispose context =>
    cases named
    simp only [Arena.perform, Arena.dispose, live]
    split <;> simp [Except.map]
  | _ => cases named

/-- The current context is known exactly if it is one of the arena. -/
theorem Forest.oriented_iff (forest : a.Forest) : a.Oriented ↔ a.Present := by
  constructor
  · intro oriented
    cases found : a.node? a.current with
    | none => exact absurd (by simp [layer?, found]) oriented.layer
    | some n => exact ⟨n, mem_of_node? found⟩
  · rintro ⟨n, member, isCurrent⟩
    refine ⟨?_, fun files here call named => ?_⟩
    · simp [layer?, ← isCurrent, forest.node?_of_mem member]
    · rw [← isCurrent] at named ⊢
      exact forest.known member named

/-! ### What calls leave -/

theorem mem_stage (a : Arena) : n ∈ a.stage.1.nodes ↔ n ∈ a.nodes ∨
    a.currentStage = none ∧ n = ⟨⟨a.next⟩, some rootId, .stage, [a.classesDir], none, none⟩ := by
  unfold stage
  split
  case h_1 c isCurrent => simp [isCurrent]
  case h_2 noStage => simp [noStage, add]

theorem current_stage (a : Arena) : a.stage.1.current = a.current := by
  unfold stage
  split <;> rfl

theorem current_collect (a : Arena) (c : ContextId) : (a.collect c).current = a.current := by
  unfold collect
  split
  · rfl
  · split <;> rfl

theorem currentStage_collect (a : Arena) (c : ContextId) :
    (a.collect c).currentStage = a.currentStage := by
  unfold collect
  split
  · rfl
  · split <;> rfl

theorem mem_collect (a : Arena) (c : ContextId) : n ∈ (a.collect c).nodes ↔
    n ∈ a.nodes ∧ (n.id = c → a.currentStage = some c ∨ ∃ r ∈ a.nodes, r.parent = some c) := by
  unfold collect
  split
  case isTrue isCurrent => simp [isCurrent]
  case isFalse notCurrent =>
    split
    case isTrue borne =>
      obtain ⟨r, isMember, standsOn⟩ := List.any_eq_true.mp borne
      rw [beq_iff_eq] at standsOn
      exact (and_iff_left fun _ => .inr ⟨r, isMember, standsOn⟩).symm
    case isFalse unborne =>
      have noChild : ¬∃ r ∈ a.nodes, r.parent = some c := by simpa using unborne
      simp [discard, notCurrent, noChild]

theorem currentStage_without (a : Arena) (n : ContextNode) :
    (a.without n).currentStage = a.currentStage := by
  simp only [without]
  cases n.parent with
  | none =>
    simp only [Option.map_none, Option.getD_none]
    split <;> rfl
  | some s =>
    simp only [Option.map_some, Option.getD_some, currentStage_collect]
    split <;> rfl

theorem current_without (a : Arena) (n : ContextNode) : (a.without n).current =
    if a.current = n.id then a.currentStage.getD rootId else a.current := by
  simp only [without]
  have same : (a.discard n.id).current = a.current := rfl
  have stage : (a.discard n.id).currentStage = a.currentStage := rfl
  cases n.parent with
  | none =>
    simp only [Option.map_none, Option.getD_none, same, stage]
    split <;> rfl
  | some s =>
    simp only [Option.map_some, Option.getD_some, current_collect, same, stage]
    split <;> rfl

/-- What is left when a run context is taken away: its stage is, if it is the current one or another
context stands on it. -/
theorem mem_without (a : Arena) {m : ContextNode} (standsOn : n.parent = some s) :
    m ∈ (a.without n).nodes ↔ m ∈ a.nodes ∧ m.id ≠ n.id ∧
      (m.id = s → a.currentStage = some s ∨ ∃ r ∈ a.nodes, r.id ≠ n.id ∧ r.parent = some s) := by
  have left : ∀ d, m ∈ ({ a.discard n.id with current := d }.collect s).nodes ↔
      m ∈ a.nodes ∧ m.id ≠ n.id ∧
      (m.id = s → a.currentStage = some s ∨ ∃ r ∈ a.nodes, r.id ≠ n.id ∧ r.parent = some s) := by
    intro d
    simp only [mem_collect, discard, List.mem_filter, bne_iff_ne, and_assoc]
  simp only [without, standsOn, Option.map_some, Option.getD_some]
  split
  · exact left _
  · exact left (a.discard n.id).current

theorem Present.of_kept (present : a.Present) (current : a'.current = a.current)
    (kept : ∀ n ∈ a.nodes, ∃ m ∈ a'.nodes, m.id = n.id) : a'.Present := by
  obtain ⟨n, member, isCurrent⟩ := present
  obtain ⟨m, isMember, same⟩ := kept n member
  exact ⟨m, isMember, by rw [same, isCurrent, current]⟩

theorem modify_kept {f : ContextNode → ContextNode} (id : ∀ n, (f n).id = n.id) :
    ∀ n ∈ a.nodes, ∃ m ∈ (a.modify c f).nodes, m.id = n.id := by
  intro n member
  refine ⟨_, List.mem_map_of_mem member, ?_⟩
  split
  · exact id n
  · rfl

/-- The root is there, and no stage has its number. -/
theorem Grown.root_ne (grown : a.Grown) (member : n ∈ a.nodes) (notRoot : n.layer ≠ .root) :
    (∃ m ∈ a.nodes, m.id = rootId) ∧ n.id ≠ rootId := by
  obtain ⟨root, isRoot, isRootId, isRootLayer, -, -⟩ := grown.root
  refine ⟨⟨root, isRoot, isRootId⟩, fun same => notRoot ?_⟩
  rw [grown.eq_of_id member isRoot (same.trans isRootId.symm), isRootLayer]

theorem modify_subset {f : ContextNode → ContextNode} (id : ∀ n, (f n).id = n.id)
    (layer : ∀ n, (f n).layer = n.layer) :
    ∀ n ∈ (a.modify c f).nodes, ∃ m ∈ a.nodes, m.id = n.id ∧ m.layer = n.layer := by
  intro n member
  obtain ⟨m, isMember, rfl⟩ := List.mem_map.mp member
  refine ⟨m, isMember, ?_⟩
  split <;> simp [id, layer]

/-! ### When the current context goes -/

theorem Forest.present_resetStage (forest : a.Forest) (present : a.Present) :
    a.resetStage.Present := by
  unfold Arena.resetStage
  split
  case h_1 => exact present
  case h_2 c isCurrent =>
    obtain ⟨s, isMember, rfl, isStage⟩ := forest.current c isCurrent
    obtain ⟨⟨root, isRoot, isRootId⟩, notRoot⟩ :=
      forest.root_ne isMember (by simp [isStage])
    simp only [Present, current_collect, mem_collect]
    by_cases same : a.current = s.id
    · simp only [if_pos same]
      exact ⟨root, ⟨isRoot, fun isStageId => absurd (isStageId.symm.trans isRootId) notRoot⟩, isRootId⟩
    · obtain ⟨n, member, isCurrent⟩ := present
      simp only [if_neg same]
      exact ⟨n, ⟨member, fun isStageId => absurd (isCurrent.symm.trans isStageId) same⟩, isCurrent⟩

/-- Taking a run context away takes the current context away if that is a retired stage on which no
other one stands, and never else. -/
theorem Forest.present_without_iff (forest : a.Forest) (present : a.Present) (member : n ∈ a.nodes)
    (isRun : n.layer = .run) : (a.without n).Present ↔ ¬a.LastOn n.id a.current := by
  obtain ⟨s, isMember, isStage, standsOn, -⟩ := forest.runs n member isRun
  obtain ⟨⟨root, isRoot, isRootId⟩, notRoot⟩ := forest.root_ne isMember (by simp [isStage])
  have notRun : n.id ≠ rootId := (forest.unborne member isRun).1
  have apart : ∀ m ∈ a.nodes, m.layer ≠ .run → m.id ≠ n.id := fun m hm other same =>
    other (by rw [forest.eq_of_id hm member same, isRun])
  simp only [Present, current_without, mem_without a standsOn]
  by_cases own : a.current = n.id
  · -- The current stage takes its place, or the root.
    refine iff_of_true ?_ fun last => ?_
    · simp only [if_pos own]
      cases isCurrent : a.currentStage with
      | none =>
        exact ⟨root, ⟨isRoot, isRootId ▸ notRun.symm,
          fun same => absurd (same.symm.trans isRootId) notRoot⟩, isRootId⟩
      | some t =>
        obtain ⟨m, hm, rfl, layered⟩ := forest.current t isCurrent
        exact ⟨m, ⟨hm, apart m hm (by simp [layered]), fun same => .inl (by rw [same])⟩, rfl⟩
    · obtain ⟨m, hm, same, layered⟩ := last.1.2
      exact apart m hm (by simp [layered]) (same.trans own)
  · simp only [if_neg own]
    constructor
    · rintro ⟨m, ⟨hm, -, kept⟩, isCurrent⟩ ⟨⟨retired, -⟩, ⟨r, hr, isOwn, -, onCurrent⟩, only⟩
      obtain rfl := forest.eq_of_id hr member isOwn
      rw [standsOn, Option.some.injEq] at onCurrent
      rcases kept (isCurrent.trans onCurrent.symm) with isCurrentStage | ⟨r', hr', other, onStage⟩
      · exact retired (onCurrent ▸ isCurrentStage)
      · exact other (only r' hr' (onCurrent ▸ onStage))
    · intro others
      obtain ⟨m, hm, isCurrent⟩ := present
      refine ⟨m, ⟨hm, fun same => own (isCurrent.symm.trans same), fun onStage => ?_⟩, isCurrent⟩
      by_contra gone
      simp only [not_or, not_exists, not_and] at gone
      have isCurrentStage : a.current = s.id := isCurrent.symm.trans onStage
      refine others ⟨⟨isCurrentStage ▸ gone.1, s, isMember, isCurrentStage.symm, isStage⟩,
        ⟨n, member, rfl, isRun, isCurrentStage ▸ standsOn⟩, fun r hr onCurrent => ?_⟩
      by_contra other
      exact gone.2 r hr other (isCurrentStage ▸ onCurrent)

/-- A call takes the current context away if it takes away the last run context on it and it is a
retired stage, and never else. -/
theorem Forest.present_iff (forest : a.Forest) (present : a.Present) (files : FileTree)
    (here : Location) (call : ArenaCall) :
    (a.perform files here call).2.1.Present ↔
      ∀ c, call = .dispose c → ¬a.LastOn c a.current := by
  have kept : (∀ c, call ≠ .dispose c) → (a.perform files here call).2.1.Present →
      ((a.perform files here call).2.1.Present ↔
        ∀ c, call = .dispose c → ¬a.LastOn c a.current) :=
    fun other now => iff_of_true now fun c same => absurd same (other c)
  cases call with
  | stage =>
    exact kept (by simp) (present.of_kept a.current_stage fun n member =>
      ⟨n, a.mem_stage.mpr (.inl member), rfl⟩)
  | resetStage => exact kept (by simp) (forest.present_resetStage present)
  | createRun =>
    exact kept (by simp) (present.of_kept a.current_stage fun n member =>
      ⟨n, List.mem_append_left _ (a.mem_stage.mpr (.inl member)), rfl⟩)
  | load run name =>
    refine kept (by simp) ?_
    simp only [Arena.perform]
    rcases a.load_cases files here run name with ⟨_, refused⟩ | ⟨_, _, _, -, refused⟩ |
      ⟨_, _, _, _, _, -, -, -, loaded⟩
    · rwa [refused]
    · rwa [refused]
    · rw [loaded]
      exact present.of_kept rfl (modify_kept fun _ => rfl)
  | addPath path =>
    exact kept (by simp) (present.of_kept rfl (modify_kept fun n => by split <;> rfl))
  | enter c =>
    refine kept (by simp) ?_
    simp only [Arena.perform, Arena.enter]
    cases found : a.node? c with
    | none => rwa [live_of_none found]
    | some n =>
      rw [live_of_node? found]
      exact ⟨n, mem_of_node? found⟩
  | restoreStage =>
    obtain ⟨n, member, same, -⟩ := forest.stage.current _ a.currentStage_stage
    exact kept (by simp) ⟨n, member, same⟩
  | resolve c name => exact kept (by simp) present
  | dispose c =>
    simp only [Arena.perform, ArenaCall.dispose.injEq, forall_eq']
    rcases a.dispose_cases files here c with ⟨unknown, refused⟩ | ⟨n, found, notRun, refused⟩ |
      ⟨n, found, isRun, gone⟩
    · rw [refused]
      refine iff_of_true present ?_
      rintro ⟨-, ⟨n, member, same, -⟩, -⟩
      exact node?_eq_none_iff.mp unknown n member same
    · rw [refused]
      refine iff_of_true present ?_
      rintro ⟨-, ⟨m, member, same, isRun, -⟩, -⟩
      obtain ⟨isMember, isOwn⟩ := mem_of_node? found
      exact notRun (by rw [forest.eq_of_id isMember member (isOwn.trans same.symm), isRun])
    · obtain ⟨member, rfl⟩ := mem_of_node? found
      rw [gone]
      exact forest.present_without_iff present member isRun

/-! ### As long as no retired stage is entered -/

/-- Whether the current context is there and cannot go by the disposal of another one. -/
structure Settled (a : Arena) : Prop where
  present : a.Present
  unretired : ¬a.Retired a.current

theorem Settled.fresh (rootPaths : List Path) (classesDir scratchDir : Path) (naming : Naming) :
    (Arena.fresh rootPaths classesDir scratchDir naming).Settled := by
  constructor <;> simp [Arena.fresh, Present, Retired]

theorem Retired.of_subset (retired : a'.Retired c) (same : a'.currentStage = a.currentStage)
    (subset : ∀ n ∈ a'.nodes, ∃ m ∈ a.nodes, m.id = n.id ∧ m.layer = n.layer) : a.Retired c := by
  obtain ⟨notCurrent, n, member, rfl, isStage⟩ := retired
  obtain ⟨m, isMember, sameId, layered⟩ := subset n member
  exact ⟨same ▸ notCurrent, m, isMember, sameId, layered.trans isStage⟩

theorem retired_stage (retired : a.stage.1.Retired c) : a.Retired c := by
  obtain ⟨notCurrent, n, member, rfl, isStage⟩ := retired
  rcases a.mem_stage.mp member with old | ⟨noStage, rfl⟩
  · refine ⟨fun isCurrent => notCurrent ?_, n, old, rfl, isStage⟩
    simp [stage, isCurrent]
  · exact absurd (by simp [stage, noStage, add]) notCurrent

/-- The stage that is retired is not the current context any more. -/
theorem Forest.current_resetStage_ne (forest : a.Forest) (isStage : a.currentStage = some c) :
    a.resetStage.current ≠ c := by
  obtain ⟨s, isMember, rfl, layered⟩ := forest.current c isStage
  have notRoot := (forest.root_ne isMember (by simp [layered])).2
  simp only [Arena.resetStage, isStage, current_collect]
  split
  · exact notRoot.symm
  · assumption

/-- Stages are retired by one call, and no other. -/
theorem Forest.retired_before (forest : a.Forest)
    (retired : (a.perform files here call).2.1.Retired c) :
    a.Retired c ∨ a.currentStage = some c ∧ call = .resetStage := by
  cases call with
  | stage => exact .inl (retired_stage retired)
  | resetStage =>
    simp only [Arena.perform, Arena.resetStage] at retired
    cases isCurrent : a.currentStage with
    | none =>
      simp only [isCurrent] at retired
      exact .inl retired
    | some s =>
      simp only [isCurrent] at retired
      obtain ⟨-, n, member, rfl, isStage⟩ := retired
      by_cases same : s = n.id
      · exact .inr ⟨congrArg some same, rfl⟩
      · exact .inl ⟨by simpa [isCurrent] using same, n, ((mem_collect _ _).mp member).1, rfl, isStage⟩
  | createRun =>
    obtain ⟨notCurrent, n, member, rfl, isStage⟩ := retired
    rcases List.mem_append.mp member with old | new
    · exact .inl (retired_stage ⟨notCurrent, n, old, rfl, isStage⟩)
    · rw [List.mem_singleton.mp new] at isStage
      cases isStage
  | load run name =>
    simp only [Arena.perform] at retired
    rcases a.load_cases files here run name with ⟨_, refused⟩ | ⟨_, _, _, -, refused⟩ |
      ⟨_, _, _, _, _, -, -, -, loaded⟩
    · rw [refused] at retired
      exact .inl retired
    · rw [refused] at retired
      exact .inl retired
    · rw [loaded] at retired
      exact .inl (retired.of_subset rfl (modify_subset (fun _ => rfl) fun _ => rfl))
  | addPath path =>
    exact .inl (retired.of_subset rfl
      (modify_subset (fun n => by split <;> rfl) fun n => by split <;> rfl))
  | enter d =>
    refine .inl ?_
    simp only [Arena.perform] at retired
    rcases a.enter_cases d with ⟨-, refused⟩ | entered
    · rwa [refused] at retired
    · rwa [entered] at retired
  | restoreStage => exact .inl (retired_stage retired)
  | resolve d name => exact .inl retired
  | dispose d =>
    refine .inl ?_
    simp only [Arena.perform] at retired
    rcases a.dispose_cases files here d with ⟨-, refused⟩ | ⟨n, -, -, refused⟩ | ⟨n, found, isRun, gone⟩
    · rwa [refused] at retired
    · rwa [refused] at retired
    · obtain ⟨s, -, -, standsOn, -⟩ := forest.runs n (mem_of_node? found).1 isRun
      rw [gone] at retired
      exact retired.of_subset (a.currentStage_without n) fun m member =>
        ⟨m, ((a.mem_without standsOn).mp member).1, rfl, rfl⟩

/-- After a call, the current context is the one of before, the one that was entered, the root, or
the current stage. -/
theorem current_perform (a : Arena) (files : FileTree) (here : Location) (call : ArenaCall) :
    (a.perform files here call).2.1.current = a.current ∨
      call = .enter (a.perform files here call).2.1.current ∨
      (a.perform files here call).2.1.current = rootId ∨
      (a.perform files here call).2.1.currentStage = some (a.perform files here call).2.1.current := by
  cases call with
  | stage => exact .inl a.current_stage
  | resetStage =>
    simp only [Arena.perform, Arena.resetStage]
    split
    · exact .inl rfl
    · simp only [current_collect]
      split
      · exact .inr (.inr (.inl rfl))
      · exact .inl rfl
  | createRun => exact .inl a.current_stage
  | load run name =>
    left
    simp only [Arena.perform]
    rcases a.load_cases files here run name with ⟨_, refused⟩ | ⟨_, _, _, -, refused⟩ |
      ⟨_, _, _, _, _, -, -, -, loaded⟩
    · rw [refused]
    · rw [refused]
    · rw [loaded]
      rfl
  | addPath path => exact .inl rfl
  | enter c =>
    simp only [Arena.perform]
    rcases a.enter_cases c with ⟨-, refused⟩ | entered
    · exact .inl (by rw [refused])
    · exact .inr (.inl (by rw [entered]))
  | restoreStage => exact .inr (.inr (.inr a.currentStage_stage))
  | resolve c name => exact .inl rfl
  | dispose c =>
    simp only [Arena.perform]
    rcases a.dispose_cases files here c with ⟨-, refused⟩ | ⟨n, -, -, refused⟩ | ⟨n, -, -, gone⟩
    · exact .inl (by rw [refused])
    · exact .inl (by rw [refused])
    · simp only [gone, current_without, currentStage_without]
      split
      · cases a.currentStage with
        | none => exact .inr (.inr (.inl rfl))
        | some s => exact .inr (.inr (.inr rfl))
      · exact .inl rfl

theorem Settled.perform (settled : a.Settled) (forest : a.Forest) (files : FileTree)
    (here : Location) (heeds : ∀ c, call = .enter c → ¬a.Retired c) :
    (a.perform files here call).2.1.Settled := by
  have forest' := forest.perform files here call
  have present : (a.perform files here call).2.1.Present :=
    (forest.present_iff settled.present files here call).mpr fun _ _ last =>
      settled.unretired last.1
  refine ⟨present, fun retired => ?_⟩
  rcases a.current_perform files here call with same | entered | isRoot | isCurrent
  · rcases forest.retired_before retired with before | ⟨isStage, rfl⟩
    · exact settled.unretired (same ▸ before)
    · exact forest.current_resetStage_ne isStage rfl
  · rcases forest.retired_before retired with before | ⟨-, resets⟩
    · exact heeds _ entered before
    · cases entered.symm.trans resets
  · obtain ⟨-, n, member, same, isStage⟩ := retired
    exact (forest'.root_ne member (by simp [isStage])).2 (same.trans isRoot)
  · exact retired.1 isCurrent

/-- Whether none of some calls, made in turn, enters a stage that has been retired. -/
def Heeds (here : Location) : Arena → List (FileTree × ArenaCall) → Prop
  | _, [] => True
  | a, x :: rest =>
    (∀ c, x.2 = .enter c → ¬a.Retired c) ∧ Heeds here (a.perform x.1 here x.2).2.1 rest

theorem Settled.after {r : Record} {calls : List (FileTree × ArenaCall)} (kept : r.Kept)
    (settled : r.arena.Settled) (heeds : Heeds here r.arena calls) :
    (r.after here calls).arena.Settled := by
  induction calls generalizing r with
  | nil => exact settled
  | cons x rest ih =>
    exact ih (kept.ask here x) (settled.perform kept.forest x.1 here heeds.1) heeds.2

/-- Whatever is asked of an arena, and however the files change in between: the current context is
known as long as no stage is entered after it was retired; and where it is known, a call leaves one
that is not exactly if it takes away the last run context on the current one, which has been
retired. -/
theorem current_known (rootPaths : List Path) (classesDir scratchDir : Path) (naming : Naming)
    (here : Location) (calls : List (FileTree × ArenaCall)) :
    let a := ((Record.start rootPaths classesDir scratchDir naming).after here calls).arena
    (Heeds here (.fresh rootPaths classesDir scratchDir naming) calls → a.Oriented) ∧
      (a.Oriented → ∀ files call, ¬(a.perform files here call).2.1.Oriented ↔
        ∃ c, call = .dispose c ∧ a.LastOn c a.current) := by
  intro a
  have kept := (Record.Kept.start rootPaths classesDir scratchDir naming).after here calls
  have forest : a.Forest := kept.forest
  refine ⟨fun heeds => ?_, fun oriented files call => ?_⟩
  · have settled : a.Settled :=
      Settled.after (.start rootPaths classesDir scratchDir naming) (.fresh ..) heeds
    exact forest.oriented_iff.mpr settled.present
  · rw [(forest.perform files here call).oriented_iff,
      forest.present_iff (forest.oriented_iff.mp oriented) files here call]
    simp only [not_forall, not_not, exists_prop]

/-- A run context is made, and its stage is retired. -/
def retirement : List (FileTree × ArenaCall) := [(⟨[]⟩, .createRun), (⟨[]⟩, .resetStage)]

/-- A run context on a retired stage is taken away; the current context is the root. -/
theorem current_known_root :
    let a := ((Record.start [] ⟨"/c"⟩ ⟨"/s"⟩).after [] (retirement ++ [(⟨[]⟩, .dispose ⟨2⟩)])).arena
    Heeds [] (.fresh [] ⟨"/c"⟩ ⟨"/s"⟩) (retirement ++ [(⟨[]⟩, .dispose ⟨2⟩)]) ∧
      a.current = rootId ∧ a.Oriented := by
  have heeds : Heeds [] (.fresh [] ⟨"/c"⟩ ⟨"/s"⟩) (retirement ++ [(⟨[]⟩, .dispose ⟨2⟩)]) := by
    simp [retirement, Heeds]
  exact ⟨heeds, by decide +kernel, (current_known [] ⟨"/c"⟩ ⟨"/s"⟩ .counting [] _).1 heeds⟩

/-- A retired stage is entered, and goes with the last run context on it: no call is refused, and the
current context is in no layer and cannot be entered. -/
theorem current_lost :
    let r := (Record.start [] ⟨"/c"⟩ ⟨"/s"⟩).after []
      (retirement ++ [(⟨[]⟩, .enter ⟨1⟩), (⟨[]⟩, .dispose ⟨2⟩)])
    (∀ answer ∈ r.answers, answer.2.isOk = true) ∧ r.arena.current = ⟨1⟩ ∧
      r.arena.layer? r.arena.current = none ∧
      (r.arena.enter r.arena.current).2 = .error (.unknownContext r.arena.current) := by
  decide +kernel

end SimWorkbench.Arena
