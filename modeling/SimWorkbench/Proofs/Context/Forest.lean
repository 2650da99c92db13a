import SimWorkbench.Context.Call
import Mathlib.Data.List.Nodup

/-!
# The forest of contexts

Contexts stand on each other: a stage on the root, a run context on a stage with a smaller number.
There is one root, and a stage that is no longer the current one is kept only as long as a run
context stands on it. Every call of an arena keeps this, whatever contexts it names.
-/
namespace SimWorkbench.Arena

variable {a : Arena} {c : ContextId} {n : ContextNode}

/-- What holds of the contexts of an arena, except that retired stages may have been left behind. -/
structure Grown (a : Arena) : Prop where
  /-- Contexts are kept in the order of their numbers, so no two have the same. -/
  ordered : a.nodes.Pairwise fun m n => m.id.number < n.id.number
  /-- The next number is greater than that of every context. -/
  issued : ∀ n ∈ a.nodes, n.id.number < a.next
  root : ∃ n ∈ a.nodes, n.id = rootId ∧ n.layer = .root ∧ n.parent = none ∧
    ∀ m ∈ a.nodes, m.layer = .root → m = n
  stages : ∀ n ∈ a.nodes, n.layer = .stage → n.parent = some rootId
  runs : ∀ n ∈ a.nodes, n.layer = .run →
    ∃ s ∈ a.nodes, s.layer = .stage ∧ n.parent = some s.id ∧ s.id.number < n.id.number
  current : ∀ c, a.currentStage = some c → ∃ n ∈ a.nodes, n.id = c ∧ n.layer = .stage

/-- Whether a run context stands on a context. -/
def Bears (a : Arena) (c : ContextId) : Prop :=
  ∃ n ∈ a.nodes, n.layer = .run ∧ n.parent = some c

/-- What holds of the contexts of an arena between two calls. -/
structure Forest (a : Arena) : Prop extends Grown a where
  /-- A stage is the current one, or a run context stands on it. -/
  needed : ∀ s ∈ a.nodes, s.layer = .stage → a.currentStage = some s.id ∨ a.Bears s.id

/-! ### Contexts by their numbers -/

theorem mem_of_node? (found : a.node? c = some n) : n ∈ a.nodes ∧ n.id = c := by
  have isId := List.find?_some found
  exact ⟨List.mem_of_find?_eq_some found, by simpa using isId⟩

theorem node?_eq_none_iff : a.node? c = none ↔ ∀ n ∈ a.nodes, n.id ≠ c := by
  simp [node?]

/-- No two contexts have the same number. -/
theorem Grown.nodup (grown : a.Grown) : (a.nodes.map ContextNode.id).Nodup := by
  refine List.pairwise_map.mpr (grown.ordered.imp fun less same => ?_)
  rw [same] at less
  exact Nat.lt_irrefl _ less

theorem Grown.eq_of_id (grown : a.Grown) {m : ContextNode} (hm : m ∈ a.nodes) (hn : n ∈ a.nodes)
    (same : m.id = n.id) : m = n :=
  List.inj_on_of_nodup_map grown.nodup hm hn same

theorem Grown.node?_of_mem (grown : a.Grown) (member : n ∈ a.nodes) : a.node? n.id = some n := by
  cases found : a.node? n.id with
  | none => exact absurd rfl (node?_eq_none_iff.mp found n member)
  | some m =>
    obtain ⟨isMember, same⟩ := mem_of_node? found
    rw [grown.eq_of_id isMember member same]

theorem live_of_node? (found : a.node? c = some n) : a.live c = .ok n := by
  simp only [live, found]

theorem live_of_none (unknown : a.node? c = none) : a.live c = .error (.unknownContext c) := by
  simp only [live, unknown]

/-! ### Adding, changing and taking away -/

theorem Grown.fresh (rootPaths : List Path) (classesDir scratchDir : Path) (naming : Naming) :
    (Arena.fresh rootPaths classesDir scratchDir naming).Grown where
  ordered := by simp [Arena.fresh]
  issued := by simp [Arena.fresh, rootId]
  root := ⟨_, List.mem_singleton_self _, rfl, rfl, rfl, by simp [Arena.fresh]⟩
  stages := by simp [Arena.fresh]
  runs := by simp [Arena.fresh]
  current := by simp [Arena.fresh]

theorem Forest.fresh (rootPaths : List Path) (classesDir scratchDir : Path) (naming : Naming) :
    (Arena.fresh rootPaths classesDir scratchDir naming).Forest :=
  ⟨.fresh .., by simp [Arena.fresh]⟩

/-- A context that is added stands on what is there already. -/
theorem Grown.add (grown : a.Grown) {parent : Option ContextId} {layer : Layer} {paths : List Path}
    (notRoot : layer ≠ .root) (onRoot : layer = .stage → parent = some rootId)
    (onStage : layer = .run → ∃ s ∈ a.nodes, s.layer = .stage ∧ parent = some s.id) :
    (a.add parent layer paths).1.Grown := by
  obtain ⟨root, isRoot, id, isRootLayer, noParent, only⟩ := grown.root
  constructor
  · refine List.pairwise_append.mpr ⟨grown.ordered, List.pairwise_singleton _ _, ?_⟩
    rintro m member _ (_ | ⟨_, ⟨⟩⟩)
    exact grown.issued m member
  · intro n member
    rcases List.mem_append.mp member with old | new
    · exact Nat.lt_succ_of_lt (grown.issued n old)
    · rw [List.mem_singleton.mp new]
      exact Nat.lt_succ_self _
  · refine ⟨root, List.mem_append_left _ isRoot, id, isRootLayer, noParent, fun m member layered => ?_⟩
    rcases List.mem_append.mp member with old | new
    · exact only m old layered
    · rw [List.mem_singleton.mp new] at layered
      exact absurd layered notRoot
  · intro n member layered
    rcases List.mem_append.mp member with old | new
    · exact grown.stages n old layered
    · rw [List.mem_singleton.mp new] at layered ⊢
      exact onRoot layered
  · intro n member layered
    rcases List.mem_append.mp member with old | new
    · obtain ⟨s, isMember, stage, parent, less⟩ := grown.runs n old layered
      exact ⟨s, List.mem_append_left _ isMember, stage, parent, less⟩
    · rw [List.mem_singleton.mp new] at layered ⊢
      obtain ⟨s, isMember, stage, parent⟩ := onStage layered
      exact ⟨s, List.mem_append_left _ isMember, stage, parent, grown.issued s isMember⟩
  · intro c isCurrent
    obtain ⟨n, member, found⟩ := grown.current c isCurrent
    exact ⟨n, List.mem_append_left _ member, found⟩

/-- A change of contexts that moves none of them keeps the forest. -/
theorem Forest.map {f : ContextNode → ContextNode} (forest : a.Forest) (id : ∀ n, (f n).id = n.id)
    (parent : ∀ n, (f n).parent = n.parent) (layer : ∀ n, (f n).layer = n.layer) :
    { a with nodes := a.nodes.map f }.Forest := by
  obtain ⟨root, isRoot, isRootId, isRootLayer, noParent, only⟩ := forest.root
  constructor
  · constructor
    · exact List.pairwise_map.mpr (by simpa only [id] using forest.ordered)
    · simpa [id] using forest.issued
    · refine ⟨f root, List.mem_map_of_mem isRoot, by rw [id, isRootId], by rw [layer, isRootLayer],
        by rw [parent, noParent], fun m member layered => ?_⟩
      obtain ⟨m, old, rfl⟩ := List.mem_map.mp member
      rw [only m old (by rwa [layer] at layered)]
    · simpa [parent, layer] using forest.stages
    · intro n member layered
      obtain ⟨n, old, rfl⟩ := List.mem_map.mp member
      rw [layer] at layered
      obtain ⟨s, isMember, stage, standsOn, less⟩ := forest.runs n old layered
      exact ⟨f s, List.mem_map_of_mem isMember, by rw [layer, stage], by rw [parent, id, standsOn],
        by rwa [id, id]⟩
    · intro c isCurrent
      obtain ⟨n, member, isId, stage⟩ := forest.current c isCurrent
      exact ⟨f n, List.mem_map_of_mem member, by rw [id, isId], by rw [layer, stage]⟩
  · intro s member layered
    obtain ⟨s, old, rfl⟩ := List.mem_map.mp member
    rw [layer] at layered
    rw [id]
    refine (forest.needed s old layered).imp_right ?_
    rintro ⟨n, isMember, isRun, standsOn⟩
    exact ⟨f n, List.mem_map_of_mem isMember, by rw [layer, isRun], by rw [parent, standsOn]⟩

theorem Forest.modify {f : ContextNode → ContextNode} (forest : a.Forest)
    (id : ∀ n, (f n).id = n.id) (parent : ∀ n, (f n).parent = n.parent)
    (layer : ∀ n, (f n).layer = n.layer) : (a.modify c f).Forest := by
  refine forest.map (fun n => ?_) (fun n => ?_) fun n => ?_ <;> split <;> simp [id, parent, layer]

/-- A context on which nothing stands can be taken away, unless it is the root or the current
stage. -/
theorem Grown.discard (grown : a.Grown) (notRoot : c ≠ rootId) (notCurrent : a.currentStage ≠ some c)
    (unborne : ∀ n ∈ a.nodes, n.id ≠ c → n.parent ≠ some c) : (a.discard c).Grown := by
  obtain ⟨root, isRoot, isRootId, isRootLayer, noParent, only⟩ := grown.root
  have kept : ∀ {n : ContextNode}, n ∈ (a.discard c).nodes ↔ n ∈ a.nodes ∧ n.id ≠ c := by
    simp [Arena.discard]
  constructor
  · exact grown.ordered.filter _
  · exact fun n member => grown.issued n (kept.mp member).1
  · exact ⟨root, kept.mpr ⟨isRoot, isRootId ▸ notRoot.symm⟩, isRootId, isRootLayer, noParent,
      fun m member => only m (kept.mp member).1⟩
  · exact fun n member => grown.stages n (kept.mp member).1
  · intro n member layered
    obtain ⟨old, other⟩ := kept.mp member
    obtain ⟨s, isMember, stage, standsOn, less⟩ := grown.runs n old layered
    refine ⟨s, kept.mpr ⟨isMember, fun same => ?_⟩, stage, standsOn, less⟩
    exact unborne n old other (same ▸ standsOn)
  · intro d isCurrent
    obtain ⟨n, member, isId, stage⟩ := grown.current d isCurrent
    exact ⟨n, kept.mpr ⟨member, fun same => notCurrent (by rw [← same, isId]; exact isCurrent)⟩,
      isId, stage⟩

/-- If at most one stage was left behind, collecting it makes a forest again. -/
theorem Grown.collect (grown : a.Grown) (isStage : ∀ n ∈ a.nodes, n.id = c → n.layer = .stage)
    (needed : ∀ s ∈ a.nodes, s.layer = .stage → s.id ≠ c →
      a.currentStage = some s.id ∨ a.Bears s.id) : (a.collect c).Forest := by
  have notRoot : c ≠ rootId := by
    obtain ⟨root, isRoot, isRootId, isRootLayer, -⟩ := grown.root
    rintro rfl
    rw [isStage root isRoot isRootId] at isRootLayer
    cases isRootLayer
  unfold Arena.collect
  split
  case isTrue isCurrent =>
    refine ⟨grown, fun s member stage => ?_⟩
    by_cases same : s.id = c
    · exact .inl (same ▸ isCurrent)
    · exact needed s member stage same
  case isFalse notCurrent =>
    split
    case isTrue borne =>
      refine ⟨grown, fun s member stage => ?_⟩
      by_cases same : s.id = c
      · obtain ⟨n, isMember, standsOn⟩ := List.any_eq_true.mp borne
        rw [beq_iff_eq] at standsOn
        refine .inr ⟨n, isMember, ?_, same ▸ standsOn⟩
        -- what stands on `c` is neither the root nor a stage
        cases layered : n.layer with
        | root =>
          obtain ⟨root, -, -, -, noParent, only⟩ := grown.root
          rw [only n isMember layered, noParent] at standsOn
          cases standsOn
        | stage =>
          rw [grown.stages n isMember layered, Option.some.injEq] at standsOn
          exact absurd standsOn.symm notRoot
        | run => rfl
      · exact needed s member stage same
    case isFalse unborne =>
      simp only [List.any_eq_true, beq_iff_eq, not_exists, not_and] at unborne
      refine ⟨grown.discard notRoot notCurrent fun n member _ => unborne n member, ?_⟩
      intro s member stage
      obtain ⟨old, other⟩ : s ∈ a.nodes ∧ s.id ≠ c := by simpa [Arena.discard] using member
      refine (needed s old stage other).imp_right ?_
      rintro ⟨n, isMember, isRun, standsOn⟩
      refine ⟨n, ?_, isRun, standsOn⟩
      have notChild : n.id ≠ c := by
        intro same
        rw [isStage n isMember same] at isRun
        cases isRun
      simpa [Arena.discard] using ⟨isMember, notChild⟩

/-! ### What each call does -/

/-- The arena without a run context; its stage goes too if it is not needed any more. -/
def without (a : Arena) (n : ContextNode) : Arena :=
  let rest := a.discard n.id
  let rest :=
    if rest.current = n.id then { rest with current := rest.currentStage.getD rootId } else rest
  (n.parent.map rest.collect).getD rest

/-- The files without the private copy of a context. -/
def withoutCopy (files : FileTree) (here : Location) (n : ContextNode) : FileTree :=
  match n.snapshot with
  | some dir => (files.removeTree here dir).1
  | none => files

/-- All that taking a context away can come to. -/
theorem dispose_cases (a : Arena) (files : FileTree) (here : Location) (c : ContextId) :
    (a.node? c = none ∧ a.dispose files here c = (files, a, .error (.unknownContext c))) ∨
    (∃ n, a.node? c = some n ∧ n.layer ≠ .run ∧
      a.dispose files here c = (files, a, .error (.notRunContext c n.layer))) ∨
    ∃ n, a.node? c = some n ∧ n.layer = .run ∧
      a.dispose files here c = (withoutCopy files here n, a.without n, .ok ()) := by
  cases found : a.node? c with
  | none => exact .inl ⟨rfl, by simp only [dispose, live_of_none found]⟩
  | some n =>
    obtain ⟨-, rfl⟩ := mem_of_node? found
    by_cases isRun : n.layer = .run
    · refine .inr (.inr ⟨n, rfl, isRun, ?_⟩)
      simp only [dispose, live_of_node? found, isRun, ne_eq, not_true, if_false]
      rfl
    · refine .inr (.inl ⟨n, rfl, isRun, ?_⟩)
      simp only [dispose, live_of_node? found, if_pos (show n.layer ≠ .run from isRun)]

/-- The arena with an artifact and its private copy in a context. -/
def holding (a : Arena) (loaded : LoadedArtifact) (dir : Path) : Arena :=
  a.modify loaded.context fun n =>
    { n with paths := n.paths ++ [dir], loaded := some loaded, snapshot := some dir }

/-- All that loading can come to: it is refused and the arena is as it was, or a copy was made of
what was found and the context holds it. -/
theorem load_cases (a : Arena) (files : FileTree) (here : Location) (c : ContextId) (name : Path) :
    (∃ e, a.load files here c name = (files, a, .error e)) ∨
    (∃ origin files' e, a.takeSnapshot files here origin c = (files', .error e) ∧
      a.load files here c name = (files', a, .error e)) ∨
    ∃ places origin files' dir executable, a.loadable c = .ok places ∧
      findOrigin files here places name = .ok origin ∧
      a.takeSnapshot files here origin c = (files', .ok (dir, executable)) ∧
      a.load files here c name =
        (files', a.holding ⟨c, name, origin, executable⟩ dir, .ok ⟨c, name, origin, executable⟩) := by
  cases loadable : a.loadable c with
  | error e => exact .inl ⟨e, by simp only [load, loadable]⟩
  | ok places =>
    cases found : findOrigin files here places name with
    | error e => exact .inl ⟨e, by simp only [load, loadable, found]⟩
    | ok origin =>
      rcases taken : a.takeSnapshot files here origin c with ⟨files', e | ⟨dir, executable⟩⟩
      · exact .inr (.inl ⟨origin, files', e, taken, by simp only [load, loadable, found, taken]⟩)
      · exact .inr (.inr ⟨places, origin, files', dir, executable, rfl, found, taken,
          by simp only [load, loadable, found, taken, holding]⟩)

theorem enter_cases (a : Arena) (c : ContextId) :
    (a.node? c = none ∧ a.enter c = (a, .error (.unknownContext c))) ∨
    a.enter c = ({ a with current := c }, .ok ()) := by
  cases found : a.node? c with
  | none => exact .inl ⟨rfl, by simp only [enter, live_of_none found]⟩
  | some n => exact .inr (by simp only [enter, live_of_node? found])

/-! ### The forest is kept -/

theorem Bears.add (borne : a.Bears c) (parent : Option ContextId) (layer : Layer)
    (paths : List Path) : (a.add parent layer paths).1.Bears c := by
  obtain ⟨n, member, found⟩ := borne
  exact ⟨n, List.mem_append_left _ member, found⟩

theorem Forest.stage (forest : a.Forest) : a.stage.1.Forest := by
  unfold Arena.stage
  split
  case h_1 => exact forest
  case h_2 noStage =>
    have grown : (a.add (some rootId) .stage [a.classesDir]).1.Grown :=
      forest.toGrown.add (by simp) (fun _ => rfl) (by simp)
    refine ⟨⟨grown.ordered, grown.issued, grown.root, grown.stages, grown.runs, ?_⟩, ?_⟩
    · rintro c ⟨⟩
      exact ⟨_, List.mem_append_right _ (List.mem_singleton_self _), rfl, rfl⟩
    · intro s member layered
      rcases List.mem_append.mp member with old | new
      · refine .inr ?_
        rcases forest.needed s old layered with isCurrent | borne
        · rw [noStage] at isCurrent
          cases isCurrent
        · exact borne.add (some rootId) .stage [a.classesDir]
      · rw [List.mem_singleton.mp new]
        exact .inl rfl

theorem currentStage_stage (a : Arena) : a.stage.1.currentStage = some a.stage.2 := by
  unfold Arena.stage
  split
  case h_1 isStage => exact isStage
  case h_2 => rfl

theorem Forest.createRun (forest : a.Forest) : a.createRun.1.Forest := by
  obtain ⟨s, isMember, isId, layered⟩ := forest.stage.current _ (currentStage_stage a)
  have onStage : some a.stage.2 = some s.id := by rw [isId]
  refine ⟨forest.stage.toGrown.add (by simp) (by simp) fun _ => ⟨s, isMember, layered, onStage⟩, ?_⟩
  intro s member layered
  rcases List.mem_append.mp member with old | new
  · exact (forest.stage.needed s old layered).imp_right fun borne =>
      borne.add (some a.stage.2) .run []
  · rw [List.mem_singleton.mp new] at layered
    cases layered

theorem Forest.resetStage (forest : a.Forest) : a.resetStage.Forest := by
  unfold Arena.resetStage
  split
  case h_1 => exact forest
  case h_2 c isCurrent =>
    obtain ⟨s, isMember, rfl, layered⟩ := forest.current c isCurrent
    refine Grown.collect (a := { a with currentStage := none, current := _ })
      ⟨forest.ordered, forest.issued, forest.root, forest.stages, forest.runs, by simp⟩ ?_ ?_
    · intro n member same
      rw [forest.eq_of_id member isMember same, layered]
    · intro n member isStage other
      refine (forest.needed n member isStage).imp (fun same => ?_) id
      rw [isCurrent, Option.some.injEq] at same
      exact absurd same.symm other

theorem Forest.restoreStage (forest : a.Forest) : a.restoreStage.1.Forest :=
  ⟨⟨forest.stage.ordered, forest.stage.issued, forest.stage.root, forest.stage.stages,
    forest.stage.runs, forest.stage.current⟩, forest.stage.needed⟩

theorem Forest.enter (forest : a.Forest) (c : ContextId) : (a.enter c).1.Forest := by
  rcases a.enter_cases c with ⟨-, refused⟩ | entered
  · rwa [refused]
  · rw [entered]
    exact ⟨⟨forest.ordered, forest.issued, forest.root, forest.stages, forest.runs,
      forest.current⟩, forest.needed⟩

theorem Forest.addPath (forest : a.Forest) (p : Path) : (a.addPath p).Forest :=
  forest.modify (fun n => by split <;> rfl) (fun n => by split <;> rfl) fun n => by split <;> rfl

theorem Forest.load (forest : a.Forest) (files : FileTree) (here : Location) (c : ContextId)
    (name : Path) : (a.load files here c name).2.1.Forest := by
  rcases a.load_cases files here c name with ⟨_, refused⟩ | ⟨_, _, _, -, refused⟩ |
    ⟨_, _, _, _, _, -, -, -, loaded⟩
  · rwa [refused]
  · rwa [refused]
  · rw [loaded]
    exact forest.modify (fun _ => rfl) (fun _ => rfl) fun _ => rfl

/-- Nothing stands on a run context, and it is neither the root nor a stage. -/
theorem Grown.unborne (grown : a.Grown) (member : n ∈ a.nodes) (isRun : n.layer = .run) :
    n.id ≠ rootId ∧ a.currentStage ≠ some n.id ∧ ∀ m ∈ a.nodes, m.parent ≠ some n.id := by
  obtain ⟨root, isRoot, isRootId, isRootLayer, noParent, only⟩ := grown.root
  have notRoot : n.id ≠ rootId := by
    intro same
    rw [grown.eq_of_id member isRoot (same.trans isRootId.symm), isRootLayer] at isRun
    cases isRun
  have notStage : ∀ s ∈ a.nodes, s.layer = .stage → s.id ≠ n.id := by
    intro s isMember layered same
    rw [← grown.eq_of_id isMember member same, layered] at isRun
    cases isRun
  refine ⟨notRoot, fun isCurrent => ?_, fun m isMember standsOn => ?_⟩
  · obtain ⟨s, isMember, same, layered⟩ := grown.current _ isCurrent
    exact notStage s isMember layered same
  · cases layered : m.layer with
    | root =>
      rw [only m isMember layered, noParent] at standsOn
      cases standsOn
    | stage =>
      rw [grown.stages m isMember layered, Option.some.injEq] at standsOn
      exact notRoot standsOn.symm
    | run =>
      obtain ⟨s, isStage, layered, onStage, -⟩ := grown.runs m isMember layered
      rw [onStage, Option.some.injEq] at standsOn
      exact notStage s isStage layered standsOn

theorem Grown.withCurrent (grown : a.Grown) (c : ContextId) : { a with current := c }.Grown :=
  ⟨grown.ordered, grown.issued, grown.root, grown.stages, grown.runs, grown.current⟩

theorem Forest.without (forest : a.Forest) (member : n ∈ a.nodes) (isRun : n.layer = .run) :
    (a.without n).Forest := by
  obtain ⟨notRoot, notCurrent, unborne⟩ := forest.unborne member isRun
  obtain ⟨s, isMember, isStage, standsOn, -⟩ := forest.runs n member isRun
  have rest : (a.discard n.id).Grown :=
    forest.toGrown.discard notRoot notCurrent fun m isMember _ => unborne m isMember
  have kept : ∀ {m : ContextNode}, m ∈ (a.discard n.id).nodes → m ∈ a.nodes := by
    intro m isKept
    exact (List.mem_filter.mp isKept).1
  have collected : ∀ d, ({ a.discard n.id with current := d }.collect s.id).Forest := by
    intro d
    refine (rest.withCurrent d).collect (fun m isKept same => ?_) fun m isKept layered other => ?_
    · rw [forest.eq_of_id (kept isKept) isMember same, isStage]
    · refine (forest.needed m (kept isKept) layered).imp_right ?_
      rintro ⟨r, isRunMember, isRun', onStage⟩
      refine ⟨r, List.mem_filter.mpr ⟨isRunMember, ?_⟩, isRun', onStage⟩
      simp only [bne_iff_ne, ne_eq]
      intro same
      rw [forest.eq_of_id isRunMember member same, standsOn, Option.some.injEq] at onStage
      exact other onStage.symm
  simp only [Arena.without, standsOn, Option.map_some, Option.getD_some]
  split
  · exact collected _
  · exact collected (a.discard n.id).current

theorem Forest.dispose (forest : a.Forest) (files : FileTree) (here : Location) (c : ContextId) :
    (a.dispose files here c).2.1.Forest := by
  rcases a.dispose_cases files here c with ⟨-, refused⟩ | ⟨n, -, -, refused⟩ | ⟨n, found, isRun, gone⟩
  · rwa [refused]
  · rwa [refused]
  · rw [gone]
    exact forest.without (mem_of_node? found).1 isRun

/-- Every call of an arena keeps the forest. -/
theorem Forest.perform (forest : a.Forest) (files : FileTree) (here : Location) (call : ArenaCall) :
    (a.perform files here call).2.1.Forest := by
  cases call with
  | stage => exact forest.stage
  | resetStage => exact forest.resetStage
  | createRun => exact forest.createRun
  | load run name => exact forest.load files here run name
  | addPath path => exact forest.addPath path
  | enter context => exact forest.enter context
  | restoreStage => exact forest.restoreStage
  | resolve context name => exact forest
  | dispose context => exact forest.dispose files here context

end SimWorkbench.Arena
