import SimWorkbench.Proofs.Context.Forest

/-!
# The account of contexts

Which run contexts an arena has follows from the calls that made and took them away. A number that
was given is not given again, and a call that names a context which is gone is refused and changes
nothing.
-/
namespace SimWorkbench
namespace Arena

variable {a a' : Arena} {c : ContextId} {n : ContextNode}

/-! ### Numbers are not given twice -/

/-- Whether the contexts of one arena are contexts of the other, in the same layer, or were given
numbers since. -/
structure Follows (a a' : Arena) : Prop where
  next : a.next ≤ a'.next
  known : ∀ n ∈ a'.nodes,
    (∃ m ∈ a.nodes, m.id = n.id ∧ m.layer = n.layer) ∨ a.next ≤ n.id.number

theorem Follows.refl (a : Arena) : a.Follows a :=
  ⟨Nat.le_refl _, fun n member => .inl ⟨n, member, rfl, rfl⟩⟩

theorem Follows.trans {a'' : Arena} (first : a.Follows a') (second : a'.Follows a'') :
    a.Follows a'' := by
  refine ⟨Nat.le_trans first.next second.next, fun n member => ?_⟩
  rcases second.known n member with ⟨m, isMember, same, layered⟩ | new
  · rw [← same, ← layered]
    exact first.known m isMember
  · exact .inr (Nat.le_trans first.next new)

/-- What is gone stays gone. -/
theorem Follows.gone (follows : a.Follows a') (given : c.number < a.next) (gone : a.node? c = none) :
    a'.node? c = none := by
  refine node?_eq_none_iff.mpr fun n member same => ?_
  rcases follows.known n member with ⟨m, isMember, same', -⟩ | new
  · exact node?_eq_none_iff.mp gone m isMember (same'.trans same)
  · rw [same] at new
    omega

/-- Whether a number is that of a run context, as long as there is such a context. -/
def RunIfLive (a : Arena) (c : ContextId) : Prop := ∀ n ∈ a.nodes, n.id = c → n.layer = .run

/-- What is a run context stays one, or goes. -/
theorem Follows.runIfLive (follows : a.Follows a') (given : c.number < a.next)
    (isRun : a.RunIfLive c) : a'.RunIfLive c := by
  intro n member same
  rcases follows.known n member with ⟨m, isMember, same', layered⟩ | new
  · rw [← layered]
    exact isRun m isMember (same'.trans same)
  · rw [same] at new
    omega

theorem Follows.of_subset (next : a'.next = a.next)
    (subset : ∀ n ∈ a'.nodes, ∃ m ∈ a.nodes, m.id = n.id ∧ m.layer = n.layer) : a.Follows a' :=
  ⟨Nat.le_of_eq next.symm, fun n member => .inl (subset n member)⟩

theorem follows_add (a : Arena) (parent : Option ContextId) (layer : Layer) (paths : List Path) :
    a.Follows (a.add parent layer paths).1 := by
  refine ⟨Nat.le_succ _, fun n member => ?_⟩
  rcases List.mem_append.mp member with old | new
  · exact .inl ⟨n, old, rfl, rfl⟩
  · rw [List.mem_singleton.mp new]
    exact .inr (Nat.le_refl _)

theorem follows_discard (a : Arena) (c : ContextId) : a.Follows (a.discard c) :=
  .of_subset rfl fun n member => ⟨n, (List.mem_filter.mp member).1, rfl, rfl⟩

theorem follows_collect (a : Arena) (c : ContextId) : a.Follows (a.collect c) := by
  unfold collect
  split
  · exact .refl a
  · split
    · exact .refl a
    · exact a.follows_discard c

theorem follows_modify (a : Arena) (c : ContextId) {f : ContextNode → ContextNode}
    (id : ∀ n, (f n).id = n.id) (layer : ∀ n, (f n).layer = n.layer) :
    a.Follows (a.modify c f) := by
  refine .of_subset rfl fun n member => ?_
  obtain ⟨m, isMember, rfl⟩ := List.mem_map.mp member
  refine ⟨m, isMember, ?_⟩
  split <;> simp [id, layer]

theorem follows_stage (a : Arena) : a.Follows a.stage.1 := by
  unfold stage
  split
  · exact .refl a
  · have added := a.follows_add (some rootId) .stage [a.classesDir]
    exact ⟨added.next, added.known⟩

theorem follows_createRun (a : Arena) : a.Follows a.createRun.1 :=
  a.follows_stage.trans (a.stage.1.follows_add _ _ _)

theorem follows_resetStage (a : Arena) : a.Follows a.resetStage := by
  unfold resetStage
  split
  · exact .refl a
  · have collected := fun d c => follows_collect { a with currentStage := none, current := d } c
    exact ⟨(collected _ _).next, (collected _ _).known⟩

theorem follows_load (a : Arena) (files : FileTree) (here : Location) (c : ContextId) (name : Path) :
    a.Follows (a.load files here c name).2.1 := by
  rcases a.load_cases files here c name with ⟨_, refused⟩ | ⟨_, _, _, -, refused⟩ |
    ⟨_, _, _, _, _, -, -, -, loaded⟩
  · rw [refused]
    exact .refl a
  · rw [refused]
    exact .refl a
  · rw [loaded]
    exact a.follows_modify c (fun _ => rfl) fun _ => rfl

theorem follows_without (a : Arena) (n : ContextNode) : a.Follows (a.without n) := by
  have gone := a.follows_discard n.id
  have rest : ∀ d, a.Follows { a.discard n.id with current := d } := fun d => ⟨gone.next, gone.known⟩
  unfold without
  cases n.parent with
  | none =>
    simp only [Option.map_none, Option.getD_none]
    split
    · exact rest _
    · exact gone
  | some s =>
    simp only [Option.map_some, Option.getD_some]
    split
    · exact (rest _).trans (follows_collect _ _)
    · exact gone.trans (follows_collect _ _)

theorem follows_dispose (a : Arena) (files : FileTree) (here : Location) (c : ContextId) :
    a.Follows (a.dispose files here c).2.1 := by
  rcases a.dispose_cases files here c with ⟨-, refused⟩ | ⟨n, -, -, refused⟩ | ⟨n, -, -, gone⟩
  · rw [refused]
    exact .refl a
  · rw [refused]
    exact .refl a
  · rw [gone]
    exact a.follows_without n

theorem follows_enter (a : Arena) (c : ContextId) : a.Follows (a.enter c).1 := by
  rcases a.enter_cases c with ⟨-, refused⟩ | entered
  · rw [refused]
    exact .refl a
  · rw [entered]
    exact .of_subset rfl fun n member => ⟨n, member, rfl, rfl⟩

theorem follows_perform (a : Arena) (files : FileTree) (here : Location) (call : ArenaCall) :
    a.Follows (a.perform files here call).2.1 := by
  cases call with
  | stage => exact a.follows_stage
  | resetStage => exact a.follows_resetStage
  | createRun => exact a.follows_createRun
  | load run name => exact a.follows_load files here run name
  | addPath path => exact a.follows_modify rootId (fun n => by split <;> rfl) fun n => by split <;> rfl
  | enter context => exact a.follows_enter context
  | restoreStage => exact a.follows_stage.trans (.of_subset rfl fun n member => ⟨n, member, rfl, rfl⟩)
  | resolve context name => exact .refl a
  | dispose context => exact a.follows_dispose files here context

/-! ### Which run contexts there are -/

/-- The numbers of the run contexts, smallest first. -/
def runIds (a : Arena) : List ContextId := (a.nodes.filter fun n => n.layer == .run).map ContextNode.id

theorem liveRuns_eq (a : Arena) : a.liveRuns = a.runIds.length := by
  rw [liveRuns, runIds, List.length_map, List.countP_eq_length_filter]

theorem mem_runIds : c ∈ a.runIds ↔ ∃ n ∈ a.nodes, n.layer = .run ∧ n.id = c := by
  simp [runIds, and_assoc]

theorem Grown.nodup_runIds (grown : a.Grown) : a.runIds.Nodup :=
  grown.nodup.sublist (List.filter_sublist.map _)

theorem runIds_add (a : Arena) (parent : Option ContextId) (layer : Layer) (paths : List Path) :
    (a.add parent layer paths).1.runIds = a.runIds ++ if layer = .run then [⟨a.next⟩] else [] := by
  by_cases isRun : layer = .run <;> simp [runIds, add, isRun]

theorem runIds_modify (a : Arena) (c : ContextId) {f : ContextNode → ContextNode}
    (id : ∀ n, (f n).id = n.id) (layer : ∀ n, (f n).layer = n.layer) :
    (a.modify c f).runIds = a.runIds := by
  have kept : ∀ n : ContextNode, (if n.id == c then f n else n).layer = n.layer ∧
      (if n.id == c then f n else n).id = n.id := by
    intro n
    split <;> simp [id, layer]
  simp only [runIds, modify, List.filter_map, List.map_map]
  congr 1
  · funext n
    exact (kept n).2
  · congr 1
    funext n
    simp only [Function.comp, (kept n).1]

theorem runIds_discard (a : Arena) (c : ContextId) :
    (a.discard c).runIds = a.runIds.filter (· != c) := by
  simp only [runIds, discard, List.filter_map, List.filter_filter, Function.comp_def,
    Bool.and_comm]

theorem runIds_collect (a : Arena) (notRun : c ∉ a.runIds) : (a.collect c).runIds = a.runIds := by
  unfold collect
  split
  · rfl
  · split
    · rfl
    · rw [runIds_discard, List.filter_eq_self]
      intro d member
      rw [bne_iff_ne]
      rintro rfl
      exact notRun member

theorem runIds_stage (a : Arena) : a.stage.1.runIds = a.runIds := by
  unfold stage
  split
  · rfl
  · exact (a.runIds_add (some rootId) .stage [a.classesDir]).trans (by simp)

/-- A new run context has a number that was not given before. -/
theorem runIds_createRun (a : Arena) :
    a.createRun.1.runIds = a.runIds ++ [a.createRun.2] ∧ a.next ≤ a.createRun.2.number := by
  have added : a.createRun.1.runIds = a.stage.1.runIds ++ [a.createRun.2] :=
    a.stage.1.runIds_add (some a.stage.2) .run []
  exact ⟨by rw [added, runIds_stage], a.follows_stage.next⟩

theorem Forest.stage_not_run (forest : a.Forest) (member : n ∈ a.nodes) (isStage : n.layer = .stage) :
    n.id ∉ a.runIds := by
  intro isRun
  obtain ⟨m, isMember, layered, same⟩ := mem_runIds.mp isRun
  rw [forest.eq_of_id isMember member same, isStage] at layered
  cases layered

theorem Forest.runIds_resetStage (forest : a.Forest) : a.resetStage.runIds = a.runIds := by
  unfold Arena.resetStage
  split
  · rfl
  case h_2 c isCurrent =>
    obtain ⟨s, isMember, rfl, layered⟩ := forest.current c isCurrent
    exact runIds_collect { a with currentStage := none, current := _ }
      (forest.stage_not_run isMember layered)

theorem Forest.runIds_without (forest : a.Forest) (member : n ∈ a.nodes) (isRun : n.layer = .run) :
    (a.without n).runIds = a.runIds.filter (· != n.id) := by
  obtain ⟨s, isMember, isStage, standsOn, -⟩ := forest.runs n member isRun
  have notRun : s.id ∉ (a.discard n.id).runIds := by
    rw [runIds_discard]
    exact fun isRun => forest.stage_not_run isMember isStage (List.mem_filter.mp isRun).1
  rw [← runIds_discard]
  simp only [Arena.without, standsOn, Option.map_some, Option.getD_some]
  split
  · exact runIds_collect { a.discard n.id with current := _ } notRun
  · exact runIds_collect _ notRun

theorem runIds_load (a : Arena) (files : FileTree) (here : Location) (c : ContextId) (name : Path) :
    (a.load files here c name).2.1.runIds = a.runIds := by
  rcases a.load_cases files here c name with ⟨_, refused⟩ | ⟨_, _, _, -, refused⟩ |
    ⟨_, _, _, _, _, -, -, -, loaded⟩
  · rw [refused]
  · rw [refused]
  · rw [loaded]
    exact a.runIds_modify c (fun _ => rfl) fun _ => rfl

theorem runIds_enter (a : Arena) (c : ContextId) : (a.enter c).1.runIds = a.runIds := by
  rcases a.enter_cases c with ⟨-, refused⟩ | entered
  · rw [refused]
  · rw [entered]
    rfl

/-- A run context that is taken away is no more; a refusal leaves the arena as it is. -/
theorem Forest.runIds_dispose (forest : a.Forest) (files : FileTree) (here : Location)
    (c : ContextId) :
    (∃ e, a.dispose files here c = (files, a, .error e) ∧ c ∉ a.runIds) ∨
      (a.dispose files here c).2.2 = .ok () ∧ c ∈ a.runIds ∧
        (a.dispose files here c).2.1.runIds = a.runIds.filter (· != c) ∧
        (a.dispose files here c).2.1.node? c = none := by
  rcases a.dispose_cases files here c with ⟨unknown, refused⟩ | ⟨n, found, notRun, refused⟩ |
    ⟨n, found, isRun, gone⟩
  · refine .inl ⟨_, refused, fun isRun => ?_⟩
    obtain ⟨n, member, -, same⟩ := mem_runIds.mp isRun
    exact node?_eq_none_iff.mp unknown n member same
  · refine .inl ⟨_, refused, fun isRun => ?_⟩
    obtain ⟨member, rfl⟩ := mem_of_node? found
    obtain ⟨m, isMember, layered, same⟩ := mem_runIds.mp isRun
    exact notRun (forest.eq_of_id isMember member same ▸ layered)
  · obtain ⟨member, rfl⟩ := mem_of_node? found
    rw [gone]
    refine .inr ⟨rfl, mem_runIds.mpr ⟨n, member, isRun, rfl⟩, forest.runIds_without member isRun, ?_⟩
    have gone : (a.discard n.id).node? n.id = none := by
      refine node?_eq_none_iff.mpr fun m isMember => ?_
      simpa using (List.mem_filter.mp isMember).2
    have collected : ∀ rest : Arena, rest.next = a.next → rest.node? n.id = none →
        ∀ s, (rest.collect s).node? n.id = none := by
      intro rest next gone s
      exact (rest.follows_collect s).gone (next ▸ forest.issued n member) gone
    obtain ⟨s, -, -, standsOn, -⟩ := forest.runs n member isRun
    simp only [Arena.without, standsOn, Option.map_some, Option.getD_some]
    split
    · exact collected { a.discard n.id with current := (a.discard n.id).currentStage.getD rootId }
        rfl gone _
    · exact collected (a.discard n.id) rfl gone _

/-- A number that can only be that of a run context is that of none after the disposal. -/
theorem RunIfLive.dispose (isRun : a.RunIfLive c) (forest : a.Forest) (files : FileTree)
    (here : Location) : (a.dispose files here c).2.1.node? c = none := by
  rcases forest.runIds_dispose files here c with ⟨e, refused, notRun⟩ | ⟨-, -, -, gone⟩
  · rw [refused]
    refine node?_eq_none_iff.mpr fun n member same => notRun ?_
    exact mem_runIds.mpr ⟨n, member, isRun n member same, same⟩
  · exact gone

/-- A run context that was just made is one. -/
theorem Forest.runIfLive_createRun (forest : a.Forest) : a.createRun.1.RunIfLive a.createRun.2 := by
  intro n member same
  have isRun : a.createRun.2 ∈ a.createRun.1.runIds := by simp [(runIds_createRun a).1]
  obtain ⟨m, isMember, layered, same'⟩ := mem_runIds.mp isRun
  exact forest.createRun.eq_of_id isMember member (same'.trans same.symm) ▸ layered

/-! ### Contexts that are gone -/

end Arena

/-- The context that a call names. -/
def ArenaCall.named? : ArenaCall → Option ContextId
  | .load c _ | .enter c | .resolve c _ | .dispose c => some c
  | .stage | .resetStage | .createRun | .addPath _ | .restoreStage => none

namespace Arena

variable {a a' : Arena} {c : ContextId} {n : ContextNode}

/-- Whether an arena does not know a context: every call that names it is refused and changes
nothing, and every question about it yields nothing. -/
structure Disowns (a : Arena) (c : ContextId) : Prop where
  refused : ∀ files here call, call.named? = some c →
    a.perform files here call = (files, a, .error (.unknownContext c))
  searchPath : a.searchPath c = []
  layer : a.layer? c = none
  loaded : a.loaded? c = none

theorem disowns_of_none (unknown : a.node? c = none) : a.Disowns c := by
  have notLive := live_of_none unknown
  constructor
  · intro files here call named
    cases call with
    | load run name =>
      cases named
      have notLoadable : a.loadable c = .error (.unknownContext c) := by
        simp only [loadable, notLive, bind, Except.bind]
      simp only [perform, load, notLoadable, Except.map]
    | enter context =>
      cases named
      simp only [perform, enter, notLive, Except.map]
    | resolve context name =>
      cases named
      simp only [perform, resolve, notLive, bind, Except.bind, Except.map]
    | dispose context =>
      cases named
      simp only [perform, dispose, notLive, Except.map]
    | _ => cases named
  · simp [searchPath, searchFrom, unknown]
  · simp [layer?, unknown]
  · simp [loaded?, unknown]

/-! ### Any sequence of calls -/

/-- An arena with what became of it so far. -/
structure Record where
  arena : Arena
  /-- The numbers of the contexts that came to be, oldest first. -/
  issued : List ContextId
  /-- The calls with their answers, oldest first. -/
  answers : List (ArenaCall × Except ResolutionError ArenaReply)

/-- The contexts of one arena that the other does not have. -/
def newcomers (a a' : Arena) : List ContextId :=
  (a'.nodes.map ContextNode.id).filter fun c => (a.node? c).isNone

namespace Record

/-- A new arena. -/
def start (rootPaths : List Path) (classesDir scratchDir : Path) (naming : Naming := .counting) :
    Record :=
  ⟨.fresh rootPaths classesDir scratchDir naming, [rootId], []⟩

/-- The record after one more call, which finds the files in some state. -/
def ask (here : Location) (r : Record) (x : FileTree × ArenaCall) : Record :=
  let (_, a, answer) := r.arena.perform x.1 here x.2
  ⟨a, r.issued ++ r.arena.newcomers a, r.answers ++ [(x.2, answer)]⟩

def after (r : Record) (here : Location) (calls : List (FileTree × ArenaCall)) : Record :=
  calls.foldl (ask here) r

/-- Whether a call made a run context. -/
def isCreation (x : ArenaCall × Except ResolutionError ArenaReply) : Bool := x.1 == .createRun

/-- Whether a call took a run context away. -/
def isDisposal : ArenaCall × Except ResolutionError ArenaReply → Bool
  | (.dispose _, .ok _) => true
  | _ => false

/-- What holds of a record between two calls. -/
structure Kept (r : Record) : Prop where
  forest : r.arena.Forest
  unique : r.issued.Nodup
  given : ∀ c ∈ r.issued, c.number < r.arena.next
  known : ∀ n ∈ r.arena.nodes, n.id ∈ r.issued
  balance : r.arena.liveRuns + r.answers.countP isDisposal = r.answers.countP isCreation
  gone : ∀ c reply, (.dispose c, .ok reply) ∈ r.answers → c ∈ r.issued ∧ r.arena.node? c = none

theorem Kept.start (rootPaths : List Path) (classesDir scratchDir : Path) (naming : Naming) :
    (start rootPaths classesDir scratchDir naming).Kept where
  forest := .fresh rootPaths classesDir scratchDir naming
  unique := List.nodup_singleton _
  given := by simp [Record.start, Arena.fresh, rootId]
  known := by simp [Record.start, Arena.fresh]
  balance := rfl
  gone := by simp [Record.start]

end Record

theorem newcomers_new (follows : a.Follows a') {d : ContextId} (new : d ∈ a.newcomers a') :
    a.next ≤ d.number := by
  obtain ⟨member, unknown⟩ := List.mem_filter.mp new
  obtain ⟨n, isMember, rfl⟩ := List.mem_map.mp member
  rcases follows.known n isMember with ⟨m, isOld, same, -⟩ | new
  · exact absurd same (node?_eq_none_iff.mp (by simpa using unknown) m isOld)
  · exact new

/-- A call makes one run context more if it is to make one, and one less if it takes one away. -/
theorem Forest.liveRuns_perform (forest : a.Forest) (files : FileTree) (here : Location)
    (call : ArenaCall) :
    (a.perform files here call).2.1.liveRuns +
        (if Record.isDisposal (call, (a.perform files here call).2.2) then 1 else 0) =
      a.liveRuns + if call = .createRun then 1 else 0 := by
  simp only [liveRuns_eq]
  cases call with
  | stage => simp [Arena.perform, runIds_stage, Record.isDisposal]
  | resetStage => simp [Arena.perform, forest.runIds_resetStage, Record.isDisposal]
  | createRun => simp [Arena.perform, a.runIds_createRun.1, Record.isDisposal]
  | load run name => simp [Arena.perform, runIds_load, Record.isDisposal]
  | addPath path =>
    have same : (a.addPath path).runIds = a.runIds :=
      a.runIds_modify rootId (fun n => by split <;> rfl) fun n => by split <;> rfl
    simp [Arena.perform, same, Record.isDisposal]
  | enter context => simp [Arena.perform, runIds_enter, Record.isDisposal]
  | restoreStage =>
    have same : a.restoreStage.1.runIds = a.runIds := a.runIds_stage
    simp [Arena.perform, same, Record.isDisposal]
  | resolve context name => simp [Arena.perform, Record.isDisposal]
  | dispose context =>
    rcases forest.runIds_dispose files here context with ⟨e, refused, -⟩ | ⟨done, isRun, less, -⟩
    · simp [Arena.perform, refused, Except.map, Record.isDisposal]
    · have single : a.runIds.length = (a.runIds.filter (· != context)).length + 1 := by
        rw [← List.Nodup.erase_eq_filter forest.nodup_runIds, List.length_erase_of_mem isRun]
        have some := List.length_pos_of_mem isRun
        omega
      simp [Arena.perform, done, less, single, Except.map, Record.isDisposal]

namespace Record

variable {r : Record}

theorem Kept.ask (kept : r.Kept) (here : Location) (x : FileTree × ArenaCall) :
    (r.ask here x).Kept := by
  obtain ⟨files, call⟩ := x
  have follows := r.arena.follows_perform files here call
  have new : ∀ d ∈ r.arena.newcomers (r.arena.perform files here call).2.1,
      r.arena.next ≤ d.number := fun d => newcomers_new follows
  have forest := kept.forest.perform files here call
  constructor
  · exact forest
  · refine List.nodup_append.mpr ⟨kept.unique, forest.nodup.filter _, ?_⟩
    rintro c given d isNew rfl
    exact Nat.lt_irrefl _ (Nat.lt_of_lt_of_le (kept.given c given) (new c isNew))
  · intro c member
    rcases List.mem_append.mp member with old | isNew
    · exact Nat.lt_of_lt_of_le (kept.given c old) follows.next
    · obtain ⟨n, isMember, rfl⟩ := List.mem_map.mp (List.mem_filter.mp isNew).1
      exact forest.issued n isMember
  · intro n member
    refine List.mem_append.mpr ?_
    cases unknown : r.arena.node? n.id with
    | none =>
      exact .inr (List.mem_filter.mpr ⟨List.mem_map_of_mem member, by simp [unknown]⟩)
    | some m =>
      obtain ⟨isMember, same⟩ := mem_of_node? unknown
      exact .inl (same ▸ kept.known m isMember)
  · have balance := kept.balance
    have counted := kept.forest.liveRuns_perform files here call
    have answered : (r.ask here (files, call)).answers =
        r.answers ++ [(call, (r.arena.perform files here call).2.2)] := rfl
    have arena : (r.ask here (files, call)).arena = (r.arena.perform files here call).2.1 := rfl
    simp only [answered, arena, List.countP_append, List.countP_singleton, isCreation,
      beq_iff_eq] at balance ⊢
    omega
  · intro c reply member
    rcases List.mem_append.mp member with old | new
    · obtain ⟨given, gone⟩ := kept.gone c reply old
      exact ⟨List.mem_append_left _ given, follows.gone (kept.given c given) gone⟩
    · obtain ⟨rfl, answer⟩ := Prod.mk.inj (List.mem_singleton.mp new)
      rcases kept.forest.runIds_dispose files here c with ⟨e, refused, -⟩ | ⟨-, isRun, -, gone⟩
      · simp [refused, Except.map] at answer
      · obtain ⟨n, isMember, -, rfl⟩ := mem_runIds.mp isRun
        exact ⟨List.mem_append_left _ (kept.known n isMember), gone⟩

theorem Kept.after (kept : r.Kept) (here : Location) (calls : List (FileTree × ArenaCall)) :
    (r.after here calls).Kept := by
  induction calls generalizing r with
  | nil => exact kept
  | cons x rest ih => exact ih (kept.ask here x)

/-- Whatever is asked of an arena, and however the files change in between: its contexts form a
forest, no number is given twice, the run contexts are those made and not taken away, and no call
that names a context which is gone does anything. -/
theorem forest_after (rootPaths : List Path) (classesDir scratchDir : Path) (naming : Naming)
    (here : Location) (calls : List (FileTree × ArenaCall)) :
    let r := (start rootPaths classesDir scratchDir naming).after here calls
    r.arena.Forest ∧ r.issued.Nodup ∧ (∀ n ∈ r.arena.nodes, n.id ∈ r.issued) ∧
      r.arena.liveRuns + r.answers.countP isDisposal = r.answers.countP isCreation ∧
      (∀ c ∈ r.issued, r.arena.node? c = none → r.arena.Disowns c) ∧
      ∀ c reply, (.dispose c, .ok reply) ∈ r.answers → r.arena.Disowns c := by
  intro r
  have kept : r.Kept := (Kept.start rootPaths classesDir scratchDir naming).after here calls
  exact ⟨kept.forest, kept.unique, kept.known, kept.balance, fun c _ => disowns_of_none,
    fun c reply disposed => disowns_of_none (kept.gone c reply disposed).2⟩

end Record
end Arena
end SimWorkbench
