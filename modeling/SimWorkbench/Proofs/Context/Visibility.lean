import SimWorkbench.Proofs.Context.Current
import SimWorkbench.Proofs.Context.Isolation

/-!
# What a context sees

The places seen from a context are collected by walking from it to its parents. The walk comes to its
end, and what it collects depends on the context alone: its private copy, the executables unless it is
the root, and the libraries, which only grow at their end. So no call changes what a context sees but
one that adds a library or loads into the context.
-/
namespace SimWorkbench

namespace Arena

variable {a a' : Arena} {files : FileTree} {here : Location} {c : ContextId} {n : ContextNode}
  {libraries : List Path}

/-! ### The walk -/

/-- How the places seen from a context are collected: its own and then those seen from its parent, until
there is none. -/
inductive Sees (a : Arena) : Option ContextId → List Path → Prop
  | none : a.Sees none []
  | unknown {c : ContextId} (unknown : a.node? c = none) : a.Sees (some c) []
  | next {c : ContextId} {n : ContextNode} {above : List Path} (found : a.node? c = some n)
      (sees : a.Sees n.parent above) : a.Sees (some c) (n.paths ++ above)

/-- Whether the walk collects these places, in as many steps at most. -/
def SeesWithin (a : Arena) (steps : Nat) (c : Option ContextId) (places : List Path) : Prop :=
  a.Sees c places ∧ ∀ depth, steps ≤ depth → a.searchFrom depth c = places

theorem seesWithin_none (a : Arena) : a.SeesWithin 0 none [] :=
  ⟨.none, fun depth _ => by cases depth <;> rfl⟩

theorem SeesWithin.next {steps : Nat} {above : List Path} (found : a.node? c = some n)
    (sees : a.SeesWithin steps n.parent above) :
    a.SeesWithin (steps + 1) (some c) (n.paths ++ above) := by
  refine ⟨.next found sees.1, fun depth enough => ?_⟩
  have some : 0 < depth := Nat.lt_of_lt_of_le steps.succ_pos enough
  obtain ⟨depth, rfl⟩ := Nat.exists_eq_succ_of_ne_zero (Nat.ne_of_gt some)
  simp only [searchFrom, found, sees.2 depth (Nat.le_of_succ_le_succ enough)]

/-- The walk ends, and the search stops no earlier. -/
theorem SeesWithin.searchPath {steps : Nat} {places : List Path}
    (sees : a.SeesWithin steps (some c) places) (enough : steps ≤ a.nodes.length + 1) :
    a.Sees (some c) (a.searchPath c) ∧ a.searchPath c = places := by
  have same : a.searchPath c = places := sees.2 _ enough
  exact ⟨same ▸ sees.1, same⟩

/-! ### What contexts add -/

/-- The places that a context of a layer adds, apart from its copy. -/
def layerPaths (libraries : List Path) (classesDir : Path) : Layer → List Path
  | .root => libraries
  | .stage => [classesDir]
  | .run => []

end Arena

/-- Whether a context adds what its layer is to add, and its private directory if it has loaded. -/
structure ContextNode.Shows (libraries : List Path) (classesDir : Path) (n : ContextNode) : Prop where
  paths : n.paths = Arena.layerPaths libraries classesDir n.layer ++ n.snapshot.toList
  own : n.layer ≠ .run → n.snapshot = none
  copy : n.loaded = none ∧ n.snapshot = none ∨
    ∃ loaded dir, n.loaded = some loaded ∧ n.snapshot = some dir ∧
      loaded.executable = dir.child (loaded.origin.fileName?.getD loaded.origin.text)

/-- The libraries after a call: one that is there already is not added again. -/
def ArenaCall.shelve (libraries : List Path) : ArenaCall → List Path
  | .addPath p => if libraries.any fun q => q.same p then libraries else libraries ++ [p]
  | _ => libraries

namespace Arena

variable {a a' : Arena} {files : FileTree} {here : Location} {c : ContextId} {n m : ContextNode}
  {libraries : List Path}

/-- A context that is new shows a layer and has loaded nothing. -/
def Blank (classesDir : Path) (n : ContextNode) : Prop :=
  n.layer ≠ .root ∧ n.paths = layerPaths [] classesDir n.layer ∧ n.loaded = none ∧ n.snapshot = none

/-- What a context can be after a call: it was there, it is new, it is the root with one library more,
if it did not have it, or it is the run context into which something was loaded. -/
inductive Becomes (a : Arena) (call : ArenaCall) (n : ContextNode) : Prop
  | kept (member : n ∈ a.nodes) (others : n.id = rootId → ∀ p, call ≠ .addPath p)
  | new (unissued : a.next ≤ n.id.number) (blank : Blank a.classesDir n)
  | shelved {root : ContextNode} (member : root ∈ a.nodes) (isRoot : root.id = rootId)
      (same : n = { root with paths := call.shelve root.paths })
  | loaded {run : ContextNode} {name dir : Path} {artifact : LoadedArtifact} (member : run ∈ a.nodes)
      (isRun : run.layer = .run) (empty : run.loaded = none) (asked : call = .load run.id name)
      (inDir : artifact.executable = dir.child (artifact.origin.fileName?.getD artifact.origin.text))
      (same : n = { run with
        paths := run.paths ++ [dir], loaded := some artifact, snapshot := some dir })

theorem becomes_stage (member : n ∈ a.stage.1.nodes) {call : ArenaCall}
    (others : ∀ p, call ≠ .addPath p) : a.Becomes call n := by
  rcases a.mem_stage.mp member with old | ⟨-, rfl⟩
  · exact .kept old fun _ => others
  · exact .new (Nat.le_refl _) ⟨by simp, rfl, rfl, rfl⟩

theorem becomes_createRun (member : n ∈ a.createRun.1.nodes) : a.Becomes .createRun n := by
  rcases List.mem_append.mp member with old | new
  · exact becomes_stage old (by simp)
  · rw [List.mem_singleton.mp new]
    exact .new a.follows_stage.next ⟨by simp, rfl, rfl, rfl⟩

/-- The contexts after a change of one. -/
theorem mem_modify {f : ContextNode → ContextNode} (member : n ∈ (a.modify c f).nodes) :
    (n ∈ a.nodes ∧ n.id ≠ c) ∨ ∃ m ∈ a.nodes, m.id = c ∧ n = f m := by
  obtain ⟨m, isMember, same⟩ := List.mem_map.mp member
  by_cases isOwn : m.id = c
  · rw [if_pos (by simpa using isOwn)] at same
    exact .inr ⟨m, isMember, isOwn, same.symm⟩
  · rw [if_neg (by simpa using isOwn)] at same
    exact .inl ⟨same ▸ isMember, same ▸ isOwn⟩

theorem becomes_addPath {p : Path} (member : n ∈ (a.addPath p).nodes) :
    a.Becomes (.addPath p) n := by
  rcases mem_modify member with ⟨old, notRoot⟩ | ⟨root, isMember, isRoot, rfl⟩
  · exact .kept old fun isRoot => absurd isRoot notRoot
  · refine .shelved isMember isRoot ?_
    simp only [ArenaCall.shelve]
    split <;> rfl

/-- The copy that was taken stands in the private directory. -/
theorem takeSnapshot_executable {origin dir executable : Path} {files' : FileTree}
    (taken : a.takeSnapshot files here origin c = (files', .ok (dir, executable))) :
    executable = dir.child (origin.fileName?.getD origin.text) := by
  unfold takeSnapshot at taken
  split at taken
  · cases taken
  simp only at taken
  split at taken
  · cases taken
  split at taken
  · cases taken
  split at taken <;> cases taken
  rfl

theorem becomes_load {run : ContextId} {name : Path} (grown : a.Grown)
    (member : n ∈ (a.load files here run name).2.1.nodes) : a.Becomes (.load run name) n := by
  have kept : ∀ {m : ContextNode}, m ∈ a.nodes → a.Becomes (.load run name) m :=
    fun old => .kept old (by simp)
  rcases a.load_cases files here run name with ⟨_, refused⟩ | ⟨_, _, _, -, refused⟩ |
    ⟨_, origin, _, dir, executable, loadable, -, taken, loaded⟩
  · rw [refused] at member
    exact kept member
  · rw [refused] at member
    exact kept member
  · rw [loaded] at member
    rcases mem_modify member with ⟨old, -⟩ | ⟨m, isMember, rfl, same⟩
    · exact kept old
    · obtain ⟨own, found, isRun, empty⟩ := node_of_loadable loadable
      obtain rfl : own = m := by
        rw [grown.node?_of_mem isMember] at found
        exact (Option.some.inj found).symm
      exact @Becomes.loaded a _ n own name dir ⟨own.id, name, origin, executable⟩ isMember isRun empty
        rfl (takeSnapshot_executable taken) same

theorem sublist_resetStage (a : Arena) : a.resetStage.nodes.Sublist a.nodes := by
  unfold resetStage
  split
  · exact .refl _
  · exact sublist_collect { a with currentStage := none, current := _ } _

theorem sublist_dispose (a : Arena) (files : FileTree) (here : Location) (c : ContextId) :
    (a.dispose files here c).2.1.nodes.Sublist a.nodes := by
  rcases a.dispose_cases files here c with ⟨-, refused⟩ | ⟨n, -, -, refused⟩ | ⟨n, -, -, gone⟩
  · rw [refused]
  · rw [refused]
  · rw [gone]
    exact a.sublist_without n

/-- What a context is after a call follows from what it was. -/
theorem Forest.becomes (forest : a.Forest) {call : ArenaCall}
    (member : n ∈ (a.perform files here call).2.1.nodes) : a.Becomes call n := by
  cases call with
  | stage => exact becomes_stage member (by simp)
  | restoreStage => exact becomes_stage member (by simp)
  | createRun => exact becomes_createRun member
  | addPath p => exact becomes_addPath member
  | load run name => exact becomes_load forest.toGrown member
  | resetStage => exact .kept (a.sublist_resetStage.subset member) (by simp)
  | enter d =>
    have same : (a.enter d).1.nodes = a.nodes := by
      rcases a.enter_cases d with ⟨-, refused⟩ | entered
      · rw [refused]
      · rw [entered]
    exact .kept (same ▸ member) (by simp)
  | resolve d name => exact .kept member (by simp)
  | dispose d => exact .kept ((sublist_dispose a files here d).subset member) (by simp)

/-- A call keeps what contexts add, with its library if it adds one. -/
theorem Forest.shows (forest : a.Forest)
    (shows : ∀ n ∈ a.nodes, n.Shows libraries a.classesDir) {call : ArenaCall}
    (member : n ∈ (a.perform files here call).2.1.nodes) :
    n.Shows (call.shelve libraries) a.classesDir := by
  obtain ⟨root, isRoot, isRootId, isRootLayer, -, only⟩ := forest.root
  have shelf : ∀ layer : Layer, layer ≠ .root → layerPaths (call.shelve libraries) a.classesDir layer =
      layerPaths libraries a.classesDir layer := by
    rintro (_ | _ | _) notRoot
    · exact absurd rfl notRoot
    · rfl
    · rfl
  cases forest.becomes member with
  | kept old others =>
    obtain ⟨paths, own, copy⟩ := shows n old
    refine ⟨?_, own, copy⟩
    by_cases layered : n.layer = .root
    · obtain rfl := only n old layered
      have same : call.shelve libraries = libraries := by
        cases call <;> first | rfl | exact absurd rfl (others isRootId _)
      rwa [same]
    · rwa [shelf n.layer layered]
  | new unissued blank =>
    obtain ⟨notRoot, paths, empty, none⟩ := blank
    refine ⟨?_, fun _ => none, .inl ⟨empty, none⟩⟩
    rw [paths, none, Option.toList_none, List.append_nil]
    cases layered : n.layer with
    | root => exact absurd layered notRoot
    | stage => rfl
    | run => rfl
  | @shelved m isMember isId same =>
    obtain rfl := forest.eq_of_id isMember isRoot (isId.trans isRootId.symm)
    obtain ⟨paths, own, copy⟩ := shows m isMember
    have noCopy : m.snapshot = none := own (by simp [isRootLayer])
    subst same
    refine ⟨?_, own, copy⟩
    simpa [noCopy, isRootLayer, layerPaths] using congrArg call.shelve paths
  | @loaded run name dir artifact isMember isRun empty asked inDir same =>
    obtain ⟨paths, own, copy⟩ := shows run isMember
    have noCopy : run.snapshot = none := by
      rcases copy with ⟨-, none⟩ | ⟨_, _, some, -⟩
      · exact none
      · cases empty.symm.trans some
    subst same
    refine ⟨?_, fun notRun => absurd isRun notRun, .inr ⟨artifact, dir, rfl, rfl, inDir⟩⟩
    simp [paths, noCopy, isRun, layerPaths]

/-! ### What is seen -/

/-- The places that a context is to see: its copy, the executables unless it is the root, and the
libraries. -/
def places (libraries : List Path) (classesDir : Path) (n : ContextNode) : List Path :=
  n.snapshot.toList ++ ((if n.layer = .root then [] else [classesDir]) ++ libraries)

theorem Forest.seesRoot (forest : a.Forest) (shows : ∀ n ∈ a.nodes, n.Shows libraries a.classesDir) :
    a.SeesWithin 1 (some rootId) libraries := by
  obtain ⟨root, isRoot, isRootId, isRootLayer, noParent, -⟩ := forest.root
  obtain ⟨paths, own, -⟩ := shows root isRoot
  have noCopy : root.snapshot = none := own (by simp [isRootLayer])
  have shown : root.paths = libraries := by simpa [isRootLayer, noCopy, layerPaths] using paths
  have sees := SeesWithin.next (forest.toGrown.node?_of_mem isRoot)
    (noParent ▸ a.seesWithin_none)
  rwa [isRootId, shown, List.append_nil] at sees

theorem Forest.seesStage (forest : a.Forest) (shows : ∀ n ∈ a.nodes, n.Shows libraries a.classesDir)
    (member : n ∈ a.nodes) (isStage : n.layer = .stage) :
    a.SeesWithin 2 (some n.id) (a.classesDir :: libraries) := by
  obtain ⟨paths, own, -⟩ := shows n member
  have noCopy : n.snapshot = none := own (by simp [isStage])
  have shown : n.paths = [a.classesDir] := by simpa [isStage, noCopy, layerPaths] using paths
  have sees := SeesWithin.next (forest.toGrown.node?_of_mem member)
    (forest.stages n member isStage ▸ forest.seesRoot shows)
  rwa [shown] at sees

/-- A context sees its places, at the end of a walk that takes no more steps than there are
contexts. -/
theorem Forest.sees (forest : a.Forest) (shows : ∀ n ∈ a.nodes, n.Shows libraries a.classesDir)
    (member : n ∈ a.nodes) :
    a.Sees (some n.id) (a.searchPath n.id) ∧ a.searchPath n.id = places libraries a.classesDir n := by
  obtain ⟨root, isRoot, isRootId, isRootLayer, -, only⟩ := forest.root
  have some : 0 < a.nodes.length := List.length_pos_of_mem isRoot
  obtain ⟨paths, own, -⟩ := shows n member
  cases layered : n.layer with
  | root =>
    obtain rfl := only n member layered
    have sees := forest.seesRoot shows
    have noCopy : n.snapshot = none := own (by simp [layered])
    rw [isRootId]
    simpa [places, layered, noCopy] using sees.searchPath (by omega)
  | stage =>
    have noCopy : n.snapshot = none := own (by simp [layered])
    simpa [places, layered, noCopy] using (forest.seesStage shows member layered).searchPath (by omega)
  | run =>
    obtain ⟨s, isMember, isStage, standsOn, -⟩ := forest.runs n member layered
    have shown : n.paths = n.snapshot.toList := by simpa [layered, layerPaths] using paths
    have sees := SeesWithin.next (forest.toGrown.node?_of_mem member)
      (standsOn ▸ forest.seesStage shows isMember isStage)
    -- The root and the stage are two contexts already.
    have two : 2 ≤ a.nodes.length := by
      have distinct : [root, s].Nodup := by
        refine List.nodup_cons.mpr ⟨fun same => ?_, List.nodup_singleton s⟩
        rw [List.mem_singleton.mp same, isStage] at isRootLayer
        cases isRootLayer
      have both : [root, s] ⊆ a.nodes := by simp [isRoot, isMember]
      exact (List.Nodup.subperm distinct both).length_le
    rw [shown] at sees
    simpa [places, layered] using sees.searchPath (by omega)

/-- A context that a call keeps sees what it saw, unless the call adds a library or loads into it. -/
theorem Forest.searchPath_perform (forest : a.Forest)
    (shows : ∀ n ∈ a.nodes, n.Shows libraries a.classesDir) {call : ArenaCall}
    (known : a.node? c ≠ none) (kept : (a.perform files here call).2.1.node? c ≠ none)
    (noLibrary : ∀ p, call ≠ .addPath p) (noLoad : ∀ name, call ≠ .load c name) :
    (a.perform files here call).2.1.searchPath c = a.searchPath c := by
  obtain ⟨m, isNode⟩ := Option.ne_none_iff_exists'.mp known
  obtain ⟨isMember, rfl⟩ := mem_of_node? isNode
  obtain ⟨n, isNode'⟩ := Option.ne_none_iff_exists'.mp kept
  obtain ⟨isMember', same⟩ := mem_of_node? isNode'
  have unshelved : call.shelve libraries = libraries := by
    cases call <;> first | rfl | exact absurd rfl (noLibrary _)
  have shows' : ∀ n ∈ (a.perform files here call).2.1.nodes,
      n.Shows libraries (a.perform files here call).2.1.classesDir := by
    intro n member
    rw [(a.sameDirs_perform files here call).1, ← unshelved]
    exact forest.shows shows member
  have sees := ((forest.perform files here call).sees shows' isMember').2
  rw [same, (a.sameDirs_perform files here call).1] at sees
  rw [sees, (forest.sees shows isMember).2]
  cases forest.becomes isMember' with
  | kept old _ => rw [forest.eq_of_id old isMember same]
  | new unissued _ =>
    have issued := forest.issued m isMember
    rw [same] at unissued
    omega
  | @shelved root isRoot isRootId becomes =>
    have isOld : root = m := by
      refine forest.eq_of_id isRoot isMember ?_
      rw [← same, becomes]
    rw [becomes, isOld]
    rfl
  | @loaded run name dir artifact isRunMember _ _ asked _ becomes =>
    have isOld : run.id = m.id := by rw [← same, becomes]
    exact absurd (isOld ▸ asked) (noLoad name)

theorem prefix_shelve (libraries : List Path) (call : ArenaCall) :
    libraries <+: call.shelve libraries := by
  cases call with
  | addPath p =>
    rw [ArenaCall.shelve]
    split
    · exact List.prefix_refl _
    · exact List.prefix_append _ _
  | _ => exact List.prefix_refl _

/-- What is known stays known when a library is added, and is seen as before in front of it. -/
theorem Forest.prefix_addPath (forest : a.Forest)
    (shows : ∀ n ∈ a.nodes, n.Shows libraries a.classesDir) (isNode : a.node? c = some n) (p : Path) :
    ∃ m, (a.addPath p).node? c = some m ∧ a.searchPath c <+: (a.addPath p).searchPath c := by
  obtain ⟨member, rfl⟩ := mem_of_node? isNode
  have shows' : ∀ m ∈ (a.perform .empty [] (.addPath p)).2.1.nodes,
      m.Shows ((ArenaCall.addPath p).shelve libraries) a.classesDir := fun _ => forest.shows shows
  -- The context itself may be the root, which shows one library more.
  obtain ⟨m, isMember, same, layer, copy⟩ : ∃ m ∈ (a.addPath p).nodes, m.id = n.id ∧
      m.layer = n.layer ∧ m.snapshot = n.snapshot := by
    refine ⟨_, List.mem_map_of_mem member, ?_⟩
    split
    · dsimp only
      split <;> exact ⟨rfl, rfl, rfl⟩
    · exact ⟨rfl, rfl, rfl⟩
  have sees := (forest.sees shows member).2
  have sees' := ((forest.addPath p).sees shows' isMember).2
  rw [same] at sees'
  obtain ⟨more, shelf⟩ := prefix_shelve libraries (.addPath p)
  refine ⟨m, same ▸ (forest.addPath p).node?_of_mem isMember, more, ?_⟩
  rw [sees, sees', places, places, layer, copy, ← shelf]
  simp only [List.append_assoc]
  rfl

/-- What is found is found in the same place after a library was added. -/
theorem Forest.resolve_addPath (forest : a.Forest)
    (shows : ∀ n ∈ a.nodes, n.Shows libraries a.classesDir) {name found : Path}
    (resolved : a.resolve files here c name = .ok found) (p : Path) :
    (a.addPath p).resolve files here c name = .ok found := by
  unfold resolve at resolved
  cases isNode : a.node? c with
  | none => simp [live_of_none isNode, bind, Except.bind] at resolved
  | some n =>
    obtain ⟨m, isNode', front⟩ := forest.prefix_addPath shows isNode p
    obtain ⟨more, sees⟩ := front
    simp only [live_of_node? isNode, bind, Except.bind] at resolved
    split at resolved
    · rename_i q isFound
      cases resolved
      simp only [resolve, live_of_node? isNode', bind, Except.bind, ← sees, List.map_append,
        List.find?_append, isFound, Option.some_or]
    · cases resolved

end Arena

namespace Arena.Record

variable {r : Record} {here : Location} {rootPaths : List Path}

/-- The libraries after some calls. -/
def libraries (rootPaths : List Path) (calls : List (FileTree × ArenaCall)) : List Path :=
  calls.foldl (fun libraries x => x.2.shelve libraries) rootPaths

theorem shows_fresh (rootPaths : List Path) (classesDir scratchDir : Path) (naming : Naming) :
    ∀ n ∈ (start rootPaths classesDir scratchDir naming).arena.nodes, n.Shows rootPaths classesDir := by
  intro n member
  rw [List.mem_singleton.mp member]
  exact ⟨by simp [layerPaths], fun _ => rfl, .inl ⟨rfl, rfl⟩⟩

theorem shows_after (forest : r.arena.Forest)
    (shows : ∀ n ∈ r.arena.nodes, n.Shows rootPaths r.arena.classesDir)
    (calls : List (FileTree × ArenaCall)) :
    (r.after here calls).arena.Forest ∧
      (r.after here calls).arena.classesDir = r.arena.classesDir ∧
      ∀ n ∈ (r.after here calls).arena.nodes,
        n.Shows (libraries rootPaths calls) r.arena.classesDir := by
  induction calls generalizing r rootPaths with
  | nil => exact ⟨forest, rfl, shows⟩
  | cons x calls ih =>
    obtain ⟨files, call⟩ := x
    have sameDir : (r.ask here (files, call)).arena.classesDir = r.arena.classesDir :=
      (r.arena.sameDirs_perform files here call).1
    have shows' : ∀ n ∈ (r.ask here (files, call)).arena.nodes,
        n.Shows (call.shelve rootPaths) (r.ask here (files, call)).arena.classesDir := by
      rw [sameDir]
      exact fun n member => forest.shows shows member
    have goesOn := ih (forest.perform files here call) shows'
    rwa [sameDir] at goesOn

/-- Whatever is asked of an arena, however the files change in between: what a context sees is found by
a walk that ends, its private copy first, then the executables unless it is the root, then the libraries
in the order in which they came. A call that keeps a context changes nothing of it unless it adds a
library or loads into the context, and a library that is added changes nothing of what is found. -/
theorem search_path_stable (rootPaths : List Path) (classesDir scratchDir : Path) (naming : Naming)
    (here : Location) (calls : List (FileTree × ArenaCall)) :
    let a := ((start rootPaths classesDir scratchDir naming).after here calls).arena
    (∀ n ∈ a.nodes, a.Sees (some n.id) (a.searchPath n.id) ∧
      a.searchPath n.id = places (libraries rootPaths calls) classesDir n ∧
      n.Shows (libraries rootPaths calls) classesDir) ∧
    (∀ files call c, a.node? c ≠ none → (a.perform files here call).2.1.node? c ≠ none →
      (∀ p, call ≠ .addPath p) → (∀ name, call ≠ .load c name) →
      (a.perform files here call).2.1.searchPath c = a.searchPath c) ∧
    ∀ files c name found p, a.resolve files here c name = .ok found →
      (a.addPath p).resolve files here c name = .ok found := by
  intro a
  obtain ⟨forest, sameDir, shows⟩ := @shows_after _ here _
    (.fresh rootPaths classesDir scratchDir naming)
    (shows_fresh rootPaths classesDir scratchDir naming) calls
  have shows : ∀ n ∈ a.nodes, n.Shows (libraries rootPaths calls) a.classesDir := by
    rw [sameDir]
    exact shows
  have isDir : a.classesDir = classesDir := sameDir
  refine ⟨fun n member => ?_, fun files call c known kept noLibrary noLoad =>
    forest.searchPath_perform shows known kept noLibrary noLoad,
    fun files c name found p resolved => forest.resolve_addPath shows resolved p⟩
  obtain ⟨walk, sees⟩ := forest.sees shows member
  exact ⟨walk, isDir ▸ sees, isDir ▸ shows n member⟩

end Arena.Record
end SimWorkbench
