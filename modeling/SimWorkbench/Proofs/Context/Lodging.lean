import SimWorkbench.Proofs.Context.Snapshot

/-!
# Which contexts have copies

Copies belong to run contexts. A call makes a run context, puts a copy into one, takes one away with
its copy, or leaves them all as they are.
-/
namespace SimWorkbench.Arena

variable {a a' : Arena} {files files' : FileTree} {here : Location} {c : ContextId} {n : ContextNode}

/-- The run contexts, in the order of their numbers. -/
def runs (a : Arena) : List ContextNode := a.nodes.filter fun n => n.layer == .run

theorem mem_runs : n ∈ a.runs ↔ n ∈ a.nodes ∧ n.layer = .run := by
  simp [runs]

theorem runs_add (a : Arena) (parent : Option ContextId) (layer : Layer) (paths : List Path) :
    (a.add parent layer paths).1.runs = a.runs ++
      if layer = .run then [⟨⟨a.next⟩, parent, layer, paths, none, none⟩] else [] := by
  by_cases isRun : layer = .run <;> simp [runs, add, isRun]

theorem runs_discard (a : Arena) (c : ContextId) :
    (a.discard c).runs = a.runs.filter fun n => n.id != c := by
  simp only [runs, discard, List.filter_filter, Bool.and_comm]

theorem runs_collect (a : Arena) (notRun : ∀ n ∈ a.runs, n.id ≠ c) : (a.collect c).runs = a.runs := by
  unfold collect
  split
  · rfl
  · split
    · rfl
    · rw [runs_discard, List.filter_eq_self]
      exact fun n member => bne_iff_ne.mpr (notRun n member)

theorem runs_stage (a : Arena) : a.stage.1.runs = a.runs := by
  unfold stage
  split
  · rfl
  · exact (a.runs_add (some rootId) .stage [a.classesDir]).trans (by simp)

theorem runs_createRun (a : Arena) : ∃ parent, a.createRun.1.runs =
    a.runs ++ [⟨a.createRun.2, parent, .run, [], none, none⟩] := by
  have added := a.stage.1.runs_add (some a.stage.2) .run []
  rw [runs_stage] at added
  exact ⟨_, added⟩

theorem Grown.run_ne (grown : a.Grown) {m : ContextNode} (member : m ∈ a.nodes)
    (notRun : m.layer ≠ .run) : ∀ n ∈ a.runs, n.id ≠ m.id := by
  intro n isRun same
  obtain ⟨isMember, layered⟩ := mem_runs.mp isRun
  rw [grown.eq_of_id isMember member same] at layered
  exact notRun layered

theorem Forest.runs_resetStage (forest : a.Forest) : a.resetStage.runs = a.runs := by
  unfold Arena.resetStage
  split
  · rfl
  case h_2 c isCurrent =>
    obtain ⟨s, isMember, rfl, layered⟩ := forest.current c isCurrent
    exact runs_collect { a with currentStage := none, current := _ }
      (forest.toGrown.run_ne isMember (by simp [layered]))

theorem Forest.runs_without (forest : a.Forest) (member : n ∈ a.nodes) (isRun : n.layer = .run) :
    (a.without n).runs = a.runs.filter fun m => m.id != n.id := by
  obtain ⟨s, isMember, isStage, standsOn, -⟩ := forest.runs n member isRun
  have notRun : ∀ m ∈ (a.discard n.id).runs, m.id ≠ s.id := by
    rw [runs_discard]
    exact fun m kept => forest.toGrown.run_ne isMember (by simp [isStage]) m (List.mem_filter.mp kept).1
  rw [← runs_discard]
  simp only [Arena.without, standsOn, Option.map_some, Option.getD_some]
  split
  · exact runs_collect { a.discard n.id with current := _ } notRun
  · exact runs_collect _ notRun

theorem Forest.runs_addPath (forest : a.Forest) (p : Path) : (a.addPath p).runs = a.runs := by
  obtain ⟨root, isRoot, isRootId, isRootLayer, -⟩ := forest.root
  have other : ∀ n ∈ a.runs, n.id ≠ rootId := by
    rw [← isRootId]
    exact forest.toGrown.run_ne isRoot (by simp [isRootLayer])
  have layers : ∀ n : ContextNode, (if n.id == rootId then
      if n.paths.any fun q => q.same p then n else { n with paths := n.paths ++ [p] } else n).layer =
        n.layer := by
    intro n
    split
    · split <;> rfl
    · rfl
  simp only [Arena.runs, Arena.addPath, Arena.modify, List.filter_map, Function.comp_def, layers]
  refine (List.map_congr_left fun n member => ?_).trans (List.map_id _)
  rw [if_neg (by simpa using other n member)]
  rfl

/-- Whether two arenas have the same directories, and draw names alike. -/
structure SameDirs (a a' : Arena) : Prop where
  classesDir : a'.classesDir = a.classesDir
  scratchDir : a'.scratchDir = a.scratchDir
  naming : a'.naming = a.naming

theorem SameDirs.trans {a a' a'' : Arena} (first : a.SameDirs a') (second : a'.SameDirs a'') :
    a.SameDirs a'' :=
  ⟨second.classesDir.trans first.classesDir, second.scratchDir.trans first.scratchDir,
    second.naming.trans first.naming⟩

theorem sameDirs_collect (a : Arena) (c : ContextId) : a.SameDirs (a.collect c) := by
  unfold collect
  split
  · exact ⟨rfl, rfl, rfl⟩
  · split <;> exact ⟨rfl, rfl, rfl⟩

theorem sameDirs_stage (a : Arena) : a.SameDirs a.stage.1 := by
  unfold stage
  split <;> exact ⟨rfl, rfl, rfl⟩

theorem scratchDir_stage (a : Arena) : a.stage.1.scratchDir = a.scratchDir :=
  a.sameDirs_stage.scratchDir

/-- An arena keeps its directories. -/
theorem sameDirs_perform (a : Arena) (files : FileTree) (here : Location) (call : ArenaCall) :
    a.SameDirs (a.perform files here call).2.1 := by
  cases call with
  | stage => exact a.sameDirs_stage
  | resetStage =>
    simp only [perform, resetStage]
    split
    · exact ⟨rfl, rfl, rfl⟩
    · obtain ⟨classes, scratch, naming⟩ :=
        sameDirs_collect { a with currentStage := none, current := _ } _
      exact ⟨classes, scratch, naming⟩
  | createRun =>
    obtain ⟨classes, scratch, naming⟩ := a.sameDirs_stage
    exact ⟨classes, scratch, naming⟩
  | load run name =>
    rcases a.load_cases files here run name with ⟨_, refused⟩ | ⟨_, _, _, -, refused⟩ |
      ⟨_, _, _, _, _, -, -, -, loaded⟩
    · simp only [perform, refused]
      exact ⟨rfl, rfl, rfl⟩
    · simp only [perform, refused]
      exact ⟨rfl, rfl, rfl⟩
    · simp only [perform, loaded]
      exact ⟨rfl, rfl, rfl⟩
  | addPath path => exact ⟨rfl, rfl, rfl⟩
  | enter c =>
    rcases a.enter_cases c with ⟨-, refused⟩ | entered
    · simp only [perform, refused]
      exact ⟨rfl, rfl, rfl⟩
    · simp only [perform, entered]
      exact ⟨rfl, rfl, rfl⟩
  | restoreStage =>
    obtain ⟨classes, scratch, naming⟩ := a.sameDirs_stage
    exact ⟨classes, scratch, naming⟩
  | resolve c name => exact ⟨rfl, rfl, rfl⟩
  | dispose c =>
    rcases a.dispose_cases files here c with ⟨-, refused⟩ | ⟨n, -, -, refused⟩ | ⟨n, -, -, gone⟩
    · simp only [perform, refused]
      exact ⟨rfl, rfl, rfl⟩
    · simp only [perform, refused]
      exact ⟨rfl, rfl, rfl⟩
    · have rest : a.SameDirs (if (a.discard n.id).current = n.id then
          { a.discard n.id with current := (a.discard n.id).currentStage.getD rootId }
          else a.discard n.id) := by
        split <;> exact ⟨rfl, rfl, rfl⟩
      simp only [perform, gone, without]
      cases n.parent with
      | none => exact rest
      | some s => exact rest.trans (sameDirs_collect _ s)

theorem scratchDir_perform (a : Arena) (files : FileTree) (here : Location) (call : ArenaCall) :
    (a.perform files here call).2.1.scratchDir = a.scratchDir :=
  (a.sameDirs_perform files here call).scratchDir

/-- What a call does to run contexts and to files. -/
inductive Changes (here : Location) (a : Arena) (files : FileTree) : FileTree → Arena → Prop where
  | stays {a' : Arena} (runs : a'.runs = a.runs) : Changes here a files files a'
  | makes {a' : Arena} {n : ContextNode} (runs : a'.runs = a.runs ++ [n])
    (isNew : a.next ≤ n.id.number) (empty : n.loaded = none ∧ n.snapshot = none) :
    Changes here a files files a'
  | fails : Changes here a files (files.makeDirs here a.scratchDir).1 a
  | loads {loaded : LoadedArtifact} {n : ContextNode} {s final : String} {e : Entry}
    {files' : FileTree} (loads : a.Loads files here n.id loaded n s final e files') :
    Changes here a files files' (a.holding loaded ((a.scratchPath here).child s))
  | disposes {n : ContextNode} (member : n ∈ a.runs) :
    Changes here a files (withoutCopy files here n) (a.without n)

/-- Taking a context away is one of these, whether there is such a context or not. -/
theorem changes_dispose (a : Arena) (files : FileTree) (here : Location) (c : ContextId) :
    Changes here a files (a.dispose files here c).1 (a.dispose files here c).2.1 := by
  rcases a.dispose_cases files here c with ⟨-, refused⟩ | ⟨n, -, -, refused⟩ | ⟨n, found, isRun, gone⟩
  · rw [refused]
    exact .stays rfl
  · rw [refused]
    exact .stays rfl
  · rw [gone]
    exact .disposes (mem_runs.mpr ⟨(mem_of_node? found).1, isRun⟩)

theorem Forest.changes (forest : a.Forest) (proper : ∀ name ∈ here, Path.IsName name)
    (rooted : files.Rooted here) (call : ArenaCall) :
    Changes here a files (a.perform files here call).1 (a.perform files here call).2.1 := by
  cases call with
  | stage => exact .stays a.runs_stage
  | resetStage => exact .stays forest.runs_resetStage
  | createRun =>
    obtain ⟨parent, runs⟩ := a.runs_createRun
    exact .makes runs (runIds_createRun a).2 ⟨rfl, rfl⟩
  | load run name =>
    rcases a.load_spec proper rooted run name with ⟨e, -, same, same' | made⟩ |
      ⟨loaded, n, s, final, e, loads, result⟩
    · simp only [Arena.perform, same, same']
      exact .stays rfl
    · simp only [Arena.perform, same, made]
      exact .fails
    · obtain ⟨-, rfl⟩ := mem_of_node? loads.found
      simp only [Arena.perform, result]
      exact .loads loads
  | addPath path => exact .stays (forest.runs_addPath path)
  | enter c =>
    refine .stays ?_
    rcases a.enter_cases c with ⟨-, refused⟩ | entered
    · simp only [Arena.perform, refused]
    · simp only [Arena.perform, entered]
      rfl
  | restoreStage => exact .stays a.runs_stage
  | resolve c name => exact .stays rfl
  | dispose c => exact a.changes_dispose files here c

end SimWorkbench.Arena
