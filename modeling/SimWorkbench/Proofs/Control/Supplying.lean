import SimWorkbench.Proofs.Context.Visibility
import SimWorkbench.Proofs.Control.Teardown

/-!
# What runs are supplied with

A run context sees the executables, then the libraries that the root was made with; libraries that
come later are seen behind them. An artifact is loaded with the places that its context sees. So what
a kind ensures of an artifact that is loaded with the executables and the libraries in sight holds of
the artifact of every run, whatever happens to the arena and to the files.
-/
namespace SimWorkbench

namespace Arena

variable {a : Arena} {n : ContextNode} {rootPaths : List Path} {classesDir : Path}

/-- Whether the contexts of an arena add what their layers are to add, with the libraries that the
root was made with before all others. -/
structure Stocked (rootPaths : List Path) (classesDir : Path) (a : Arena) : Prop where
  forest : a.Forest
  isDir : a.classesDir = classesDir
  shows : ∃ more, ∀ n ∈ a.nodes, n.Shows (rootPaths ++ more) a.classesDir

theorem Stocked.fresh (rootPaths : List Path) (classesDir scratchDir : Path) (naming : Naming) :
    (fresh rootPaths classesDir scratchDir naming).Stocked rootPaths classesDir where
  forest := .fresh rootPaths classesDir scratchDir naming
  isDir := rfl
  shows := by
    refine ⟨[], ?_⟩
    rw [List.append_nil]
    exact Record.shows_fresh rootPaths classesDir scratchDir naming

theorem Stocked.perform (stocked : a.Stocked rootPaths classesDir) (files : FileTree)
    (here : Location) (call : ArenaCall) :
    (a.perform files here call).2.1.Stocked rootPaths classesDir := by
  obtain ⟨forest, isDir, more, shows⟩ := stocked
  obtain ⟨added, shelf⟩ := prefix_shelve (rootPaths ++ more) call
  have sameDir := (a.sameDirs_perform files here call).1
  refine ⟨forest.perform files here call, sameDir.trans isDir, more ++ added, ?_⟩
  intro n member
  rw [sameDir, ← List.append_assoc, shelf]
  exact forest.shows shows member

theorem Stocked.afterCalls (stocked : a.Stocked rootPaths classesDir) (here : Location)
    (calls : List (FileTree × ArenaCall)) : (a.afterCalls here calls).Stocked rootPaths classesDir := by
  induction calls generalizing a with
  | nil => exact stocked
  | cons x calls ih => exact ih (stocked.perform x.1 here x.2)

/-- A run context sees its copy, the executables, the libraries of the root, and whatever came
later. -/
theorem Stocked.searchPath (stocked : a.Stocked rootPaths classesDir) (member : n ∈ a.nodes)
    (isRun : n.layer = .run) : classesDir :: rootPaths <:+: a.searchPath n.id := by
  obtain ⟨forest, isDir, more, shows⟩ := stocked
  have sees := (forest.sees shows member).2
  refine ⟨n.snapshot.toList, more, ?_⟩
  rw [sees, places, isDir, isRun]
  simp

/-- An artifact is loaded into a run context, which stays. -/
theorem mem_of_load {files files' : FileTree} {here : Location} {c : ContextId} {name : Path}
    {a' : Arena} {loaded : LoadedArtifact}
    (done : a.load files here c name = (files', a', .ok loaded)) :
    ∃ n ∈ a'.nodes, n.id = c ∧ n.layer = .run := by
  rcases a.load_cases files here c name with ⟨e, refused⟩ | ⟨_, _, e, -, refused⟩ |
    ⟨_, origin, _, dir, executable, loadable, -, -, holds⟩
  · rw [refused] at done
    cases done
  · rw [refused] at done
    cases done
  · rw [holds] at done
    obtain ⟨n, found, isRun, -⟩ := node_of_loadable loadable
    obtain ⟨member, isId⟩ := mem_of_node? found
    cases done
    refine ⟨_, List.mem_map_of_mem member, ?_, ?_⟩
    · split <;> exact isId
    · split <;> exact isRun

end Arena

variable {α : Type}

/-- What a kind ensures of its artifacts if they are loaded with a supply in sight, in one piece. -/
structure ArtifactKind.Ensures (kind : ArtifactKind α) (supply : List Path) (keeps : α → Prop) :
    Prop where
  load : ∀ {files loaded places notes a}, supply <:+: places →
    kind.load files loaded places = (notes, .ok a) → keeps a
  bind : ∀ b a, keeps a → keeps (kind.bind b a).2
  setSingleStep : ∀ on a, keeps a → keeps (kind.setSingleStep on a).2
  advance : ∀ a s a' s', keeps a → (kind.advance a s).next? = some (a', s') → keeps a'

/-- Whether what the control thread has in hand is supplied, by where it is. -/
def ControlPoint.Supplied (supply : List Path) (keeps : α → Prop) : ControlPoint α → Prop
  | loading _ _ _ _ places => supply <:+: places
  | binding _ _ _ _ artifact => keeps artifact
  | entering _ _ run | launching run => keeps run.artifact
  | showing _ next | telling _ next => next.Supplied supply keeps
  | _ => True

namespace Controller

variable {kind : ArtifactKind α} {here : Location} {c d : Controller α} {rootPaths : List Path}
  {classesDir : Path} {keeps : α → Prop}

/-- Whether the arena is stocked, and all artifacts are what their kind ensures of supplied ones. -/
structure Supplied (rootPaths : List Path) (classesDir : Path) (keeps : α → Prop)
    (c : Controller α) : Prop where
  arena : c.arena.Stocked rootPaths classesDir
  hand : c.control.Supplied (classesDir :: rootPaths) keeps
  prepared : ∀ run, c.prepared = some run → keeps run.artifact
  runs : ∀ r ∈ c.runs, keeps r.artifact
  strays : ∀ r ∈ c.strays, keeps r.artifact

theorem Supplied.fresh (settings : RunSettings) (hasListener : Bool) (rootPaths : List Path)
    (classesDir scratchDir : Path) (naming : Naming) (keeps : α → Prop) (files : FileTree) :
    (Controller.fresh settings hasListener (.fresh rootPaths classesDir scratchDir naming)
      files).Supplied rootPaths classesDir keeps where
  arena := .fresh rootPaths classesDir scratchDir naming
  hand := trivial
  prepared := by rintro run ⟨⟩
  runs := by rintro r ⟨⟩
  strays := by rintro r ⟨⟩

theorem supplied_afterFault {supply : List Path} (starting : Bool) (fault : ControlFault) :
    (afterFault starting fault : ControlPoint α).Supplied supply keeps := by
  cases starting <;> trivial

theorem supplied_entry {supply : List Path} (call : Call) :
    (call.entry : ControlPoint α).Supplied supply keeps := by
  cases call <;> trivial

theorem Supplied.controls (supplied : c.Supplied rootPaths classesDir keeps)
    (ensures : kind.Ensures (classesDir :: rootPaths) keeps) (step : Controls kind here c d)
    (stocked : d.arena.Stocked rootPaths classesDir) : d.Supplied rootPaths classesDir keeps := by
  obtain ⟨arena, hand, prepared, runs, strays⟩ := supplied
  have empty : ∀ run : Run α, none = some run → keeps run.artifact := by rintro run ⟨⟩
  cases step with
  | waits => exact ⟨arena, hand, prepared, runs, strays⟩
  | discards => exact ⟨stocked, trivial, empty, runs, strays⟩
  | misses | abandons => exact ⟨stocked, supplied_afterFault _ _, prepared, runs, strays⟩
  | resolves point done =>
    obtain ⟨n, member, isContext, isRun⟩ := Arena.mem_of_load done
    have sees := stocked.searchPath member isRun
    rw [isContext] at sees
    exact ⟨stocked, sees, prepared, runs, strays⟩
  | loads point done =>
    rw [point] at hand
    exact ⟨stocked, ensures.load hand done, prepared, runs, strays⟩
  | binds point =>
    rw [point] at hand
    exact ⟨stocked, ensures.bind _ _ hand, prepared, runs, strays⟩
  | entersToStart point =>
    rw [point] at hand
    exact ⟨stocked, hand, prepared, runs, strays⟩
  | prepares point =>
    rw [point] at hand
    refine ⟨stocked, trivial, ?_, runs, strays⟩
    rintro run ⟨⟩
    exact hand
  | takes _ isPrepared => exact ⟨stocked, prepared _ isPrepared, empty, runs, strays⟩
  | launches point =>
    rw [point] at hand
    refine ⟨stocked, trivial, prepared, fun r member => ?_, strays⟩
    rcases List.mem_append.mp member with old | new
    · exact runs r old
    · rw [List.mem_singleton.mp new]
      exact hand
  | setsStepping _ _ isPrepared =>
    refine ⟨stocked, trivial, ?_, runs, strays⟩
    rintro run ⟨⟩
    exact ensures.setSingleStep _ _ (prepared _ isPrepared)
  | spawnsWorker | spawnsMonitor | asksToStop | turnsStepping | advances =>
    exact ⟨stocked, trivial, prepared, forall_changed runs fun r member _ => runs r member, strays⟩
  | shows point | passes point | tells point =>
    rw [point] at hand
    exact ⟨stocked, hand, prepared, runs, strays⟩
  | _ => exact ⟨stocked, trivial, prepared, runs, strays⟩

/-- Whatever happens, all artifacts stay what their kind ensures of supplied ones. -/
theorem Supplied.happens {event : Event} (supplied : c.Supplied rootPaths classesDir keeps)
    (ensures : kind.Ensures (classesDir :: rootPaths) keeps) (happens : Happens kind here c event d) :
    d.Supplied rootPaths classesDir keeps := by
  obtain ⟨calls, same⟩ := happens.calls
  have stocked : d.arena.Stocked rootPaths classesDir := same ▸ supplied.arena.afterCalls here calls
  have ⟨_, hand, prepared, runs, strays⟩ := supplied
  cases happens with
  | controls step => exact supplied.controls ensures step stocked
  | works member _ step => cases step with
    | went advanced | ended advanced =>
      have kept := ensures.advance _ _ _ _ (runs _ member) (by rw [advanced]; rfl)
      exact ⟨stocked, hand, prepared, forall_changed runs fun _ _ _ => kept, strays⟩
  | roams member _ step => cases step with
    | went advanced | ended advanced =>
      have kept := ensures.advance _ _ _ _ (strays _ member) (by rw [advanced]; rfl)
      exact ⟨stocked, hand, prepared, runs, forall_changed strays fun _ _ _ => kept⟩
  | tidies _ step =>
    cases step <;>
      exact ⟨stocked, hand, prepared, forall_changed runs fun r member _ => runs r member, strays⟩
  | refuses member forsakes =>
    exact ⟨stocked, trivial, prepared, fun r hr => runs r (mem_without.mp hr).1,
      forsakes.forall_artifacts strays (runs _ member)⟩
  | begins => exact ⟨stocked, supplied_entry _, prepared, runs, strays⟩
  | givesUp => exact ⟨stocked, trivial, by rintro run ⟨⟩, runs, strays⟩
  | closes => exact ⟨stocked, trivial, prepared, runs, strays⟩
  | _ => exact ⟨stocked, hand, prepared, runs, strays⟩

/-- Whatever has happened, the arena is stocked, and all artifacts are what their kind ensures of
supplied ones. -/
theorem Reaches.supplied {allows : Controller α → Event → Prop} {settings : RunSettings}
    {hasListener : Bool} {scratchDir : Path} {naming : Naming} {files : FileTree}
    (ensures : kind.Ensures (classesDir :: rootPaths) keeps)
    (reaches : Reaches kind here allows
      (fresh settings hasListener (.fresh rootPaths classesDir scratchDir naming) files) c) :
    c.Supplied rootPaths classesDir keeps := by
  apply reaches.invariant
  · exact .fresh settings hasListener rootPaths classesDir scratchDir naming keeps files
  · intro c d event supplied _ happens
    exact supplied.happens ensures happens

end Controller
end SimWorkbench
