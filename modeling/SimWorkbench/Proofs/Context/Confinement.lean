import SimWorkbench.Proofs.Context.Visibility

/-!
# Where what is found lies

A name is joined to the places of a context, so what is found lies in one of them as long as the name
does not lead out of it. A name leads out of no directory if it is relative and nowhere goes further up
than it has come down; every other name leads out of some. The lookup takes names of either kind, and
loading all that are relative.
-/
namespace SimWorkbench

namespace Path

variable {p dir : Path} {here : Location} {s : String} {steps : List String}

/-- Whether steps lead nowhere above a place, if they start so many names below it. -/
def staysBelow : Nat → List String → Bool
  | _, [] => true
  | depth, step :: rest =>
    if step = ".." then depth != 0 && staysBelow (depth - 1) rest else staysBelow (depth + 1) rest

/-- Whether a path leads out of no directory to which it is joined. -/
def Inner (p : Path) : Prop := p.isAbsolute = false ∧ staysBelow 0 p.steps = true

instance (p : Path) : Decidable p.Inner := inferInstanceAs (Decidable (_ ∧ _))

theorem enter_parent (l : Location) : l.enter ".." = l.dropLast := by
  simp [Location.enter]

theorem enter_of_ne (l : Location) (notSingle : s ≠ ".") (notDouble : s ≠ "..") :
    l.enter s = l ++ [s] := by
  simp [Location.enter, notSingle, notDouble]

/-- Steps that stay below a place end below it. -/
theorem prefix_of_staysBelow {base below : Location} (proper : "." ∉ steps)
    (stays : staysBelow below.length steps = true) :
    base <+: steps.foldl Location.enter (base ++ below) := by
  induction steps generalizing below with
  | nil => exact List.prefix_append _ _
  | cons step rest ih =>
    rw [List.mem_cons, not_or] at proper
    obtain ⟨notSingle, proper⟩ := proper
    rw [staysBelow] at stays
    split at stays
    · rename_i isParent
      obtain ⟨deep, stays⟩ := (Bool.and_eq_true _ _).mp stays
      have notEmpty : below ≠ [] := by simpa using deep
      rw [List.foldl_cons, isParent, enter_parent, List.dropLast_append_of_ne_nil notEmpty]
      exact ih proper (by rwa [List.length_dropLast])
    · rename_i isName
      rw [List.foldl_cons, enter_of_ne _ (Ne.symm notSingle) isName, List.append_assoc]
      exact ih proper (by rwa [List.length_append])

/-- Steps never enter what they do not name. -/
theorem not_mem_foldl {l : Location} (unnamed : s ∉ steps) (absent : s ∉ l) :
    s ∉ steps.foldl Location.enter l := by
  induction steps generalizing l with
  | nil => exact absent
  | cons step rest ih =>
    rw [List.mem_cons, not_or] at unnamed
    refine ih unnamed.2 fun present => ?_
    unfold Location.enter at present
    split at present
    · exact absent present
    · split at present
      · exact absent (List.dropLast_subset _ present)
      · rcases List.mem_append.mp present with old | new
        · exact absent old
        · exact unnamed.1 (List.mem_singleton.mp new)

/-- Steps that do not stay below a place leave it, and do not come back to one they do not name. -/
theorem left_of_not_staysBelow {below : Location} (proper : "." ∉ steps) (unnamed : s ∉ steps)
    (absent : s ∉ below) (leaves : staysBelow below.length steps = false) :
    s ∉ steps.foldl Location.enter ([s] ++ below) := by
  induction steps generalizing below with
  | nil => cases leaves
  | cons step rest ih =>
    rw [List.mem_cons, not_or] at proper unnamed
    obtain ⟨notSingle, proper⟩ := proper
    rw [staysBelow] at leaves
    split at leaves
    · rename_i isParent
      rw [List.foldl_cons, isParent, enter_parent]
      rcases List.eq_nil_or_concat below with rfl | ⟨front, last, rfl⟩
      · exact not_mem_foldl unnamed.2 (by simp)
      · rw [List.concat_eq_append] at absent leaves ⊢
        rw [← List.append_assoc, List.dropLast_concat]
        refine ih proper unnamed.2 (fun present => absent (List.mem_append_left _ present)) ?_
        simpa using leaves
    · rename_i isName
      rw [List.foldl_cons, enter_of_ne _ (Ne.symm notSingle) isName, List.append_assoc]
      refine ih proper unnamed.2 ?_ (by rwa [List.length_append])
      rw [List.mem_append, List.mem_singleton, not_or]
      exact ⟨absent, unnamed.1⟩

theorem noSingle (p : Path) : "." ∉ p.steps := by simp [Path.steps]

/-- A path joined to a directory leads where its steps lead from there. -/
theorem location_join_steps (relative : p.isAbsolute = false) (dir : Path) (here : Location) :
    (dir.join p).location here = p.steps.foldl Location.enter (dir.location here) := by
  rw [location_join relative, steps, FileTree.foldl_enter_steps]

/-- What is joined to a directory lies below it, if it leads out of none. -/
theorem Inner.prefix_join (inner : p.Inner) (dir : Path) (here : Location) :
    dir.location here <+: (dir.join p).location here := by
  obtain ⟨relative, stays⟩ := inner
  have below := @prefix_of_staysBelow p.steps (dir.location here) [] p.noSingle stays
  rwa [List.append_nil, ← location_join_steps relative] at below

/-- There is always another name. -/
theorem exists_unnamed (names : List String) : ∃ s, IsName s ∧ s ∉ names := by
  let long : String := String.ofList (List.replicate ((names.map String.length).sum + 1) 'a')
  have letters : ∀ c ∈ long.toList, c = 'a' := by
    intro c member
    rw [String.toList_ofList] at member
    exact List.eq_of_mem_replicate member
  have first : long.toList.head? = some 'a' := by
    rw [String.toList_ofList, List.replicate_succ]
    rfl
  have isName : IsName long := by
    refine ⟨?_, ?_, ?_, fun slash => absurd (letters '/' slash) (by decide)⟩ <;>
      · intro same
        rw [same] at first
        exact absurd first (by decide)
  refine ⟨long, isName, fun member => ?_⟩
  have short : long.length ≤ (names.map String.length).sum :=
    List.le_sum_of_mem (List.mem_map_of_mem member)
  have length : long.length = (names.map String.length).sum + 1 := by
    rw [← String.length_toList, String.toList_ofList, List.length_replicate]
  omega

/-- A path that leads out of no directory is one that is inner. -/
theorem inner_iff (p : Path) :
    p.Inner ↔ ∀ (dir : Path) (here : Location), dir.location here <+: (dir.join p).location here := by
  refine ⟨fun inner dir here => inner.prefix_join dir here, fun below => ?_⟩
  by_contra notInner
  obtain ⟨s, isName, unnamed⟩ := exists_unnamed p.steps
  have root : (Path.mk "/").location [] = [] := by decide +kernel
  have place : ((Path.mk "/").child s).location [] = [s] := by
    rw [location_child isName, root, List.nil_append]
  have inside : s ∈ (((Path.mk "/").child s).join p).location [] :=
    (below ((Path.mk "/").child s) []).subset (by rw [place]; exact List.mem_singleton_self s)
  cases absolute : p.isAbsolute with
  | true =>
    rw [join, if_pos absolute, FileTree.location_eq_steps, start, if_pos absolute] at inside
    exact not_mem_foldl unnamed (List.not_mem_nil) inside
  | false =>
    have leaves : staysBelow 0 p.steps = false := by
      rw [← Bool.not_eq_true]
      exact fun stays => notInner ⟨absolute, stays⟩
    rw [location_join_steps absolute, place, ← List.append_nil [s]] at inside
    exact left_of_not_staysBelow p.noSingle unnamed (List.not_mem_nil) leaves inside

end Path

namespace Arena

variable {a a' : Arena} {files files' : FileTree} {here : Location} {c : ContextId} {n : ContextNode}
  {libraries : List Path} {name p : Path}

/-- What is found is there, under the name joined to a place that is seen. -/
theorem exists_of_resolve (resolved : a.resolve files here c name = .ok p) :
    ∃ dir ∈ a.searchPath c, p = dir.join name ∧ files.exists? here p = true := by
  unfold resolve at resolved
  cases isNode : a.node? c with
  | none => simp [live_of_none isNode, bind, Except.bind] at resolved
  | some n =>
    simp only [live_of_node? isNode, bind, Except.bind] at resolved
    split at resolved
    · rename_i q isFound
      cases resolved
      obtain ⟨dir, member, same⟩ := List.mem_map.mp (List.mem_of_find?_eq_some isFound)
      exact ⟨dir, member, same.symm, by simpa using List.find?_some isFound⟩
    · cases resolved

/-- A run context loads from the executables alone. -/
theorem Forest.places_of_loadable (forest : a.Forest)
    (shows : ∀ n ∈ a.nodes, n.Shows libraries a.classesDir) {dirs : List Path}
    (loadable : a.loadable c = .ok dirs) : dirs = [a.classesDir] := by
  obtain ⟨n, isNode, isRun, empty⟩ := node_of_loadable loadable
  obtain ⟨member, rfl⟩ := mem_of_node? isNode
  obtain ⟨s, isMember, isStage, standsOn, -⟩ := forest.runs n member isRun
  obtain ⟨paths, own, -⟩ := shows s isMember
  have noCopy : s.snapshot = none := own (by simp [isStage])
  have shown : s.paths = [a.classesDir] := by simpa [isStage, noCopy, layerPaths] using paths
  have found := forest.toGrown.node?_of_mem isMember
  simp only [Arena.loadable, live_of_node? isNode, isRun, empty, standsOn, live_of_node? found, shown,
    bind, Except.bind, pure, Except.pure, ne_eq, not_true, if_false, Except.ok.injEq] at loadable
  exact loadable.symm

/-- What was loaded is a file under a relative name joined to the directory of executables. -/
theorem Forest.origin_of_load (forest : a.Forest)
    (shows : ∀ n ∈ a.nodes, n.Shows libraries a.classesDir) {loaded : LoadedArtifact}
    (loads : a.load files here c name = (files', a', .ok loaded)) :
    name.isAbsolute = false ∧ loaded.origin = a.classesDir.join name ∧
      files.isFile here loaded.origin = true := by
  rcases a.load_cases files here c name with ⟨_, refused⟩ | ⟨_, _, _, -, refused⟩ |
    ⟨dirs, origin, _, dir, executable, loadable, found, -, done⟩
  · rw [refused] at loads
    cases loads
  · rw [refused] at loads
    cases loads
  · rw [done] at loads
    cases loads
    obtain rfl := forest.places_of_loadable shows loadable
    unfold findOrigin at found
    split at found
    · cases found
    rename_i relative
    split at found <;> cases found
    rename_i isFound
    have isOrigin := List.mem_of_find?_eq_some isFound
    rw [List.map_singleton, List.mem_singleton] at isOrigin
    exact ⟨by simpa using relative, isOrigin, List.find?_some isFound⟩

end Arena

namespace Arena.Record

/-- Whatever was asked of an arena: what the lookup finds is there, in one of the places seen from the
context unless the name leads out of it, and what is loaded is a file under a relative name, in the
directory of executables unless the name leads out of it. The names that lead out of no directory are
the relative ones that nowhere go further up than they have come down. -/
theorem found_inside (rootPaths : List Path) (classesDir scratchDir : Path) (naming : Naming)
    (here : Location) (calls : List (FileTree × ArenaCall)) (files : FileTree) (c : ContextId)
    (name : Path) :
    let a := ((start rootPaths classesDir scratchDir naming).after here calls).arena
    (∀ p, a.resolve files here c name = .ok p →
      ∃ dir ∈ a.searchPath c, p = dir.join name ∧ files.exists? here p = true ∧
        (name.Inner → dir.location here <+: p.location here)) ∧
    (∀ files' a' loaded, a.load files here c name = (files', a', .ok loaded) →
      name.isAbsolute = false ∧ loaded.origin = classesDir.join name ∧
        files.isFile here loaded.origin = true ∧
        (name.Inner → classesDir.location here <+: loaded.origin.location here)) ∧
    (name.Inner ↔ ∀ (dir : Path) (here : Location),
      dir.location here <+: (dir.join name).location here) := by
  intro a
  obtain ⟨forest, isDir, shows⟩ := @shows_after _ here _ (.fresh rootPaths classesDir scratchDir naming)
    (shows_fresh rootPaths classesDir scratchDir naming) calls
  have shows : ∀ n ∈ a.nodes, n.Shows (libraries rootPaths calls) a.classesDir := by
    rw [isDir]
    exact shows
  refine ⟨fun p resolved => ?_, fun files' a' loaded loads => ?_, name.inner_iff⟩
  · obtain ⟨dir, member, rfl, isThere⟩ := exists_of_resolve resolved
    exact ⟨dir, member, rfl, isThere, fun inner => inner.prefix_join dir here⟩
  · obtain ⟨relative, isOrigin, isFile⟩ := forest.origin_of_load shows loads
    have isOrigin : loaded.origin = classesDir.join name := by rw [isOrigin, isDir]; rfl
    refine ⟨relative, isOrigin, isFile, fun inner => ?_⟩
    rw [isOrigin]
    exact inner.prefix_join classesDir here

/-- A directory of executables, one of libraries with a file, and a file in neither. -/
def besides : FileTree :=
  ⟨[(["c"], .directory), (["lib"], .directory), (["lib", "x"], .file [1] .program),
    (["y"], .file [2] .program)]⟩

/-- An arena with these directories and one run context. -/
def beside : Arena := ((start [⟨"/lib"⟩] ⟨"/c"⟩ ⟨"/s"⟩).after [] [(besides, .createRun)]).arena

/-- A file of a library is loaded as if it were an executable, and a file is found that is in no place
seen from the context, under a name with two dots and under an absolute one. -/
theorem found_outside :
    (beside.load besides [] ⟨2⟩ ⟨"../lib/x"⟩).2.2 =
        .ok ⟨⟨2⟩, ⟨"../lib/x"⟩, ⟨"/c/../lib/x"⟩, ⟨"/s/run-2-000000/x"⟩⟩ ∧
      (Path.mk "/lib").location [] <+: (Path.mk "/c/../lib/x").location [] ∧
      ¬ (Path.mk "/c").location [] <+: (Path.mk "/c/../lib/x").location [] ∧
      beside.resolve besides [] ⟨2⟩ ⟨"../y"⟩ = .ok ⟨"/c/../y"⟩ ∧
      beside.resolve besides [] ⟨2⟩ ⟨"/y"⟩ = .ok ⟨"/y"⟩ ∧
      ∀ dir ∈ beside.searchPath ⟨2⟩, ¬ dir.location [] <+: (Path.mk "/c/../y").location [] ∧
        ¬ dir.location [] <+: (Path.mk "/y").location [] := by
  decide +kernel

end Arena.Record
end SimWorkbench
