import SimWorkbench.Proofs.Context.Isolation

/-!
# What is left in the scratch directory

An arena puts nothing into the scratch directory but the directories of its run contexts. So when
there are none, the scratch directory holds what it held at first, whatever was done in those
directories meanwhile.
-/
namespace SimWorkbench

/-- Whether the entries of the directory that a path leads to stay, and the path leads there still. -/
structure FileTree.Spares (here : Location) (p : Path) (t t' : FileTree) : Prop where
  entries : ∀ s, t'.get? (p.location here ++ [s]) = t.get? (p.location here ++ [s])
  leads : t.Leads here p → t'.Leads here p

/-- Whether a path leads to a directory in which a name is a directory that can be removed. -/
structure FileTree.Stands (t : FileTree) (here : Location) (p : Path) (s : String) : Prop where
  isName : Path.IsName s
  directory : t.locate here (p.child s) = .ok (p.location here ++ [s], .directory)
  avoids : p.Avoids here (p.location here ++ [s])

namespace FileTree

variable {t t' : FileTree} {here : Location} {p : Path} {s : String}

theorem Stands.leads (stands : t.Stands here p s) : t.Leads here p :=
  ((locate_child_iff stands.isName).mp stands.directory).2.2.1

theorem Stands.kept (stands : t.Stands here p s) (leads : t'.Leads here p)
    (same : t'.get? (p.location here ++ [s]) = t.get? (p.location here ++ [s])) :
    t'.Stands here p s := by
  obtain ⟨accepted, fits, -, -, directory⟩ := (locate_child_iff stands.isName).mp stands.directory
  exact ⟨stands.isName, (locate_child_iff stands.isName).mpr
    ⟨accepted, fits, leads, rfl, same.trans directory⟩, stands.avoids⟩

end FileTree

namespace Arena

variable {a a' : Arena} {t t' first : FileTree} {here : Location} {p : Path} {n : ContextNode}

/-- What holds of the scratch directory between two calls. -/
structure Swept (here : Location) (p : Path) (first : FileTree) (a : Arena) (t : FileTree) :
    Prop where
  /-- The directories of run contexts stand where nothing was at first. -/
  stands : ∀ n ∈ a.runs, n.loaded = none ∧ n.snapshot = none ∨ n.loaded ≠ none ∧
    ∃ s, n.snapshot = some (p.child s) ∧ t.Stands here p s ∧
      first.get? (p.location here ++ [s]) = none
  apart : ∀ m ∈ a.runs, ∀ n ∈ a.runs, m.snapshot = n.snapshot → m.snapshot ≠ none → m = n
  /-- Every other name in the scratch directory is what it was, but those that its path comes by. -/
  rest : ∀ s, Path.IsName s → p.Avoids here (p.location here ++ [s]) →
    (∀ n ∈ a.runs, n.snapshot ≠ some (p.child s)) →
    t.get? (p.location here ++ [s]) = first.get? (p.location here ++ [s])

theorem Swept.start (empty : a.runs = []) (here : Location) (p : Path) (t : FileTree) :
    Swept here p t a t := by
  constructor <;> simp [empty]

/-- Others may do what they want below the entries of the scratch directory, and elsewhere. -/
theorem Swept.spared (swept : Swept here p first a t) (spares : FileTree.Spares here p t t') :
    Swept here p first a t' := by
  refine ⟨fun n member => ?_, swept.apart, fun s isName avoids free => ?_⟩
  · rcases swept.stands n member with none | ⟨loaded, s, isSnapshot, stands, was⟩
    · exact .inl none
    · exact .inr ⟨loaded, s, isSnapshot,
        stands.kept (spares.leads stands.leads) (spares.entries s), was⟩
  · rw [spares.entries, swept.rest s isName avoids free]

theorem Swept.makes (swept : Swept here p first a t) (runs : a'.runs = a.runs ++ [n])
    (empty : n.loaded = none ∧ n.snapshot = none) : Swept here p first a' t := by
  have member : ∀ {m}, m ∈ a'.runs → m ∈ a.runs ∨ m = n := by
    simp [runs]
  refine ⟨fun m hm => ?_, fun l hl m hm same isThere => ?_, fun s isName avoids free => ?_⟩
  · rcases member hm with old | rfl
    · exact swept.stands m old
    · exact .inl empty
  · rcases member hl with oldL | rfl
    · rcases member hm with oldM | rfl
      · exact swept.apart l oldL m oldM same isThere
      · exact absurd (same.trans empty.2) isThere
    · exact absurd empty.2 isThere
  · exact swept.rest s isName avoids fun m old => free m (runs ▸ List.mem_append_left _ old)

/-- Making the way to the scratch directory puts nothing into it that its path does not come by. -/
theorem Swept.fails (swept : Swept here p first a t) (isScratch : a.scratchPath here = p)
    (proper : ∀ name ∈ here, Path.IsName name) :
    Swept here p first a (t.makeDirs here a.scratchDir).1 := by
  subst isScratch
  refine ⟨fun n member => ?_, swept.apart, fun s isName avoids free => ?_⟩
  · rcases swept.stands n member with none | ⟨loaded, s, isSnapshot, stands, was⟩
    · exact .inl none
    · rw [FileTree.makeDirs_of_leads (leads_scratchDir proper stands.leads)]
      exact .inr ⟨loaded, s, isSnapshot, stands, was⟩
  · rw [FileTree.makeDirs_frame t (avoids_scratchDir proper avoids)]
    exact swept.rest s isName avoids free

/-- A run context gets a directory of its own. -/
theorem Swept.loads {loaded : LoadedArtifact} {s final : String} {e : Entry}
    (swept : Swept here p first a t) (forest : a.Forest) (isScratch : a.scratchPath here = p)
    (proper : ∀ name ∈ here, Path.IsName name)
    (loads : a.Loads t here n.id loaded n s final e t') :
    Swept here p first (a.holding loaded (p.child s)) t' := by
  subst isScratch
  obtain ⟨isNode, -⟩ := mem_of_node? loads.found
  have isRun : n ∈ a.runs := mem_runs.mpr ⟨isNode, loads.isRun⟩
  have holds := loads.copies.holds
  have free : t.get? ((a.scratchPath here).location here ++ [s]) = none := by
    rcases FileTree.makeDirs_grows t here a.scratchDir
      ((a.scratchPath here).location here ++ [s]) with same | ⟨none, -⟩
    · exact same.symm.trans loads.copies.free
    · exact none
  -- No other run context has the name.
  have other : ∀ m ∈ a.runs, m.snapshot ≠ some ((a.scratchPath here).child s) := by
    intro m member isSnapshot
    rcases swept.stands m member with ⟨-, none⟩ | ⟨-, s', isSnapshot', stands, -⟩
    · simp [none] at isSnapshot
    · have child := Option.some.inj (isSnapshot.symm.trans isSnapshot')
      obtain rfl := (Path.child_inj holds.isName stands.isName).mp child
      simp [FileTree.locate_get? stands.directory] at free
  have bare : n.snapshot = none := by
    rcases swept.stands n isRun with ⟨-, none⟩ | ⟨loaded, -⟩
    · exact none
    · exact absurd loads.empty loaded
  have back := loads.runs forest
  have forth : ∀ m ∈ a.runs, m ≠ n →
      m ∈ (a.holding loaded ((a.scratchPath here).child s)).runs := by
    intro m member differs
    obtain ⟨isMember, layered⟩ := mem_runs.mp member
    refine mem_runs.mpr ⟨List.mem_map.mpr ⟨m, isMember, if_neg ?_⟩, layered⟩
    have differs : m.id ≠ n.id := fun same => differs (forest.eq_of_id isMember isNode same)
    simpa [loads.context] using differs
  refine ⟨fun m member => ?_, fun l hl m hm same isThere => ?_, fun s' isName avoids unused => ?_⟩
  · rcases back m member with was | rfl
    · rcases swept.stands m was with none | ⟨isLoaded, s', isSnapshot, stands, nothing⟩
      · exact .inl none
      · refine .inr ⟨isLoaded, s', isSnapshot, stands.kept loads.copies.leads ?_, nothing⟩
        refine (loads.rest proper stands.leads).2 _ (Path.not_below ?_ (List.prefix_refl _))
        rintro rfl
        exact other m was isSnapshot
    · refine .inr ⟨by simp, s, rfl, ⟨holds.isName, holds.directory, holds.avoids⟩, ?_⟩
      rw [← swept.rest s holds.isName holds.avoids other, free]
  · rcases back l hl with was | rfl
    · rcases back m hm with was' | rfl
      · exact swept.apart l was m was' same isThere
      · exact absurd same (other l was)
    · rcases back m hm with was' | rfl
      · exact absurd same.symm (other m was')
      · rfl
  · have differs : s' ≠ s := by
      rintro rfl
      refine unused _ (mem_runs.mpr ⟨List.mem_map.mpr ⟨n, isNode, if_pos ?_⟩, loads.isRun⟩) rfl
      simp [loads.context]
    rw [loads.copies.rest _ (Path.not_below differs (List.prefix_refl _)),
      FileTree.makeDirs_frame t (avoids_scratchDir proper avoids)]
    refine swept.rest s' isName avoids fun m member => ?_
    by_cases isOwn : m = n
    · simp [isOwn, bare]
    · exact unused m (forth m member isOwn)

/-- The directory of a run context is taken away with it. -/
theorem Swept.disposes (swept : Swept here p first a t) (forest : a.Forest) (member : n ∈ a.runs) :
    Swept here p first (a.without n) (withoutCopy t here n) := by
  obtain ⟨isNode, isRun⟩ := mem_runs.mp member
  have kept : ∀ {m}, m ∈ (a.without n).runs ↔ m ∈ a.runs ∧ m ≠ n := by
    intro m
    rw [forest.runs_without isNode isRun, List.mem_filter, bne_iff_ne]
    refine and_congr_right fun hm => not_congr ⟨fun same => ?_, congrArg ContextNode.id⟩
    exact forest.eq_of_id (mem_runs.mp hm).1 isNode same
  have apart : ∀ l ∈ (a.without n).runs, ∀ m ∈ (a.without n).runs, l.snapshot = m.snapshot →
      l.snapshot ≠ none → l = m := fun l hl m hm =>
    swept.apart l (kept.mp hl).1 m (kept.mp hm).1
  rcases swept.stands n member with ⟨-, none⟩ | ⟨-, s, isSnapshot, stands, nothing⟩
  · have same : withoutCopy t here n = t := by rw [withoutCopy, none]
    rw [same]
    refine ⟨fun m hm => swept.stands m (kept.mp hm).1, apart, fun s isName avoids unused => ?_⟩
    refine swept.rest s isName avoids fun m hm => ?_
    by_cases isOwn : m = n
    · simp [isOwn, none]
    · exact unused m (kept.mpr ⟨hm, isOwn⟩)
  · obtain ⟨t', removed, gone⟩ := FileTree.removeTree_child stands.isName stands.directory stands.avoids
    have same : withoutCopy t here n = t' := by
      rw [withoutCopy, isSnapshot]
      simp only [removed]
    rw [same]
    have leads := stands.leads.of_avoids stands.avoids fun m outside => by rw [gone, if_neg outside]
    have others : ∀ s', s' ≠ s →
        t'.get? (p.location here ++ [s']) = t.get? (p.location here ++ [s']) := fun s' differs => by
      rw [gone, if_neg (Path.not_below differs (List.prefix_refl _))]
    refine ⟨fun m hm => ?_, apart, fun s' isName avoids unused => ?_⟩
    · obtain ⟨hm, other⟩ := kept.mp hm
      rcases swept.stands m hm with none | ⟨isLoaded, s', isSnapshot', stands', nothing'⟩
      · exact .inl none
      · refine .inr ⟨isLoaded, s', isSnapshot', stands'.kept leads (others s' ?_), nothing'⟩
        rintro rfl
        exact other
          (swept.apart m hm n member (isSnapshot'.trans isSnapshot.symm) (by simp [isSnapshot']))
    · by_cases isOwn : s' = s
      · rw [isOwn, gone, if_pos (List.prefix_refl _), nothing]
      · rw [others s' isOwn]
        refine swept.rest s' isName avoids fun m hm => ?_
        by_cases isGone : m = n
        · rw [isGone, isSnapshot]
          intro child
          exact isOwn ((Path.child_inj stands.isName isName).mp (Option.some.inj child)).symm
        · exact unused m (kept.mpr ⟨hm, isGone⟩)

/-- A call makes directories only for run contexts, and takes them away with these. -/
theorem Swept.changes (swept : Swept here p first a t) (forest : a.Forest)
    (isScratch : a.scratchPath here = p) (proper : ∀ name ∈ here, Path.IsName name)
    (changes : Changes here a t t' a') : Swept here p first a' t' := by
  cases changes with
  | stays runs => exact ⟨runs ▸ swept.stands, runs ▸ swept.apart, runs ▸ swept.rest⟩
  | makes runs isNew empty => exact swept.makes runs empty
  | fails => exact swept.fails isScratch proper
  | loads loads => exact isScratch ▸ (isScratch ▸ swept).loads forest rfl proper loads
  | disposes member => exact swept.disposes forest member

/-- What is left when there are no run contexts. -/
theorem Swept.left (swept : Swept here p first a t) (empty : a.runIds = []) {s : String}
    (isName : Path.IsName s) (avoids : p.Avoids here (p.location here ++ [s])) :
    t.get? (p.location here ++ [s]) = first.get? (p.location here ++ [s]) := by
  refine swept.rest s isName avoids fun n member => ?_
  obtain ⟨isNode, isRun⟩ := mem_runs.mp member
  have isThere := mem_runIds.mpr ⟨n, isNode, isRun, rfl⟩
  simp [empty] at isThere

end Arena
end SimWorkbench
