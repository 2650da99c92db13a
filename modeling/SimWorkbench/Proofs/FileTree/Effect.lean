import SimWorkbench.Proofs.FileTree.Change

/-!
# What sequences of effects change

A sequence of effects, whether it meets a refusal or not, keeps all directories and changes files at
the locations of its paths alone. A sequence of discards that meets none takes away the files that
were there.
-/
namespace SimWorkbench

namespace Effect

variable {t t' : FileTree} {here l : Location} {p : Path}

theorem performAll_append (first rest : List Effect) :
    performAll t here (first ++ rest) =
      match performAll t here first with
      | (middle, none) => performAll middle here rest
      | refused => refused := by
  induction first generalizing t with
  | nil => rw [List.nil_append, performAll]
  | cons e first ih =>
    rw [List.cons_append, performAll, performAll]
    rcases e.perform t here with ⟨middle, _ | cause⟩
    · exact ih
    · rfl

theorem performAll_append_ok {first rest : List Effect}
    (done : performAll t here (first ++ rest) = (t', none)) :
    ∃ middle, performAll t here first = (middle, none) ∧ performAll middle here rest = (t', none) := by
  rw [performAll_append] at done
  rcases performed : performAll t here first with ⟨middle, _ | fault⟩
  · exact ⟨middle, rfl, by rwa [performed] at done⟩
  · rw [performed] at done
    cases done

/-- Where a file is that a discard removes. -/
def Discards (t : FileTree) (here : Location) (paths : List Path) (l : Location) : Prop :=
  ∃ p ∈ paths, ∃ e, t.locate here p = .ok (l, e)

theorem perform_discard (done : perform t here (.discard p) = (t', none)) :
    (FileTree.NamesFile t here p ∧ ∃ e, t.get? (p.location here) = some e ∧ e ≠ .directory ∧
        t' = t.erase (p.location here)) ∨
      (∀ l e, t.locate here p ≠ .ok (l, e)) ∧ t' = t := by
  simp only [perform] at done
  split at done
  · rename_i missing
    cases done
    exact .inr ⟨fun l e => FileTree.remove_notFound missing, rfl⟩
  · cases removed : t.remove here p with
    | error cause => rw [removed] at done; cases done
    | ok after =>
      rw [removed] at done
      cases done
      exact .inl (FileTree.remove_ok removed)

/-- A discard that is refused changes nothing. -/
theorem perform_discard_refused
    (refused : (perform t here (.discard p)).2 ≠ none) : (perform t here (.discard p)).1 = t := by
  simp only [perform] at refused ⊢
  split
  · rfl
  · cases removed : t.remove here p with
    | error cause => rfl
    | ok after => simp [removed] at refused

theorem discards_cons {paths : List Path} :
    Discards t here (p :: paths) l ↔ (∃ e, t.locate here p = .ok (l, e)) ∨ Discards t here paths l := by
  simp [Discards]

/-- Removing a file does not change what else is found. -/
theorem locate_erase {file l' : Location} {q : Path} {e : Entry} (notRoot : file ≠ [])
    (isFile : t.get? file ≠ some .directory) :
    (t.erase file).locate here q = .ok (l', e) ↔ l' ≠ file ∧ t.locate here q = .ok (l', e) := by
  have back : FileTree.KeepsDirectories (t.erase file) t := by
    intro m directory
    by_cases same : m = file
    · rw [same, FileTree.get?_erase_self notRoot] at directory
      cases directory
    · rwa [FileTree.get?_erase_ne same] at directory
  constructor
  · intro located
    have found := FileTree.locate_get? located
    have other : l' ≠ file := by
      rintro rfl
      rw [FileTree.get?_erase_self notRoot] at found
      cases found
    rw [FileTree.get?_erase_ne other] at found
    exact ⟨other, FileTree.locate_mono back located found⟩
  · rintro ⟨other, located⟩
    refine FileTree.locate_mono (FileTree.keepsDirectories_erase isFile) located ?_
    rw [FileTree.get?_erase_ne other]
    exact FileTree.locate_get? located

/-- Discards that all succeed take away the files of their paths and nothing else. -/
theorem performAll_discards {paths : List Path}
    (done : performAll t here (paths.map .discard) = (t', none)) :
    (∀ l, Discards t here paths l → l ≠ [] ∧ t.get? l ≠ some .directory ∧ t'.get? l = none) ∧
      (∀ l, ¬ Discards t here paths l → t'.get? l = t.get? l) := by
  induction paths generalizing t with
  | nil =>
    rw [List.map_nil, performAll] at done
    cases done
    exact ⟨fun l discarded => by simp [Discards] at discarded, fun l _ => rfl⟩
  | cons p paths ih =>
    rw [List.map_cons, performAll] at done
    split at done
    swap
    · cases done
    rename_i next performed
    obtain ⟨gone, kept⟩ := ih done
    rcases perform_discard performed with ⟨names, e, found, file, rfl⟩ | ⟨missing, unchanged⟩
    · have isFile : t.get? (p.location here) ≠ some .directory := by simpa [found] using file
      have notRoot := names.notRoot
      have located := names.locate found
      have later : ∀ l, Discards (t.erase (p.location here)) here paths l ↔
          l ≠ p.location here ∧ Discards t here paths l := by
        intro l
        simp only [Discards, locate_erase notRoot isFile]
        grind
      have first : ∀ l e', t.locate here p = .ok (l, e') → l = p.location here :=
        fun l e' => FileTree.locate_location
      constructor
      · intro l discarded
        by_cases same : l = p.location here
        · subst same
          refine ⟨notRoot, isFile, ?_⟩
          rw [kept _ (by simp [later]), FileTree.get?_erase_self notRoot]
        · have rest : Discards t here paths l := by
            rcases discards_cons.mp discarded with ⟨e', located'⟩ | rest
            · exact absurd (first l e' located') same
            · exact rest
          have spec := gone l ((later l).mpr ⟨same, rest⟩)
          rwa [FileTree.get?_erase_ne same] at spec
      · intro l notDiscarded
        have same : l ≠ p.location here := by
          rintro rfl
          exact notDiscarded (discards_cons.mpr (.inl ⟨e, located⟩))
        rw [kept l (fun h => notDiscarded (discards_cons.mpr (.inr ((later l).mp h).2))),
          FileTree.get?_erase_ne same]
    · subst unchanged
      have same : ∀ l, Discards next here (p :: paths) l ↔ Discards next here paths l := by
        intro l
        simp [discards_cons, missing]
      exact ⟨fun l h => gone l ((same l).mp h), fun l h => kept l (mt (same l).mpr h)⟩

/-- The locations that an effect may change, new directories apart. -/
def touches (here : Location) : Effect → List Location
  | makeDirs _ => []
  | write p _ | discard p => [p.location here]
  | rename p q => [p.location here, q.location here]

theorem perform_frame (t : FileTree) (here : Location) (e : Effect) :
    FileTree.KeepsDirectories t (e.perform t here).1 ∧
      ∀ l, l ∉ e.touches here → FileTree.GrowsAt t (e.perform t here).1 l := by
  cases e with
  | makeDirs p =>
    have grows := FileTree.makeDirs_grows t here p
    exact ⟨grows.keepsDirectories, fun l _ => grows l⟩
  | write p content =>
    simp only [perform]
    cases wrote : t.write here p content with
    | error cause => exact ⟨.refl t, fun l _ => .inl rfl⟩
    | ok after =>
      obtain ⟨-, file, ⟨-, rfl⟩ | ⟨mode, rfl⟩⟩ := FileTree.write_ok wrote
      · exact ⟨.refl _, fun l _ => .inl rfl⟩
      · refine ⟨FileTree.keepsDirectories_insert file, fun l other => .inl ?_⟩
        exact FileTree.get?_insert_ne (by simpa [touches] using other)
  | rename p q =>
    simp only [perform]
    cases moved : t.rename here p q with
    | error cause => exact ⟨.refl t, fun l _ => .inl rfl⟩
    | ok after =>
      obtain ⟨-, fileQ, e, found, fileP, rfl⟩ := FileTree.rename_ok moved
      have isFile : t.get? (p.location here) ≠ some .directory := by simpa [found] using fileP
      have free : (t.erase (p.location here)).get? (q.location here) ≠ some .directory := by
        by_cases same : q.location here = p.location here
        · rw [same]
          intro directory
          by_cases root : p.location here = []
          · simp [root, FileTree.get?] at found
            exact fileP found.symm
          · simp [FileTree.get?_erase_self root] at directory
        · rwa [FileTree.get?_erase_ne same]
      refine ⟨(FileTree.keepsDirectories_erase isFile).trans
        (FileTree.keepsDirectories_insert free), fun l other => .inl ?_⟩
      simp only [touches, List.mem_cons, List.not_mem_nil, or_false, not_or] at other
      rw [FileTree.get?_insert_ne other.2, FileTree.get?_erase_ne other.1]
  | discard p =>
    simp only [perform]
    cases removed : t.remove here p with
    | error cause => cases cause <;> exact ⟨.refl t, fun l _ => .inl rfl⟩
    | ok after =>
      obtain ⟨-, e, found, file, rfl⟩ := FileTree.remove_ok removed
      refine ⟨FileTree.keepsDirectories_erase (by simpa [found] using file), fun l other => .inl ?_⟩
      exact FileTree.get?_erase_ne (by simpa [touches] using other)

/-- A sequence of effects changes files at the locations of its paths alone. -/
theorem performAll_frame (effects : List Effect) (t : FileTree) (here : Location) :
    FileTree.KeepsDirectories t (performAll t here effects).1 ∧
      ∀ l, (∀ e ∈ effects, l ∉ e.touches here) →
        FileTree.GrowsAt t (performAll t here effects).1 l := by
  induction effects generalizing t with
  | nil =>
    rw [performAll]
    exact ⟨.refl t, fun l _ => .inl rfl⟩
  | cons e effects ih =>
    obtain ⟨kept, grows⟩ := perform_frame t here e
    rw [performAll]
    rcases performed : e.perform t here with ⟨after, _ | cause⟩
    · rw [performed] at kept grows
      obtain ⟨keptRest, growsRest⟩ := ih after
      refine ⟨kept.trans keptRest, fun l apart => ?_⟩
      exact (grows l (apart e (by simp))).trans
        (growsRest l fun other member => apart other (by simp [member]))
    · rw [performed] at kept grows
      exact ⟨kept, fun l apart => grows l (apart e (by simp))⟩

end Effect
end SimWorkbench
