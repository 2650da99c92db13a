import SimWorkbench.Proofs.FileTree.Clearing
import SimWorkbench.Proofs.Path.Absolute

/-!
# Names below a directory

What is joined to a directory is found again when the directory is taken off the absolute path,
however the directory is spelled.
-/
namespace SimWorkbench

namespace Path

variable {base p : Path} {here : Location}

/-- The component that a step of a path is. -/
def stepComponent (name : String) : Component := if name = ".." then .parent else .name name

/-- The components after the root are those of the steps. -/
theorem named_eq_steps (p : Path) : p.named = p.steps.map stepComponent := by
  have each : ∀ c ∈ p.named, stepComponent c.text = c := by
    intro c member
    obtain ⟨segment, -, -⟩ := p.named_spec c member
    cases c with
    | root | current => cases segment
    | parent => rfl
    | name text =>
      obtain ⟨s, -, isComponent⟩ := List.mem_filterMap.mp member
      unfold componentOf at isComponent
      split at isComponent
      · cases isComponent
      · split at isComponent
        · cases isComponent
        · rename_i double
          cases isComponent
          refine if_neg fun same => double ?_
          exact String.toList_ofList.symm.trans (congrArg String.toList same)
  rw [← text_of_named, List.map_map]
  exact (List.map_id' p.named).symm.trans (List.map_congr_left fun c member => (each c member).symm)

/-- Nothing is dropped from segments that carry components but the given number of them. -/
theorem dropComponents_steps (before after : List String)
    (names : ∀ name ∈ before, isIdle name.toList = false) :
    dropComponents before.length ((before ++ after).map String.toList) = after.map String.toList := by
  induction before with
  | nil => simp [dropComponents]
  | cons name before ih =>
    have notIdle := names name List.mem_cons_self
    rw [List.length_cons, List.cons_append, List.map_cons, dropComponents, notIdle,
      if_neg Bool.false_ne_true]
    exact ih fun name member => names name (List.mem_cons_of_mem _ member)

theorem notIdle_of_step {name : String} (notEmpty : name ≠ "") (notSingle : name ≠ ".") :
    isIdle name.toList = false := by
  have single : name.toList ≠ ['.'] := fun same => notSingle (by rw [← String.toList_inj, same]; rfl)
  simp [isIdle, notEmpty, single]

theorem notIdle_of_mem_steps (p : Path) : ∀ name ∈ p.steps, isIdle name.toList = false :=
  fun name member => notIdle_of_step (p.segments_steps name member).1 (ne_dot_of_mem_steps member)

/-- What lies below a directory is what is left of its segments. -/
theorem below?_of_segments {more : List String} (absolute : base.isAbsolute = true)
    (absolute' : p.isAbsolute = true) (steps : p.steps = base.steps ++ more) (nonempty : more ≠ [])
    (segments : p.segments = [] :: (base.steps ++ more).map String.toList ∨
      p.segments = [] :: [] :: (base.steps ++ more).map String.toList) :
    base.below? p = some (ofSegments (more.map String.toList)) := by
  have prefixed : base.components.isPrefixOf p.components = true := by
    rw [components_absolute absolute, components_absolute absolute', named_eq_steps, named_eq_steps,
      steps, List.map_append, List.isPrefixOf_iff_prefix]
    exact (List.prefix_cons_inj _).mpr (List.prefix_append _ _)
  have length : base.components.length - 1 = base.steps.length := by
    rw [components_absolute absolute, named_eq_steps, List.length_cons, List.length_map]
    rfl
  have notEmpty : base.components.isEmpty = false := by rw [components_absolute absolute]; rfl
  have names : ∀ name ∈ more, isIdle name.toList = false := fun name member =>
    p.notIdle_of_mem_steps name (steps ▸ List.mem_append_right _ member)
  have dropped : (dropComponents base.steps.length p.segments.tail).dropWhile isIdle =
      more.map String.toList := by
    have front : (more.map String.toList).dropWhile isIdle = more.map String.toList := by
      obtain ⟨first, rest, rfl⟩ := List.exists_cons_of_ne_nil nonempty
      rw [List.map_cons, List.dropWhile_cons_of_neg (by simp [names first List.mem_cons_self])]
    have whole := dropComponents_steps base.steps more base.notIdle_of_mem_steps
    rcases segments with single | doubled
    · rw [single, List.tail_cons, whole, front]
    · rw [doubled, List.tail_cons]
      cases count : base.steps.length with
      | zero =>
        rw [List.length_eq_zero_iff.mp count, List.nil_append, dropComponents,
          List.dropWhile_cons_of_pos (by rfl), front]
      | succ n =>
        have skips : dropComponents (n + 1) ([] :: (base.steps ++ more).map String.toList) =
            dropComponents (n + 1) ((base.steps ++ more).map String.toList) := by
          rw [dropComponents]
          rfl
        rw [skips, ← count, whole, front]
  have back : ((more.map String.toList).reverse.dropWhile isIdle).reverse =
      more.map String.toList := by
    obtain ⟨rest, last, rfl⟩ := (List.eq_nil_or_concat more).resolve_left nonempty
    have notIdle := names last (by simp)
    simp [List.dropWhile_cons_of_neg, notIdle]
  unfold below?
  simp only [prefixed, if_true, notEmpty, Bool.false_eq_true, if_false, length, dropped, back]

/-! ### Absolute paths of names below a directory -/

theorem segments_slashed (p : Path) : (Path.mk ("/" ++ p.text)).segments = [] :: p.segments := by
  have text : ("/" ++ p.text).toList = [] ++ '/' :: p.text.toList := by simp
  rw [Path.segments, text, List.splitOn_append_cons_self, List.splitOn_nil]
  rfl

theorem segments_path {l : Location} (segments : Segments l) (nonempty : l ≠ []) :
    l.path.segments = [] :: l.map String.toList := by
  have pieces : (Path.mk ("/".intercalate l)).segments = l.map String.toList := by
    rw [Path.segments, String.toList_intercalate]
    refine List.splitOn_intercalate '/' (fun piece member => ?_) (by simpa using nonempty)
    obtain ⟨name, isName, rfl⟩ := List.mem_map.mp member
    exact (segments name isName).2
  rw [← pieces]
  exact segments_slashed ⟨"/".intercalate l⟩

theorem steps_child {name : String} (isName : IsName name) :
    (p.child name).steps = p.steps ++ [name] := by
  rw [steps, names_child isName, List.filter_append, ← steps,
    List.filter_cons_of_pos (by simpa using isName.2.1), List.filter_nil]

theorem isAbsolute_child {name : String} (isName : IsName name) :
    (p.child name).isAbsolute = p.isAbsolute := by
  rw [child, isAbsolute_join (names_of_noSlash isName.2.2.2 isName.1).2]

/-- Taking a directory off the absolute path of what lies below it leaves the names. -/
theorem below?_normalised {more : List String} (proper : ∀ name ∈ here, IsName name)
    (absolute : base.isAbsolute = true) (isAbsolute : p.isAbsolute = true)
    (steps : p.steps = base.steps ++ more) (nonempty : more ≠ []) (isOpen : p.Open) :
    base.below? (p.normalised here.path) = some (ofSegments (more.map String.toList)) := by
  have notEmpty : p.text.isEmpty = false := by simpa using isOpen.1
  have noSlash : (p.text.toList.getLast? == some '/') = false := beq_eq_false_iff_ne.mpr isOpen.2
  have fromRoot : p.fromRoot here = p.steps := by rw [Path.fromRoot, if_pos isAbsolute]
  obtain ⟨sameSteps, -, isAbsolute'⟩ := steps_normalised proper notEmpty noSlash
  have segments : (Location.path p.steps).segments = [] :: p.steps.map String.toList :=
    segments_path (segments_steps p) (by simp [steps, nonempty])
  refine below?_of_segments absolute isAbsolute' (sameSteps.trans (fromRoot.trans steps)) nonempty ?_
  rw [normalised_eq proper notEmpty noSlash, fromRoot, ← steps]
  split
  · exact .inr (by rw [segments_slashed, segments])
  · exact .inl segments

/-- Two names below a path are a path of two segments below it. -/
theorem child_child {first second : String} (isName : IsName first) (isName' : IsName second) :
    (p.child first).child second = p.join ⟨first ++ "/" ++ second⟩ := by
  obtain ⟨-, relative⟩ := names_of_noSlash isName.2.2.2 isName.1
  obtain ⟨-, relative'⟩ := names_of_noSlash isName'.2.2.2 isName'.1
  have notEmpty : first.toList ≠ [] := by simpa using isName.1
  have text := text_join relative' (open_child (p := p) isName)
  rw [String.append_assoc] at text
  calc (p.child first).child second
      = ⟨(p.child first).text ++ ("/" ++ second)⟩ := congrArg Path.mk text
    _ = p.join ⟨first ++ ("/" ++ second)⟩ := append_join relative notEmpty _
    _ = p.join ⟨first ++ "/" ++ second⟩ := by rw [String.append_assoc]

/-- An absolute path is at least as long as the slashes and the steps. -/
theorem span_le_of_absolute (absolute : p.isAbsolute = true) :
    span p.steps ≤ p.text.utf8ByteSize := by
  obtain ⟨rest, text⟩ : ∃ rest, p.text.toList = [] ++ '/' :: rest := by
    simp only [isAbsolute, beq_iff_eq] at absolute
    obtain ⟨rest, text⟩ := List.head?_eq_some_iff.mp absolute
    exact ⟨rest, text⟩
  have segments : p.segments = [] :: rest.splitOn '/' := by
    rw [Path.segments, text, List.splitOn_append_cons_self, List.splitOn_nil]
    rfl
  have steps : p.steps.Sublist ((rest.splitOn '/').map String.ofList) := by
    rw [Path.steps, names, segments, List.filter_cons_of_neg (by simp)]
    exact List.filter_sublist.trans (List.filter_sublist.map _)
  have size := @size_intercalate (p.segments.map String.ofList) (by simp [segments])
  rw [← text_eq_intercalate, segments] at size
  have shorter := span_le_of_sublist steps
  simp only [span, List.map_cons, List.sum_cons] at size shorter ⊢
  have none : (String.ofList []).utf8ByteSize = 0 := by decide +kernel
  omega

end Path

namespace FileTree

variable {t : FileTree} {here : Location} {p : Path} {content : Bytes} {before : List String}
  {final : String}

theorem SpelledAsFile.of_named (named : CanNameFile p) (steps : p.steps = before ++ [final])
    (notParent : final ≠ "..") : SpelledAsFile p before final := by
  obtain ⟨-, noSlash, fits⟩ := named.2 final (by rw [steps, List.getLast?_concat]) notParent
  exact ⟨named.1, steps, noSlash, fits, notParent⟩

/-- If the system accepts an absolute path, it accepts it without idle segments. -/
theorem SpelledAsFile.normalised (spelled : SpelledAsFile p before final)
    (proper : ∀ name ∈ here, Path.IsName name) (absolute : p.isAbsolute = true) :
    CanNameFile (p.normalised here.path) := by
  rw [Path.normalised_eq proper spelled.acceptable.1 spelled.noSlash, Path.fromRoot, if_pos absolute]
  split
  · exact (canNameFile_of_doubled spelled ‹_›).2
  · refine spelled.canNameFile.1 ?_
    have stepsSize := @Path.size_intercalate p.steps (by simp [spelled.steps])
    have shorter := Path.span_le_of_absolute absolute
    have short := spelled.acceptable.2.2
    have one : "/".utf8ByteSize = 1 := rfl
    simp only [Location.path, String.utf8ByteSize_append, one]
    omega

/-- A file is read by an absolute path that the system accepts exactly if it is read by the path
without idle segments. -/
theorem read_normalised_iff (proper : ∀ name ∈ here, Path.IsName name)
    (absolute : p.isAbsolute = true) (named : CanNameFile p) (steps : p.steps = before ++ [final])
    (notParent : final ≠ "..") :
    t.read here (p.normalised here.path) = .ok content ↔ t.read here p = .ok content := by
  have spelled := SpelledAsFile.of_named named steps notParent
  obtain ⟨sameSteps, -, isAbsolute⟩ :=
    Path.steps_normalised proper spelled.acceptable.1 spelled.noSlash
  rw [Path.fromRoot, if_pos absolute] at sameSteps
  have reached : t.Reached here (p.normalised here.path) ↔ t.Reached here p := by
    rw [Reached, Reached, Path.start, Path.start, if_pos absolute, if_pos isAbsolute, sameSteps]
  rw [read_iff, read_iff, reached, Path.location_normalised p proper]
  exact and_congr_left' (iff_of_true (spelled.normalised proper absolute) named)

theorem canNameFile_of_isFile (isFile : t.isFile here p = true) : CanNameFile p := by
  obtain ⟨e, located, file⟩ := locate_of_isFile isFile
  have notDirectory : e ≠ .directory := by
    rintro rfl
    cases file
  exact ((locate_file_iff notDirectory).mp located).1

/-- What can be read is a regular file or a device. -/
theorem isFile_of_read (readable : t.read here p = .ok content)
    (regular : ∀ d, t.get? (p.location here) ≠ some (.device d)) : t.isFile here p = true := by
  obtain ⟨l, e, located, isContent⟩ := read_ok_iff.mp readable
  have found := locate_get? located
  rw [locate_location located] at found
  have file : e.isFile = true := by
    cases e with
    | file _ _ | tool _ => rfl
    | directory => cases isContent
    | device d => exact absurd found (regular d)
  simp [FileTree.isFile, entryAt?, located, Except.toOption, file]

end FileTree
end SimWorkbench
