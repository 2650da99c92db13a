import Mathlib.Data.List.DropRight
import SimWorkbench.Proofs.FileTree.Clearing
import SimWorkbench.Proofs.Path.Absolute

/-!
# The directory above a file

The parent of a path is followed like the path itself, up to the last step. So where a file was
reached by a path, making the directory above it changes nothing.
-/
namespace SimWorkbench

namespace Path

variable {p q : Path} {here : Location}

theorem step?_of_idle {segment : List Char} (idle : isIdle segment = true) : step? segment = none := by
  simp [step?, componentOf, idle]

theorem step?_of_notIdle {segment : List Char} (notIdle : isIdle segment = false) :
    step? segment = some (String.ofList segment) := by
  rw [step?, segment?_componentOf, if_neg]
  simpa [isIdle] using notIdle

/-- What is trimmed are segments at the end that carry no step. -/
theorem trimSegments_spec (segments : List (List Char)) :
    trimSegments segments <+: segments ∧
      (trimSegments segments).filterMap step? = segments.filterMap step? := by
  cases segments with
  | nil => exact ⟨List.prefix_rfl, rfl⟩
  | cons first rest =>
    have shorter : rest.rdropWhile isIdle <+: rest := List.rdropWhile_prefix isIdle rest
    refine ⟨(List.prefix_cons_inj first).mpr shorter, ?_⟩
    have noSteps : (rest.rtakeWhile isIdle).filterMap step? = [] :=
      List.filterMap_eq_nil_iff.mpr fun _ member => step?_of_idle (List.mem_rtakeWhile_imp member)
    conv_rhs => rw [← List.rdropWhile_append_rtakeWhile (p := isIdle) (l := rest)]
    rw [← List.cons_append, List.filterMap_append, noSteps, List.append_nil]
    rfl

/-- The last segment that is left carries a step, if it is not the first. -/
theorem trimSegments_last {segments rest : List (List Char)} {first : List Char}
    (trimmed : trimSegments segments = first :: rest) (more : rest ≠ []) :
    isIdle (rest.getLast more) = false := by
  cases segments with
  | nil => cases trimmed
  | cons head tail =>
    obtain ⟨-, rfl⟩ := List.cons.inj trimmed
    exact Bool.eq_false_iff.mpr (List.rdropWhile_last_not isIdle tail more)

theorem intercalate_beginning {first all : List (List Char)} (isPrefix : first <+: all)
    (notEmpty : first ≠ []) : ['/'].intercalate first <+: ['/'].intercalate all := by
  induction first generalizing all with
  | nil => exact absurd rfl notEmpty
  | cons segment rest ih =>
    obtain ⟨later, rfl⟩ := List.cons_prefix_iff.mp isPrefix |>.imp fun _ h => h.1
    have rests : rest <+: later := (List.prefix_cons_inj segment).mp isPrefix
    cases rest with
    | nil =>
      cases later with
      | nil => exact List.prefix_rfl
      | cons next later => rw [List.intercalate_singleton, List.intercalate_cons_cons]; simp
    | cons next rest =>
      obtain ⟨after, rfl⟩ := List.cons_prefix_iff.mp rests |>.imp fun _ h => h.1
      rw [List.intercalate_cons_cons, List.intercalate_cons_cons]
      exact (List.prefix_append_right_inj _).mpr (ih rests (by simp))

/-- A path that is followed like another up to its last step. -/
structure Above (q p : Path) : Prop where
  steps : q.steps = p.steps.dropLast
  text : q.text.toList <+: p.text.toList

/-- The first segments of a path make a path whose text is a first part of the other's. -/
theorem ofTrimmed_spec {segments : List (List Char)} (isPrefix : segments <+: p.segments)
    (notEmpty : segments ≠ []) :
    (ofTrimmed segments p.isAbsolute).steps = segments.filterMap step? ∧
      (ofTrimmed segments p.isAbsolute).text.toList <+: p.text.toList := by
  unfold ofTrimmed
  split
  · rename_i isRoot
    simp only [Bool.and_eq_true, beq_iff_eq] at isRoot
    obtain ⟨absolute, rfl⟩ := isRoot
    refine ⟨by decide, ?_⟩
    cases text : p.text.toList with
    | nil => simp [isAbsolute, text] at absolute
    | cons c cs =>
      obtain rfl : c = '/' := by simpa [isAbsolute, text] using absolute
      exact ⟨cs, rfl⟩
  · refine ⟨?_, ?_⟩
    · rw [steps_eq_segments, segments_ofSegments _ notEmpty]
      exact fun s member => noSlash_of_segment (isPrefix.subset member)
    · have whole : ['/'].intercalate p.segments = p.text.toList := List.intercalate_splitOn '/'
      rw [ofSegments, String.toList_ofList, ← whole]
      exact intercalate_beginning isPrefix notEmpty

/-- The parent of a path is followed like the path up to its last step. -/
theorem parent?_above (isParent : p.parent? = some q) : q.text.isEmpty = true ∨ Above q p := by
  unfold parent? at isParent
  obtain ⟨trimmedPrefix, trimmedSteps⟩ := trimSegments_spec p.segments
  split at isParent
  · cases isParent
  · split at isParent
    · cases isParent
    · cases isParent
      exact .inl rfl
  · rename_i first rest single trimmed
    cases isParent
    have more : rest ≠ [] := single
    have last := step?_of_notIdle (trimSegments_last trimmed more)
    obtain ⟨above, aboveSteps⟩ := trimSegments_spec (first :: rest.dropLast)
    have within : trimSegments (first :: rest.dropLast) <+: p.segments :=
      (above.trans ((List.prefix_cons_inj first).mpr rest.dropLast_prefix)).trans
        (trimmed ▸ trimmedPrefix)
    obtain ⟨steps, text⟩ := ofTrimmed_spec within (by simp [trimSegments])
    refine .inr ⟨?_, text⟩
    rw [steps, aboveSteps, steps_eq_segments, ← trimmedSteps, trimmed]
    conv_rhs => rw [← List.dropLast_append_getLast more, ← List.cons_append, List.filterMap_append]
    simp [last]

theorem isAbsolute_of_beginning (isPrefix : q.text.toList <+: p.text.toList)
    (notEmpty : q.text.isEmpty = false) : q.isAbsolute = p.isAbsolute := by
  obtain ⟨rest, text⟩ := isPrefix
  cases letters : q.text.toList with
  | nil => simp_all
  | cons c cs => simp [isAbsolute, ← text, letters]

end Path

namespace FileTree

variable {t t' : FileTree} {here : Location} {p q : Path}

theorem Acceptable.of_beginning (accepted : Acceptable p) (isPrefix : q.text.toList <+: p.text.toList)
    (notEmpty : q.text.isEmpty = false) : Acceptable q := by
  obtain ⟨-, noZero, short⟩ := accepted
  obtain ⟨rest, text⟩ := isPrefix
  have whole : p.text = q.text ++ String.ofList rest := by
    rw [← String.toList_inj, String.toList_append, String.toList_ofList, text]
  refine ⟨notEmpty, ?_, ?_⟩
  · rw [← text] at noZero
    simp only [List.contains_eq_mem, decide_eq_false_iff_not, List.mem_append, not_or] at noZero ⊢
    exact noZero.1
  · rw [whole, String.utf8ByteSize_append] at short
    omega

/-- Where a walk ends that enters every directory on the way, nothing can be made. -/
theorem makeDir_of_entered {l : Location} (accepted : Acceptable p)
    (start : t.get? (p.start here) = some .directory)
    (entered : p.names.foldlM t.enter (p.start here) = .ok l) :
    t.makeDir here p = .error .alreadyExists := by
  rcases List.eq_nil_or_concat p.names with none | ⟨before, final, names⟩
  · simp [makeDir, walk_noNames accepted start none, bind, Except.bind]
  · rw [List.concat_eq_append] at names
    rw [names] at entered
    obtain ⟨dir, walked, last⟩ := foldlM_enter_concat entered
    by_cases single : final = "."
    · simp [makeDir, walk_names accepted start names, walked, bind, Except.bind, single,
        Last.ofSegment]
    by_cases double : final = ".."
    · simp [makeDir, walk_names accepted start names, walked, bind, Except.bind, double,
        Last.ofSegment]
    have directory := enter_directory last ⟨single, double⟩
    have isChild := enter_ok last
    simp only [Location.enter, if_neg single, if_neg double] at isChild
    rw [isChild] at directory
    have short : final.utf8ByteSize ≤ 255 := by
      by_contra long
      simp [enter, single, double, Nat.lt_of_not_le long] at last
    simp [makeDir, walk_names accepted start names, walked, bind, Except.bind, single, double, short,
        Last.ofSegment, directory]

/-- Where nothing can be made, making directories changes nothing. -/
theorem makeDirs_of_exists (exists? : t.makeDir here p = .error .alreadyExists) :
    (t.makeDirs here p).1 = t := by
  unfold makeDirs makeDirsFrom
  split
  · rfl
  · simp only [exists?, makeLast]
    split <;> rfl

/-- Making the directory above a file that can be reached changes nothing. -/
theorem makeDirs_parent (named : CanNameFile p) (reached : t.Reached here p)
    (isParent : p.parent? = some q) : (t.makeDirs here q).1 = t := by
  by_cases empty : q.text.isEmpty = true
  · simp [makeDirs, makeDirsFrom, empty]
  have notEmpty : q.text.isEmpty = false := by simpa using empty
  have above := (Path.parent?_above isParent).resolve_left empty
  obtain ⟨start, before, final, dir, steps, entered⟩ := reached
  have starts : q.start here = p.start here := by
    rw [Path.start, Path.start, Path.isAbsolute_of_beginning above.text notEmpty]
  refine makeDirs_of_exists (makeDir_of_entered (l := dir)
    (named.1.of_beginning above.text notEmpty) (starts ▸ start) ?_)
  rw [starts, ← foldlM_enter_steps, ← entered, ← Path.steps, above.steps, steps, List.dropLast_concat]

end FileTree
end SimWorkbench
