import SimWorkbench.Proofs.FileTree.Effect
import SimWorkbench.Proofs.Path.Length

/-!
# Names that are free

A directory that was made is there, and in a directory that is there every name is looked for. So
where the directory above a file was made and the file discarded, nothing stands.
-/
namespace SimWorkbench

namespace Path

variable {p : Path} {name : String}

theorem trimSegments_concat {segments : List (List Char)} {final : List Char}
    (notIdle : isIdle final = false) : trimSegments (segments ++ [final]) = segments ++ [final] := by
  cases segments with
  | nil => rfl
  | cons first rest => simp [trimSegments, notIdle]

theorem ofSegments_segments (p : Path) : ofSegments p.segments = p := by
  rw [ofSegments, mk.injEq, ← String.toList_inj, String.toList_ofList]
  exact List.intercalate_splitOn '/'

theorem IsName.notIdle (isName : IsName name) : isIdle name.toList = false := by
  obtain ⟨notEmpty, notSingle, -, -⟩ := isName
  have notDot : name.toList ≠ ['.'] := by
    intro same
    exact notSingle (String.toList_inj.mp same)
  simp [isIdle, notEmpty, notDot]

/-- The path of a name below another ends with the name. -/
theorem text_child (isName : IsName name) :
    (p.child name).text.toList.getLast? = name.toList.getLast? := by
  obtain ⟨notEmpty, -, -, noSlash⟩ := isName
  have letters : name.toList ≠ [] := by simpa using notEmpty
  obtain ⟨-, relative⟩ := names_of_noSlash noSlash notEmpty
  unfold child join
  rw [if_neg (by simp [relative])]
  split <;> simp [List.getLast?_append, List.getLast?_cons, List.getLast?_eq_some_getLast letters]

theorem names_child (isName : IsName name) : (p.child name).names = p.names ++ [name] := by
  obtain ⟨names, relative⟩ := names_of_noSlash isName.2.2.2 isName.1
  rw [child, names_join relative, names]

theorem start_child {here : Location} (isName : IsName name) :
    (p.child name).start here = p.start here := by
  obtain ⟨-, relative⟩ := names_of_noSlash isName.2.2.2 isName.1
  rw [start, child, isAbsolute_join relative]
  rfl

/-- A path below another ends with no slash. -/
theorem open_child (isName : IsName name) : (p.child name).Open := by
  have letters : name.toList ≠ [] := by simpa using isName.1
  refine ⟨fun empty => ?_, fun slash => ?_⟩
  · have last := text_child (p := p) isName
    rw [empty, List.getLast?_nil, List.getLast?_eq_some_getLast letters] at last
    cases last
  · rw [text_child isName] at slash
    exact isName.2.2.2 (List.mem_of_getLast? slash)

theorem segments_child (isName : IsName name) (isOpen : p.Open) :
    (p.child name).segments = p.segments ++ [name.toList] := by
  obtain ⟨notEmpty, -, -, noSlash⟩ := isName
  obtain ⟨-, relative⟩ := names_of_noSlash noSlash notEmpty
  rw [child, segments, text_join relative isOpen]
  simp [segments, List.splitOn_append_cons_self, List.splitOn_eq_singleton noSlash]

/-- The last segment of a path below another is the name. -/
theorem segments_child_last (isName : IsName name) :
    ∃ before, (p.child name).segments = before ++ [name.toList] := by
  obtain ⟨notEmpty, -, -, noSlash⟩ := isName
  obtain ⟨-, relative⟩ := names_of_noSlash noSlash notEmpty
  unfold child join segments
  rw [if_neg (by simp [relative])]
  by_cases empty : p.text.toList = []
  · have isEmpty : p.text.isEmpty = true := by simpa using empty
    exact ⟨[], by simp [isEmpty, empty, List.splitOn_eq_singleton noSlash]⟩
  by_cases slash : p.text.toList.getLast? = some '/'
  · obtain ⟨before, text⟩ := List.getLast?_eq_some_iff.mp slash
    refine ⟨before.splitOn '/', ?_⟩
    rw [if_pos (by simp [slash])]
    simp [text, List.splitOn_append_cons_self, List.splitOn_eq_singleton noSlash]
  · have isEmpty : p.text.isEmpty = false := by simpa using empty
    refine ⟨p.text.toList.splitOn '/', ?_⟩
    rw [if_neg (by simp [isEmpty, slash])]
    simp [List.splitOn_append_cons_self, List.splitOn_eq_singleton noSlash]

/-- What lies two names below a path lies one name below its parent. -/
theorem parent?_child_child {a b : String} (isNameA : IsName a) (isNameB : IsName b) :
    ((p.child a).child b).parent? = some (p.child a) := by
  obtain ⟨before, segmentsA⟩ := segments_child_last (p := p) isNameA
  have segments := segments_child isNameB (open_child (p := p) isNameA)
  have notRoot : (p.child a).segments ≠ [[]] := by
    rw [segmentsA]
    intro single
    obtain ⟨rfl, last⟩ := List.append_inj' (single.trans (List.nil_append _).symm) rfl
    exact isNameA.1 (by simpa using last)
  have kept : trimSegments (p.child a).segments = (p.child a).segments := by
    rw [segmentsA]
    exact trimSegments_concat isNameA.notIdle
  cases split : (p.child a).segments with
  | nil => simp [segmentsA] at split
  | cons first rest =>
    obtain ⟨second, more, rests⟩ := List.exists_cons_of_ne_nil (l := rest ++ [b.toList]) (by simp)
    have above : (second :: more).dropLast = rest := by rw [← rests, List.dropLast_concat]
    have trimmed : trimSegments ((p.child a).child b).segments = first :: second :: more := by
      rw [segments, trimSegments_concat isNameB.notIdle, split, List.cons_append, rests]
    simp only [parent?, trimmed, above]
    rw [← split, kept, ofTrimmed, if_neg (by simp [notRoot]), ofSegments_segments]

end Path

namespace FileTree

variable {t t' : FileTree} {here l dir : Location} {p q : Path} {e : Entry} {content : Bytes}

/-- A directory that was made is there. -/
theorem makeLast_directory (made : t.makeLast here p = (t', none)) :
    ∃ l, t'.locate here p = .ok (l, .directory) := by
  unfold makeLast at made
  split at made
  · rename_i after isMade
    cases made
    have kept := (makeDir_grows isMade).keepsDirectories
    unfold makeDir at isMade
    cases walked : t.walk here p with
    | error cause => simp [walked, bind, Except.bind] at isMade
    | ok ends =>
      obtain ⟨dir, last⟩ := ends
      simp only [walked, bind, Except.bind] at isMade
      rcases last with _ | _ | ⟨name, slashed⟩
      · cases isMade
      · cases isMade
      · cases found : t.get? (dir ++ [name]) with
        | some e => simp [found] at isMade
        | none =>
          simp only [found] at isMade
          cases isMade
          refine ⟨dir ++ [name], locate_ok_iff.mpr ⟨dir, _, walk_mono kept walked, rfl, ?_, by simp⟩⟩
          exact get?_insert_self t _ (by simp)
  · split at made <;> cases made
    rename_i isDirectory
    cases located : t.locate here p with
    | error cause => simp [FileTree.isDirectory, entryAt?, located, Except.toOption] at isDirectory
    | ok ends =>
      obtain ⟨l, e⟩ := ends
      simp only [FileTree.isDirectory, entryAt?, located, Except.toOption, Option.map_some,
        Option.getD_some, Entry.isDirectory_iff] at isDirectory
      exact ⟨l, by rw [isDirectory]⟩

/-- Directories that were made are there; the empty path needs none. -/
theorem makeDirs_directory (made : t.makeDirs here p = (t', none)) (notEmpty : p.text.isEmpty = false) :
    ∃ l, t'.locate here p = .ok (l, .directory) := by
  unfold makeDirs makeDirsFrom at made
  rw [if_neg (by simp [notEmpty])] at made
  split at made
  · rename_i above _ _
    rcases parents : makeDirsFrom p.segments.length t here above with ⟨middle, _ | cause⟩
    · rw [parents] at made
      exact makeLast_directory made
    · rw [parents] at made
      cases made
  · exact makeLast_directory made

/-- A walk to a directory that is there enters every directory on the way. -/
theorem foldlM_names_of_directory (located : t.locate here p = .ok (l, .directory)) :
    Acceptable p ∧ t.get? (p.start here) = some .directory ∧
      p.names.foldlM t.enter (p.start here) = .ok l := by
  obtain ⟨dir, last, walked, rfl, found, -⟩ := locate_ok_iff.mp located
  obtain ⟨accepted, directory, ⟨none, rfl, rfl⟩ | ⟨before, final, names, entered, fits, rfl⟩⟩ :=
    walk_ok_iff.mp walked
  · exact ⟨accepted, directory, by rw [none]; rfl⟩
  · refine ⟨accepted, directory, ?_⟩
    rw [names, List.foldlM_append, entered]
    simp only [bind, Except.bind, List.foldlM_cons, List.foldlM_nil, pure, Except.pure]
    unfold Last.ofSegment at found ⊢
    by_cases single : final = "."
    · simp [enter, single, Last.location]
    by_cases double : final = ".."
    · simp [enter, double, Last.location]
    simp only [if_neg single, if_neg double, Last.location] at found ⊢
    have short : ¬ 255 < final.utf8ByteSize :=
      Nat.not_lt.mpr ((fits.resolve_left single).resolve_left double)
    simp only [enter, if_neg single, if_neg double, if_neg short, found]

/-- A walk fails to find something only where the system accepts the path. -/
theorem acceptable_of_notFound (notEmpty : p.text.isEmpty = false)
    (missing : t.walk here p = .error .notFound) : Acceptable p := by
  unfold walk at missing
  rw [if_neg (by simp [notEmpty])] at missing
  split at missing
  · cases missing
  · rename_i noZero
    split at missing
    · cases missing
    · rename_i short
      exact ⟨notEmpty, by simpa using noZero, Nat.not_le.mp short⟩

/-- In a directory that is there a name is looked for, however that ends. -/
theorem walk_child_ne_notFound {name : String} (isName : Path.IsName name)
    (directory : t.locate here p = .ok (l, .directory)) :
    t.walk here (p.child name) ≠ .error .notFound := by
  obtain ⟨-, start, entered⟩ := foldlM_names_of_directory directory
  have starts : (p.child name).start here = p.start here := Path.start_child isName
  intro missing
  have accepted := acceptable_of_notFound (by simpa using (Path.open_child (p := p) isName).1) missing
  rw [walk_names accepted (by rwa [starts]) (Path.names_child isName), starts, entered] at missing
  simp only [bind, Except.bind] at missing
  split at missing <;> cases missing

/-- Where a discard succeeds in a directory that is there, nothing stands then. -/
theorem get?_discarded {name : String} (isName : Path.IsName name)
    (directory : t.locate here p = .ok (l, .directory))
    (done : Effect.perform t here (.discard (p.child name)) = (t', none)) :
    t'.get? ((p.child name).location here) = none := by
  simp only [Effect.perform] at done
  split at done
  · rename_i missing
    cases done
    unfold remove at missing
    cases walked : t.walk here (p.child name) with
    | error cause =>
      simp only [walked, bind, Except.bind, Except.error.injEq] at missing
      exact absurd (missing ▸ walked) (walk_child_ne_notFound isName directory)
    | ok ends =>
      obtain ⟨dir, last⟩ := ends
      rw [← walk_location walked]
      simp only [walked, bind, Except.bind] at missing
      rcases last with _ | _ | ⟨text, slashed⟩
      · cases missing
      · cases missing
      · simp only [Last.location]
        cases found : t.get? (dir ++ [text]) with
        | none => rfl
        | some e => cases e <;> simp [found] at missing <;> cases slashed <;> cases missing
  · cases removed : t.remove here (p.child name) with
    | error cause =>
      rw [removed] at done
      cases done
    | ok after =>
      rw [removed] at done
      cases done
      obtain ⟨names, -, -, -, rfl⟩ := remove_ok removed
      exact get?_erase_self names.notRoot

end FileTree

end SimWorkbench
