import SimWorkbench.FileTree.Effect
import SimWorkbench.Proofs.FileTree.Walk

/-!
# What file operations change

An operation that succeeds changes the tree at the locations of its paths and nowhere else, and it
keeps every directory. So what was read elsewhere is read again, and a file that was written is read
as it was written.
-/
namespace SimWorkbench

/-- What is read of an entry; a directory cannot be read. -/
def Entry.content? : Entry → Option Bytes
  | .directory => none
  | .file content _ => some content
  | .tool _ | .device _ => some []

theorem Entry.isDirectory_iff {e : Entry} : e.isDirectory = true ↔ e = .directory := by
  simp [isDirectory]

namespace FileTree

variable {t t' : FileTree} {here l dir : Location} {p q : Path} {e : Entry} {content : Bytes}

theorem lookup_filter_ne (entries : List (Location × Entry)) (l : Location) {m : Location}
    (other : m ≠ l) : (entries.filter fun x => x.1 != l).lookup m = entries.lookup m := by
  induction entries with
  | nil => rfl
  | cons x rest ih =>
    obtain ⟨k, e⟩ := x
    by_cases gone : k = l
    · subst gone
      simp [ih, List.lookup_cons, beq_eq_false_iff_ne.mpr other]
    · simp [gone, List.lookup_cons, ih]

theorem lookup_filter_self (entries : List (Location × Entry)) (l : Location) :
    (entries.filter fun x => x.1 != l).lookup l = none := by
  rw [List.lookup_eq_none_iff]
  intro x member
  have other := (List.mem_filter.mp member).2
  grind

theorem get?_erase_ne {m : Location} (other : m ≠ l) : (t.erase l).get? m = t.get? m := by
  simp only [get?, erase, lookup_filter_ne _ l other]

theorem get?_erase_self (notRoot : l ≠ []) : (t.erase l).get? l = none := by
  simp [get?, erase, notRoot, lookup_filter_self]

theorem get?_insert_ne {m : Location} (other : m ≠ l) : (t.insert l e).get? m = t.get? m := by
  have same : (t.insert l e).get? m = (t.erase l).get? m := by
    simp [get?, insert, List.lookup_cons, beq_eq_false_iff_ne.mpr other]
  rw [same, get?_erase_ne other]

/-- Whether all directories of one tree are directories of the other. -/
def KeepsDirectories (t t' : FileTree) : Prop :=
  ∀ l, t.get? l = some .directory → t'.get? l = some .directory

theorem KeepsDirectories.refl (t : FileTree) : KeepsDirectories t t := fun _ => id

theorem KeepsDirectories.trans {t'' : FileTree} (first : KeepsDirectories t t')
    (second : KeepsDirectories t' t'') : KeepsDirectories t t'' :=
  fun l directory => second l (first l directory)

theorem keepsDirectories_erase (file : t.get? l ≠ some .directory) :
    KeepsDirectories t (t.erase l) := by
  intro m directory
  have other : m ≠ l := by
    rintro rfl
    exact file directory
  rwa [get?_erase_ne other]

theorem keepsDirectories_insert (file : t.get? l ≠ some .directory) :
    KeepsDirectories t (t.insert l e) := by
  intro m directory
  have other : m ≠ l := by
    rintro rfl
    exact file directory
  rwa [get?_insert_ne other]

/-- What a path names lies where its walk ends; a slash at the end asks for a directory. -/
theorem locate_ok_iff :
    t.locate here p = .ok (l, e) ↔
      ∃ dir last, t.walk here p = .ok (dir, last) ∧ l = last.location dir ∧ t.get? l = some e ∧
        ((∃ name, last = .name name true) → e = .directory) := by
  unfold locate
  cases walked : t.walk here p with
  | error cause => simp [bind, Except.bind]
  | ok ends =>
    obtain ⟨dir, last⟩ := ends
    simp only [bind, Except.bind, Except.ok.injEq, Prod.mk.injEq]
    cases found : t.get? (last.location dir) with
    | none =>
      simp only [reduceCtorEq, false_iff]
      rintro ⟨_, _, ⟨rfl, rfl⟩, rfl, there, -⟩
      simp [found] at there
    | some entry =>
      rcases last with _ | _ | ⟨name, _ | _⟩
      · grind
      · grind
      · grind
      · by_cases directory : entry.isDirectory = true <;> grind [Entry.isDirectory_iff]

theorem locate_location (located : t.locate here p = .ok (l, e)) : l = p.location here := by
  obtain ⟨dir, last, walked, rfl, -, -⟩ := locate_ok_iff.mp located
  exact walk_location walked

theorem locate_get? (located : t.locate here p = .ok (l, e)) : t.get? l = some e := by
  obtain ⟨dir, last, -, -, found, -⟩ := locate_ok_iff.mp located
  exact found

/-- What is found is found again where the directories and the entry itself are kept. -/
theorem locate_mono (kept : KeepsDirectories t t') (located : t.locate here p = .ok (l, e))
    (same : t'.get? l = some e) : t'.locate here p = .ok (l, e) := by
  obtain ⟨dir, last, walked, rfl, -, directory⟩ := locate_ok_iff.mp located
  exact locate_ok_iff.mpr ⟨dir, last, walk_mono kept walked, rfl, same, directory⟩

/-- A regular file is the entry at the location of its path. -/
theorem locate_of_isFile (isFile : t.isFile here p = true) :
    ∃ e, t.locate here p = .ok (p.location here, e) ∧ e.isFile = true := by
  cases located : t.locate here p with
  | error cause => simp [FileTree.isFile, entryAt?, located, Except.toOption] at isFile
  | ok ends =>
    obtain ⟨l, e⟩ := ends
    rw [← locate_location located]
    simp only [FileTree.isFile, entryAt?, located, Except.toOption, Option.map_some,
      Option.getD_some] at isFile
    exact ⟨e, rfl, isFile⟩

theorem read_ok_iff :
    t.read here p = .ok content ↔ ∃ l e, t.locate here p = .ok (l, e) ∧ e.content? = some content := by
  unfold read
  cases located : t.locate here p with
  | error cause => simp [bind, Except.bind]
  | ok found =>
    obtain ⟨l, e⟩ := found
    cases e <;> simp [bind, Except.bind, Entry.content?, eq_comm]

theorem exists_read_of_isFile (isFile : t.isFile here p = true) :
    ∃ content, t.read here p = .ok content := by
  obtain ⟨e, located, file⟩ := locate_of_isFile isFile
  cases e with
  | file content mode => exact ⟨content, read_ok_iff.mpr ⟨_, _, located, rfl⟩⟩
  | tool name => exact ⟨[], read_ok_iff.mpr ⟨_, _, located, rfl⟩⟩
  | directory | device d => cases file

/-- Whether the directories above the file that a path names are there. -/
def NamesFile (t : FileTree) (here : Location) (p : Path) : Prop :=
  ∃ dir name, t.walk here p = .ok (dir, .name name false)

theorem NamesFile.notRoot (h : NamesFile t here p) : p.location here ≠ [] := by
  obtain ⟨dir, name, walked⟩ := h
  rw [← walk_location walked]
  simp [Last.location]

theorem NamesFile.mono (h : NamesFile t here p) (kept : KeepsDirectories t t') :
    NamesFile t' here p := by
  obtain ⟨dir, name, walked⟩ := h
  exact ⟨dir, name, walk_mono kept walked⟩

theorem NamesFile.locate (h : NamesFile t here p) (found : t.get? (p.location here) = some e) :
    t.locate here p = .ok (p.location here, e) := by
  obtain ⟨dir, name, walked⟩ := h
  exact locate_ok_iff.mpr ⟨dir, _, walked, (walk_location walked).symm, found, by simp⟩

/-- A write that succeeds goes to a device or to a file that is new or was there. -/
theorem write_ok (written : t.write here p content = .ok t') :
    NamesFile t here p ∧ t.get? (p.location here) ≠ some .directory ∧
      ((∃ d, t.get? (p.location here) = some (.device d)) ∧ t' = t ∨
        ∃ mode, t' = t.insert (p.location here) (.file content mode)) := by
  unfold write writeAs writeTarget at written
  cases walked : t.walk here p with
  | error cause => simp [walked, bind, Except.bind] at written
  | ok ends =>
    obtain ⟨dir, last⟩ := ends
    simp only [walked, bind, Except.bind] at written
    rcases last with _ | _ | ⟨name, _ | _⟩
    · cases written
    · cases written
    · refine ⟨⟨dir, name, walked⟩, ?_⟩
      rw [← walk_location walked, Last.location]
      cases found : t.get? (dir ++ [name]) with
      | none =>
        simp only [found] at written
        cases written
        exact ⟨by simp, .inr ⟨_, rfl⟩⟩
      | some e =>
        rcases e with _ | ⟨old, mode⟩ | tool | d <;> simp only [found] at written <;> cases written
        · exact ⟨by simp, .inr ⟨_, rfl⟩⟩
        · exact ⟨by simp, .inr ⟨_, rfl⟩⟩
        · exact ⟨by simp, .inl ⟨⟨d, rfl⟩, rfl⟩⟩
    · cases written

/-- Where a file could be written it is a regular one, unless a device took what was written. -/
theorem isFile_written (written : t.write here p content = .ok t') :
    t' = t ∨ t'.isFile here p = true := by
  obtain ⟨names, file, ⟨-, rfl⟩ | ⟨mode, rfl⟩⟩ := write_ok written
  · exact .inl rfl
  · have located := (names.mono (keepsDirectories_insert file)).locate
      (get?_insert_self _ (.file content mode) names.notRoot)
    exact .inr (by simp [FileTree.isFile, entryAt?, located, Except.toOption, Entry.isFile])

/-- A file that is removed was there under a name without a slash. -/
theorem remove_ok (removed : t.remove here p = .ok t') :
    NamesFile t here p ∧ ∃ e, t.get? (p.location here) = some e ∧ e ≠ .directory ∧
      t' = t.erase (p.location here) := by
  unfold remove at removed
  cases walked : t.walk here p with
  | error cause => simp [walked, bind, Except.bind] at removed
  | ok ends =>
    obtain ⟨dir, last⟩ := ends
    simp only [walked, bind, Except.bind] at removed
    rcases last with _ | _ | ⟨name, slashed⟩
    · cases removed
    · cases removed
    · rw [← walk_location walked, Last.location]
      cases found : t.get? (dir ++ [name]) with
      | none => simp [found] at removed
      | some e =>
        have notDirectory : e ≠ .directory := by
          rintro rfl
          simp [found] at removed
        have removed : (if slashed then .error .notDirectory else .ok (t.erase (dir ++ [name]))) =
            (.ok t' : Except OsError FileTree) := by
          cases e <;> simp_all
        cases slashed <;> cases removed
        exact ⟨⟨dir, name, walked⟩, e, rfl, notDirectory, rfl⟩

/-- A file that is not found for its removal is not found at all. -/
theorem remove_notFound (missing : t.remove here p = .error .notFound) :
    t.locate here p ≠ .ok (l, e) := by
  intro located
  obtain ⟨dir, last, walked, rfl, found, -⟩ := locate_ok_iff.mp located
  simp only [remove, walked, bind, Except.bind] at missing
  rcases last with _ | _ | ⟨name, slashed⟩
  · cases missing
  · cases missing
  · simp only [Last.location] at found
    cases e <;> simp [found] at missing <;> cases slashed <;> cases missing

/-- A file that is moved goes to a name that is no directory. -/
theorem rename_ok (renamed : t.rename here p q = .ok t') :
    NamesFile t here q ∧ t.get? (q.location here) ≠ some .directory ∧
      ∃ e, t.get? (p.location here) = some e ∧ e ≠ .directory ∧
        t' = (t.erase (p.location here)).insert (q.location here) e := by
  unfold rename at renamed
  cases walkedP : t.walk here p with
  | error cause => simp [walkedP, bind, Except.bind] at renamed
  | ok endP =>
    cases walkedQ : t.walk here q with
    | error cause => simp [walkedP, walkedQ, bind, Except.bind] at renamed
    | ok endQ =>
      obtain ⟨dirP, lastP⟩ := endP
      obtain ⟨dirQ, lastQ⟩ := endQ
      simp only [walkedP, walkedQ, bind, Except.bind] at renamed
      rcases lastP with _ | _ | ⟨nameP, slashedP⟩ <;> rcases lastQ with _ | _ | ⟨nameQ, slashedQ⟩ <;>
        try cases renamed
      rw [← walk_location walkedP, ← walk_location walkedQ, Last.location, Last.location]
      cases found : t.get? (dirP ++ [nameP]) with
      | none => simp [found] at renamed
      | some e =>
        have notDirectory : e ≠ .directory := by
          rintro rfl
          simp [found] at renamed
        have free : t.get? (dirQ ++ [nameQ]) ≠ some .directory := by
          intro taken
          cases e <;> simp [found, taken] at renamed <;> split at renamed <;> cases renamed
        have renamed : (if slashedP || slashedQ then .error .notDirectory
            else .ok ((t.erase (dirP ++ [nameP])).insert (dirQ ++ [nameQ]) e)) =
            (.ok t' : Except OsError FileTree) := by
          cases e <;> simp_all
        cases slashedP <;> cases slashedQ <;> cases renamed
        exact ⟨⟨dirQ, nameQ, walkedQ⟩, free, e, rfl, notDirectory, rfl⟩

/-- A file written under one name and moved to another is read under the other as it was written. -/
theorem replace_ok {written : FileTree}
    (noDevice : ∀ d, t.get? (p.location here) ≠ some (.device d))
    (wrote : t.write here p content = .ok written) (moved : written.rename here p q = .ok t') :
    t'.read here q = .ok content := by
  obtain ⟨namesP, fileP, ⟨⟨d, device⟩, -⟩ | ⟨mode, rfl⟩⟩ := write_ok wrote
  · exact absurd device (noDevice d)
  obtain ⟨namesQ, fileQ, e, found, notDirectory, rfl⟩ := rename_ok moved
  have same : e = .file content mode := by
    rw [get?_insert_self _ _ namesP.notRoot, Option.some.injEq] at found
    exact found.symm
  subst same
  set written := t.insert (p.location here) (.file content mode)
  have keptErase : KeepsDirectories written (written.erase (p.location here)) :=
    keepsDirectories_erase (by simp [found])
  have fileQ' : (written.erase (p.location here)).get? (q.location here) ≠ some .directory := by
    by_cases same : q.location here = p.location here
    · simp [same, get?_erase_self namesP.notRoot]
    · rwa [get?_erase_ne same]
  have kept := keptErase.trans (keepsDirectories_insert (e := .file content mode) fileQ')
  exact read_ok_iff.mpr ⟨_, _, (namesQ.mono kept).locate (get?_insert_self _ _ namesQ.notRoot), rfl⟩

/-- Whether nothing changed at a location, but for a directory that is new. -/
def GrowsAt (t t' : FileTree) (l : Location) : Prop :=
  t'.get? l = t.get? l ∨ t.get? l = none ∧ t'.get? l = some .directory

theorem GrowsAt.trans {t'' : FileTree} (first : GrowsAt t t' l) (second : GrowsAt t' t'' l) :
    GrowsAt t t'' l := by
  rcases first with same | ⟨free, made⟩
  · rw [GrowsAt, ← same]
    exact second
  · rcases second with same | ⟨free', -⟩
    · exact .inr ⟨free, same.trans made⟩
    · simp [made] at free'

theorem GrowsAt.file (h : GrowsAt t t' l) (file : t.get? l = some e) : t'.get? l = some e := by
  rcases h with same | ⟨free, -⟩
  · exact same.trans file
  · simp [file] at free

theorem GrowsAt.file_iff (h : GrowsAt t t' l) {mode : Mode} :
    t'.get? l = some (.file content mode) ↔ t.get? l = some (.file content mode) := by
  refine ⟨fun now => ?_, h.file⟩
  rcases h with same | ⟨-, made⟩
  · exact same.symm.trans now
  · simp [made] at now

/-- A file that is read is read again where directories and the file itself are kept. -/
theorem read_mono (kept : KeepsDirectories t t') (grows : GrowsAt t t' (p.location here))
    (readable : t.read here p = .ok content) : t'.read here p = .ok content := by
  obtain ⟨l, e, located, isContent⟩ := read_ok_iff.mp readable
  have found := locate_get? located
  rw [locate_location located] at found
  refine read_ok_iff.mpr ⟨l, e, locate_mono kept located ?_, isContent⟩
  rw [locate_location located]
  exact grows.file found

/-- Whether a tree differs from another by new directories alone. -/
def Grows (t t' : FileTree) : Prop := ∀ l, GrowsAt t t' l

theorem Grows.refl (t : FileTree) : Grows t t := fun _ => .inl rfl

theorem Grows.trans {t'' : FileTree} (first : Grows t t') (second : Grows t' t'') :
    Grows t t'' := fun l => (first l).trans (second l)

theorem Grows.keepsDirectories (h : Grows t t') : KeepsDirectories t t' := by
  intro l directory
  rcases h l with same | ⟨free, -⟩
  · rw [same, directory]
  · simp [directory] at free

theorem makeDir_grows (made : t.makeDir here p = .ok t') : Grows t t' := by
  unfold makeDir at made
  cases walked : t.walk here p with
  | error cause => simp [walked, bind, Except.bind] at made
  | ok ends =>
    obtain ⟨dir, last⟩ := ends
    simp only [walked, bind, Except.bind] at made
    rcases last with _ | _ | ⟨name, slashed⟩
    · cases made
    · cases made
    · cases found : t.get? (dir ++ [name]) with
      | some e => simp [found] at made
      | none =>
        simp only [found] at made
        cases made
        intro l
        by_cases here : l = dir ++ [name]
        · subst here
          exact .inr ⟨found, get?_insert_self t _ (by simp)⟩
        · exact .inl (get?_insert_ne here)

theorem makeLast_grows (t : FileTree) (here : Location) (p : Path) : Grows t (t.makeLast here p).1 := by
  unfold makeLast
  split
  · rename_i made
    exact makeDir_grows made
  · split <;> exact Grows.refl t

theorem makeDirsFrom_grows (depth : Nat) (t : FileTree) (here : Location) (p : Path) :
    Grows t (makeDirsFrom depth t here p).1 := by
  induction depth generalizing p with
  | zero => exact Grows.refl t
  | succ depth ih =>
    rw [makeDirsFrom]
    split
    · exact Grows.refl t
    · split
      · rename_i above _ _
        have parents := ih above
        split
        · rename_i made
          rw [made] at parents
          exact parents.trans (makeLast_grows _ here p)
        · exact parents
      · exact makeLast_grows t here p

/-- Making directories makes directories only. -/
theorem makeDirs_grows (t : FileTree) (here : Location) (p : Path) : Grows t (t.makeDirs here p).1 :=
  makeDirsFrom_grows _ t here p

end FileTree
end SimWorkbench
