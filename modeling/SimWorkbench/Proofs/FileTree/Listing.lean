import SimWorkbench.Build.Collection
import SimWorkbench.Proofs.FileTree.Removal
import SimWorkbench.Proofs.Path.Below

/-!
# Files that are listed and removed

The files at a path or below it are listed by paths that lead to them, each once. Removing some of
them leaves a tree that lacks their locations alone, in which the others are listed as before. A
removal that is refused ends the work, and is refused again in the tree that is left.
-/
namespace SimWorkbench

namespace Path

variable {p : Path} {names : List String} {here : Location}

theorem relative_intercalate (isNames : ∀ name ∈ names, IsName name) (nonempty : names ≠ []) :
    (Path.mk ("/".intercalate names)).isAbsolute = false := by
  obtain ⟨first, rest, rfl⟩ := List.exists_cons_of_ne_nil nonempty
  have isName := isNames first List.mem_cons_self
  obtain ⟨c, letters, isFirst⟩ := List.exists_cons_of_ne_nil
    (show first.toList ≠ [] by simpa using isName.1)
  have head : ("/".intercalate (first :: rest)).toList.head? = some c := by
    cases rest with
    | nil => simp [isFirst]
    | cons second rest => simp [String.intercalate_cons_cons, isFirst]
  have noSlash : c ≠ '/' := by
    rintro rfl
    exact isName.2.2.2 (isFirst ▸ List.mem_cons_self)
  rw [isAbsolute, head]
  simpa using noSlash

/-- A path of several names below another leads from name to name. -/
theorem child_intercalate (isNames : ∀ name ∈ names, IsName name) (nonempty : names ≠ []) :
    p.child ("/".intercalate names) = names.foldl child p := by
  induction names generalizing p with
  | nil => exact absurd rfl nonempty
  | cons first rest ih =>
    obtain ⟨isFirst, isRest⟩ := List.forall_mem_cons.mp isNames
    cases rest with
    | nil => simp
    | cons second rest =>
      obtain ⟨-, relative⟩ := names_of_noSlash isFirst.2.2.2 isFirst.1
      have notEmpty : first.toList ≠ [] := by simpa using isFirst.1
      have more := relative_intercalate isRest (by simp)
      have text := text_join more (open_child (p := p) isFirst)
      rw [String.append_assoc] at text
      rw [List.foldl_cons, ← ih isRest (by simp), String.intercalate_cons_cons]
      calc p.child (first ++ "/" ++ "/".intercalate (second :: rest))
          = p.join ⟨first ++ ("/" ++ "/".intercalate (second :: rest))⟩ := by
            rw [child, String.append_assoc]
        _ = ⟨(p.child first).text ++ ("/" ++ "/".intercalate (second :: rest))⟩ :=
            (append_join relative notEmpty _).symm
        _ = (p.child first).child ("/".intercalate (second :: rest)) := (congrArg Path.mk text).symm

theorem location_foldl_child (isNames : ∀ name ∈ names, IsName name) :
    (names.foldl child p).location here = p.location here ++ names := by
  induction names generalizing p with
  | nil => simp
  | cons first rest ih =>
    obtain ⟨isFirst, isRest⟩ := List.forall_mem_cons.mp isNames
    rw [List.foldl_cons, ih isRest, location_child isFirst, List.append_assoc]
    rfl

end Path

namespace FileTree

variable {t : FileTree} {here l m : Location} {p q : Path} {e : Entry} {gone : List Location}

/-- Whether a tree holds every location once, under names that can stand in a path. -/
structure Tidy (t : FileTree) : Prop where
  once : (t.entries.map Prod.fst).Nodup
  proper : ∀ x ∈ t.entries, ∀ name ∈ x.1, Path.IsName name

/-- The tree without some locations. -/
def lacking (t : FileTree) (gone : List Location) : FileTree :=
  ⟨t.entries.filter fun x => !gone.contains x.1⟩

/-- The locations of the files below a location. -/
def filesBelow (t : FileTree) (l : Location) : List Location :=
  (t.entries.filter fun x => (l.isPrefixOf x.1 && l != x.1) && x.2.isFile).map Prod.fst

/-! ### What is left -/

theorem get?_lacking (notRoot : m ≠ []) :
    (t.lacking gone).get? m = if m ∈ gone then none else t.get? m := by
  have empty : m.isEmpty = false := by simpa using notRoot
  simp only [get?, lacking, empty, Bool.false_eq_true, if_false]
  rw [lookup_filter t.entries fun k => !gone.contains k]
  by_cases member : m ∈ gone <;> simp [member]

theorem lacking_nil (t : FileTree) : t.lacking [] = t := by
  simp [lacking]

theorem erase_lacking (t : FileTree) (l : Location) :
    (t.erase l).lacking gone = t.lacking (l :: gone) := by
  simp only [lacking, erase, List.filter_filter, mk.injEq]
  refine List.filter_congr fun x _ => ?_
  by_cases same : x.1 = l <;> simp [same]

/-- What is there in the tree that is left was there before. -/
theorem get?_of_lacking (found : (t.lacking gone).get? m = some e) : t.get? m = some e := by
  by_cases root : m = []
  · subst root
    exact found
  · rw [get?_lacking root] at found
    split at found
    · cases found
    · exact found

/-- Where files alone are gone, the directories are kept. -/
theorem keepsDirectories_lacking (files : ∀ l ∈ gone, t.get? l ≠ some .directory) :
    KeepsDirectories t (t.lacking gone) := by
  intro l directory
  by_cases root : l = []
  · subst root
    exact directory
  · rwa [get?_lacking root, if_neg fun member => files l member directory]

theorem locate_lacking (files : ∀ l ∈ gone, t.get? l ≠ some .directory) :
    (t.lacking gone).locate here p = .ok (l, e) ↔ t.locate here p = .ok (l, e) ∧ l ∉ gone := by
  constructor
  · intro located
    have found := locate_get? located
    have before : t.locate here p = .ok (l, e) :=
      locate_mono (fun m => get?_of_lacking) located (get?_of_lacking found)
    refine ⟨before, fun member => ?_⟩
    by_cases root : l = []
    · subst root
      exact files _ member rfl
    · simp [get?_lacking root, member] at found
  · rintro ⟨located, kept⟩
    refine locate_mono (keepsDirectories_lacking files) located ?_
    have found := locate_get? located
    by_cases root : l = []
    · subst root
      exact found
    · rwa [get?_lacking root, if_neg kept]

/-- What is not gone is read as before. -/
theorem read_lacking (files : ∀ l ∈ gone, t.get? l ≠ some .directory)
    (kept : p.location here ∉ gone) :
    ((t.lacking gone).read here p).toOption = (t.read here p).toOption := by
  have same : ∀ content, (t.lacking gone).read here p = .ok content ↔ t.read here p = .ok content := by
    intro content
    simp only [read_ok_iff, locate_lacking files]
    constructor
    · rintro ⟨l, e, ⟨located, -⟩, isContent⟩
      exact ⟨l, e, located, isContent⟩
    · rintro ⟨l, e, located, isContent⟩
      exact ⟨l, e, ⟨located, locate_location located ▸ kept⟩, isContent⟩
  ext content
  cases now : (t.lacking gone).read here p <;> cases before : t.read here p <;>
    simp_all [Except.toOption]

/-! ### What is listed -/

theorem Tidy.get?_of_mem (tidy : t.Tidy) {x : Location × Entry} (member : x ∈ t.entries)
    (notRoot : x.1 ≠ []) : t.get? x.1 = some x.2 := by
  rw [get?, if_neg (by simpa using notRoot)]
  obtain ⟨before, after, split⟩ := List.append_of_mem member
  refine List.lookup_eq_some_iff.mpr ⟨before, after, split, fun y isBefore => ?_⟩
  have once := tidy.once
  rw [split, List.map_append, List.nodup_append] at once
  have other := once.2.2 y.1 (List.mem_map_of_mem isBefore) x.1 (by simp)
  simpa using Ne.symm other

theorem mem_filesBelow (tidy : t.Tidy) (member : m ∈ t.filesBelow l) :
    ∃ names e, names ≠ [] ∧ (∀ name ∈ names, Path.IsName name) ∧ m = l ++ names ∧
      t.get? m = some e ∧ e.isFile = true := by
  obtain ⟨⟨m, e⟩, inTree, rfl⟩ := List.mem_map.mp member
  simp only [List.mem_filter, Bool.and_eq_true, List.isPrefixOf_iff_prefix, bne_iff_ne] at inTree
  obtain ⟨inTree, ⟨⟨names, rfl⟩, other⟩, isFile⟩ := inTree
  have nonempty : names ≠ [] := by
    rintro rfl
    simp at other
  exact ⟨names, e, nonempty,
    fun name isName => tidy.proper _ inTree name (List.mem_append_right _ isName), rfl,
    tidy.get?_of_mem inTree (by simp [nonempty]), isFile⟩

theorem Tidy.nodup_filesBelow (tidy : t.Tidy) (l : Location) : (t.filesBelow l).Nodup :=
  tidy.once.sublist (List.filter_sublist.map Prod.fst)

theorem filesBelow_lacking (t : FileTree) (l : Location) :
    (t.lacking gone).filesBelow l = (t.filesBelow l).filter fun m => !gone.contains m := by
  simp only [filesBelow, lacking, List.filter_map, List.filter_filter, Function.comp_def]
  exact congrArg _ (List.filter_congr fun x _ => Bool.and_comm _ _)

/-- The path that leads on to a location below the one it leads to. -/
def pathBelow (p : Path) (l m : Location) : Path := (m.drop l.length).foldl Path.child p

theorem location_pathBelow (tidy : t.Tidy) (member : m ∈ t.filesBelow (p.location here)) :
    (pathBelow p (p.location here) m).location here = m := by
  obtain ⟨names, e, -, isNames, rfl, -⟩ := mem_filesBelow tidy member
  rw [pathBelow, List.drop_left, Path.location_foldl_child isNames]

theorem filesFrom_of_missing (missing : t.exists? here p = false) : t.filesFrom here p = [] := by
  cases located : t.locate here p with
  | error cause => simp only [filesFrom, located]
  | ok found => simp [exists?, entryAt?, located, Except.toOption] at missing

theorem filesFrom_of_file (located : t.locate here p = .ok (l, e)) (isFile : e.isFile = true) :
    t.filesFrom here p = [p] := by
  simp only [filesFrom, located, isFile, if_true]

theorem below_eq (t : FileTree) (l : Location) :
    t.below l = (t.entries.filter fun x => l.isPrefixOf x.1 && l != x.1).map
      fun x => (x.1.drop l.length, x.2) := by
  unfold below
  induction t.entries with
  | nil => rfl
  | cons x rest ih =>
    rw [List.filterMap_cons, List.filter_cons, ih]
    by_cases isBelow : (l.isPrefixOf x.1 && l != x.1) = true
    · rw [if_pos isBelow, if_pos isBelow]
      rfl
    · rw [if_neg isBelow, if_neg isBelow]

theorem filesFrom_of_other (tidy : t.Tidy) (located : t.locate here p = .ok (l, e))
    (other : e.isFile = false) :
    t.filesFrom here p = (t.filesBelow l).map (pathBelow p l) := by
  simp only [filesFrom, located, other, Bool.false_eq_true, if_false]
  rw [below_eq, List.filter_map, List.filter_filter, filesBelow, List.map_map, List.map_map]
  refine (congrArg _ (List.filter_congr fun x _ => Bool.and_comm _ _)).trans
    (List.map_congr_left fun x member => ?_)
  have listed : x.1 ∈ t.filesBelow l := List.mem_map_of_mem member
  obtain ⟨names, -, nonempty, isNames, isBelow, -⟩ := mem_filesBelow tidy listed
  simp only [Function.comp_apply, pathBelow, isBelow, List.drop_left]
  exact Path.child_intercalate isNames nonempty

/-- What is listed leads to a file at the path or below it. -/
theorem mem_filesFrom (tidy : t.Tidy) (listed : q ∈ t.filesFrom here p) :
    ∃ names e, q = names.foldl Path.child p ∧ q.location here = p.location here ++ names ∧
      (∀ name ∈ names, Path.IsName name) ∧ t.get? (q.location here) = some e ∧ e.isFile = true := by
  cases located : t.locate here p with
  | error cause => simp [filesFrom, located] at listed
  | ok found =>
    obtain ⟨l, e⟩ := found
    obtain rfl := locate_location located
    cases isFile : e.isFile with
    | true =>
      rw [filesFrom_of_file located isFile, List.mem_singleton] at listed
      subst listed
      exact ⟨[], e, rfl, by simp, by simp, locate_get? located, isFile⟩
    | false =>
      rw [filesFrom_of_other tidy located isFile] at listed
      obtain ⟨m, member, rfl⟩ := List.mem_map.mp listed
      obtain ⟨names, e, -, isNames, isBelow, found, isFile⟩ := mem_filesBelow tidy member
      refine ⟨names, e, ?_, ?_, isNames, ?_, isFile⟩
      · rw [pathBelow, isBelow, List.drop_left]
      · rw [location_pathBelow tidy member, isBelow]
      · rwa [location_pathBelow tidy member]

/-- No file is listed twice. -/
theorem nodup_filesFrom (tidy : t.Tidy) (here : Location) (p : Path) :
    ((t.filesFrom here p).map (Path.location here)).Nodup := by
  cases located : t.locate here p with
  | error cause => simp [filesFrom, located]
  | ok found =>
    obtain ⟨l, e⟩ := found
    obtain rfl := locate_location located
    cases isFile : e.isFile with
    | true => simp [filesFrom_of_file located isFile]
    | false =>
      rw [filesFrom_of_other tidy located isFile, List.map_map]
      refine tidy.nodup_filesBelow (p.location here) |>.map_on ?_
      intro m member m' member' same
      rw [Function.comp_apply, Function.comp_apply] at same
      rwa [location_pathBelow tidy member, location_pathBelow tidy member'] at same

theorem Tidy.lacking (tidy : t.Tidy) (gone : List Location) : (t.lacking gone).Tidy where
  once := tidy.once.sublist (List.filter_sublist.map Prod.fst)
  proper x member := tidy.proper x (List.mem_of_mem_filter member)

/-- What is left is listed as before. -/
theorem filesFrom_lacking (tidy : t.Tidy)
    (files : ∀ l ∈ gone, ∃ e, t.get? l = some e ∧ e.isFile = true) :
    (t.lacking gone).filesFrom here p =
      (t.filesFrom here p).filter fun q => !gone.contains (q.location here) := by
  have notDirectories : ∀ l ∈ gone, t.get? l ≠ some .directory := by
    intro l member directory
    obtain ⟨e, found, isFile⟩ := files l member
    cases found.symm.trans directory
    cases isFile
  cases located : t.locate here p with
  | error cause =>
    have missing : t.filesFrom here p = [] := by simp only [filesFrom, located]
    rw [missing, List.filter_nil]
    cases now : (t.lacking gone).locate here p with
    | error cause => simp only [filesFrom, now]
    | ok found =>
      cases located.symm.trans ((locate_lacking notDirectories).mp now).1
  | ok found =>
    obtain ⟨l, e⟩ := found
    obtain rfl := locate_location located
    by_cases member : p.location here ∈ gone
    · obtain ⟨e', found, isFile⟩ := files _ member
      cases (locate_get? located).symm.trans found
      have missing : (t.lacking gone).filesFrom here p = [] := by
        cases now : (t.lacking gone).locate here p with
        | error cause => simp only [filesFrom, now]
        | ok found =>
          obtain ⟨l, e⟩ := found
          have kept := ((locate_lacking notDirectories).mp now).2
          exact absurd (locate_location now ▸ member) kept
      rw [missing, filesFrom_of_file located isFile]
      simp [member]
    · have now : (t.lacking gone).locate here p = .ok (p.location here, e) :=
        (locate_lacking notDirectories).mpr ⟨located, member⟩
      cases isFile : e.isFile with
      | true =>
        rw [filesFrom_of_file located isFile, filesFrom_of_file now isFile]
        simp [member]
      | false =>
        rw [filesFrom_of_other tidy located isFile, filesFrom_of_other (tidy.lacking gone) now isFile,
          filesBelow_lacking, List.filter_map]
        refine congrArg _ (List.filter_congr fun m inTree => ?_)
        simp only [Function.comp_apply, location_pathBelow tidy inTree]

end FileTree

namespace Collected

variable {t : FileTree} {here : Location}

/-- What is removed is a beginning of the list. The tree that is left lacks it alone, and refuses what
follows in the list, if anything does. -/
theorem remove_spec (t : FileTree) (here : Location) (paths : List Path) :
    ∃ rest, paths = (remove t here paths).removed ++ rest ∧
      (remove t here paths).files =
        t.lacking ((remove t here paths).removed.map (Path.location here)) ∧
      (∀ q ∈ (remove t here paths).removed, q.location here ≠ []) ∧
      ∀ q more, rest = q :: more → ∃ cause,
        (remove t here paths).files.remove here q = .error cause := by
  induction paths generalizing t with
  | nil => exact ⟨[], rfl, t.lacking_nil.symm, by simp [remove], by simp⟩
  | cons p paths ih =>
    cases removed : t.remove here p with
    | error cause =>
      simp only [remove, removed]
      refine ⟨p :: paths, rfl, t.lacking_nil.symm, by simp, fun q more split => ?_⟩
      cases split
      exact ⟨cause, removed⟩
    | ok after =>
      obtain ⟨names, e, found, notDirectory, rfl⟩ := FileTree.remove_ok removed
      obtain ⟨rest, split, left, notRoot, refused⟩ := ih (t.erase (p.location here))
      simp only [remove, removed]
      refine ⟨rest, congrArg (p :: ·) split, ?_, List.forall_mem_cons.mpr ⟨names.notRoot, notRoot⟩,
        refused⟩
      rw [left, FileTree.erase_lacking]
      rfl

/-- Where nothing can be removed, nothing is. -/
theorem remove_of_refused {paths : List Path}
    (refused : ∀ q more, paths = q :: more → ∃ cause, t.remove here q = .error cause) :
    (remove t here paths).removed = [] ∧ (remove t here paths).files = t := by
  cases paths with
  | nil => exact ⟨rfl, rfl⟩
  | cons q more =>
    obtain ⟨cause, isRefused⟩ := refused q more rfl
    simp only [remove, isRefused, and_self]

end Collected
end SimWorkbench
