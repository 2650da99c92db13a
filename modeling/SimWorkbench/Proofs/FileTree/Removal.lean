import SimWorkbench.Proofs.FileTree.Clearing
import SimWorkbench.Proofs.FileTree.Parent
import SimWorkbench.Proofs.Path.Absolute

/-!
# Directories of one's own

A path that leads to a directory goes on leading there whatever happens to files that it does not
come by. So a name that was free in the directory, and what is put below it, can be removed again,
and the removal reaches nothing else.
-/
namespace SimWorkbench

namespace Path

/-- Whether a walk along a path comes nowhere to a location or below it. -/
def Avoids (here : Location) (p : Path) (l : Location) : Prop :=
  ∀ first, first <+: p.names → ¬ l <+: first.foldl Location.enter (p.start here)

end Path

namespace FileTree

variable {t t' : FileTree} {here l m : Location} {p : Path} {name : String} {e : Entry}

/-! ### Where a path leads -/

/-- Whether a path leads to a directory. -/
structure Leads (t : FileTree) (here : Location) (p : Path) : Prop where
  start : t.get? (p.start here) = some .directory
  walked : p.names.foldlM t.enter (p.start here) = .ok (p.location here)

/-- A walk from the root ends below directories. -/
theorem directories_of_root {names : List String} (walked : names.foldlM t.enter [] = .ok l) :
    ∀ m, m <+: l → t.get? m = some .directory :=
  directories_of_walk (fun m isAbove => by rw [List.prefix_nil.mp isAbove]; rfl) walked

theorem leads_of_walked (start : t.get? (p.start here) = some .directory)
    (walked : p.names.foldlM t.enter (p.start here) = .ok l) : t.Leads here p := by
  have isLocation : l = p.location here := foldlM_enter_ok walked
  exact ⟨start, isLocation ▸ walked⟩

theorem Leads.mono (leads : t.Leads here p) (kept : KeepsDirectories t t') : t'.Leads here p :=
  ⟨kept _ leads.start, foldlM_enter_mono kept leads.walked⟩

/-- A walk to a name below a path goes through what the path leads to. -/
theorem walk_child_iff {dir : Location} {last : Last} (isName : Path.IsName name) :
    t.walk here (p.child name) = .ok (dir, last) ↔
      Acceptable (p.child name) ∧ name.utf8ByteSize ≤ 255 ∧ t.Leads here p ∧
        dir = p.location here ∧ last = .name name false := by
  have names := Path.names_child (p := p) isName
  have starts : (p.child name).start here = p.start here := Path.start_child isName
  have noSlash : ((p.child name).text.toList.getLast? == some '/') = false :=
    beq_eq_false_iff_ne.mpr (Path.open_child isName).2
  have ending : Last.ofSegment name false = .name name false := by
    rw [Last.ofSegment, if_neg isName.2.1, if_neg isName.2.2.1]
  rw [walk_ok_iff, starts, noSlash]
  constructor
  · rintro ⟨accepted, start, ⟨none, -⟩ | ⟨before, final, names', entered, fits, rfl⟩⟩
    · simp [names] at none
    · obtain ⟨rfl, same⟩ := List.append_inj' (names.symm.trans names') rfl
      cases same
      exact ⟨accepted, (fits.resolve_left isName.2.1).resolve_left isName.2.2.1,
        leads_of_walked start entered, foldlM_enter_ok entered, ending⟩
  · rintro ⟨accepted, fits, leads, rfl, rfl⟩
    exact ⟨accepted, leads.start,
      .inr ⟨_, _, names, leads.walked, .inr (.inr fits), ending.symm⟩⟩

/-- What is named below a path is found if the path leads to a directory. -/
theorem locate_child_iff (isName : Path.IsName name) :
    t.locate here (p.child name) = .ok (l, e) ↔
      Acceptable (p.child name) ∧ name.utf8ByteSize ≤ 255 ∧ t.Leads here p ∧
        l = p.location here ++ [name] ∧ t.get? l = some e := by
  constructor
  · intro located
    obtain ⟨dir, last, walked, rfl, found, -⟩ := locate_ok_iff.mp located
    obtain ⟨accepted, fits, leads, rfl, rfl⟩ := (walk_child_iff isName).mp walked
    exact ⟨accepted, fits, leads, rfl, found⟩
  · rintro ⟨accepted, fits, leads, rfl, found⟩
    exact locate_ok_iff.mpr ⟨_, _, (walk_child_iff isName).mpr ⟨accepted, fits, leads, rfl, rfl⟩,
      rfl, found, by simp⟩

theorem leads_child_iff (isName : Path.IsName name) :
    t.Leads here (p.child name) ↔ t.Leads here p ∧ name.utf8ByteSize ≤ 255 ∧
      t.get? (p.location here ++ [name]) = some .directory := by
  have names := Path.names_child (p := p) isName
  have starts : (p.child name).start here = p.start here := Path.start_child isName
  have enters : ∀ dir, t.enter dir name = .ok (dir ++ [name]) ↔
      name.utf8ByteSize ≤ 255 ∧ t.get? (dir ++ [name]) = some .directory := by
    intro dir
    rw [enter, if_neg isName.2.1, if_neg isName.2.2.1]
    split
    · simp only [reduceCtorEq, false_iff, not_and]
      omega
    · cases t.get? (dir ++ [name]) with
      | none => simp
      | some e => cases e <;> simp; omega
  constructor
  · rintro ⟨start, walked⟩
    rw [starts] at start walked
    rw [names, Path.location_child isName] at walked
    obtain ⟨dir, entered, next⟩ := foldlM_enter_concat walked
    have leads := leads_of_walked start entered
    have isDir : dir = p.location here := foldlM_enter_ok entered
    exact ⟨leads, (enters _).mp (isDir ▸ next)⟩
  · rintro ⟨leads, there⟩
    refine ⟨starts ▸ leads.start, ?_⟩
    rw [starts, names, Path.location_child isName, List.foldlM_append, leads.walked]
    simp only [bind, Except.bind, List.foldlM_cons, List.foldlM_nil, (enters _).mpr there, pure,
      Except.pure]

/-- A directory that is made below a path is new, and the path leads to a directory. -/
theorem makeDir_child (isName : Path.IsName name) (made : t.makeDir here (p.child name) = .ok t') :
    Acceptable (p.child name) ∧ name.utf8ByteSize ≤ 255 ∧ t.Leads here p ∧
      t.get? (p.location here ++ [name]) = none ∧
        t' = t.insert (p.location here ++ [name]) .directory := by
  unfold makeDir at made
  cases walked : t.walk here (p.child name) with
  | error cause => simp [walked, bind, Except.bind] at made
  | ok ends =>
    obtain ⟨dir, last⟩ := ends
    obtain ⟨accepted, fits, leads, rfl, rfl⟩ := (walk_child_iff isName).mp walked
    simp only [walked, bind, Except.bind] at made
    cases found : t.get? (p.location here ++ [name]) with
    | some e => simp [found] at made
    | none =>
      simp only [found] at made
      cases made
      exact ⟨accepted, fits, leads, rfl, rfl⟩

/-- A file that is copied below a path is there then, and replaces no directory. -/
theorem copy_child {q : Path} {found : Location} (isName : Path.IsName name)
    (located : t.locate here q = .ok (found, e)) (copied : t.copy here q (p.child name) = .ok t') :
    Acceptable (p.child name) ∧ name.utf8ByteSize ≤ 255 ∧ t.Leads here p ∧
      t.get? (p.location here ++ [name]) ≠ some .directory ∧
        t' = t.insert (p.location here ++ [name]) e := by
  unfold copy writeTarget at copied
  cases walked : t.walk here (p.child name) with
  | error cause => cases e <;> simp [located, walked, bind, Except.bind] at copied
  | ok ends =>
    obtain ⟨dir, last⟩ := ends
    obtain ⟨accepted, fits, leads, rfl, rfl⟩ := (walk_child_iff isName).mp walked
    refine ⟨accepted, fits, leads, ?_⟩
    cases there : t.get? (p.location here ++ [name]) with
    | none => cases e <;> simp_all [bind, Except.bind]
    | some old => cases old <;> cases e <;> simp_all [bind, Except.bind]

/-! ### What a walk does not come by -/

/-- A walk that gets through comes by directories only. -/
theorem Leads.avoids (leads : t.Leads here p) (absolute : p.isAbsolute = true)
    (free : t.get? l ≠ some .directory) : p.Avoids here l := by
  intro first isPrefix below
  obtain ⟨rest, names⟩ := isPrefix
  have walked := leads.walked
  rw [Path.start, if_pos absolute] at walked below
  rw [← names, List.foldlM_append] at walked
  cases entered : first.foldlM t.enter [] with
  | error cause => simp [entered, bind, Except.bind] at walked
  | ok dir =>
    rw [← foldlM_enter_ok entered] at below
    exact free (directories_of_root entered l below)

theorem enter_congr {dir : Location} {segment : String}
    (same : t'.get? (Location.enter dir segment) = t.get? (Location.enter dir segment)) :
    t'.enter dir segment = t.enter dir segment := by
  unfold Location.enter at same
  unfold enter
  by_cases single : segment = "."
  · rw [if_pos single, if_pos single]
  by_cases double : segment = ".."
  · rw [if_neg single, if_neg single, if_pos double, if_pos double]
  rw [if_neg single, if_neg double] at same
  rw [same]

/-- A path leads where it led as long as nothing changes but what it does not come by. -/
theorem Leads.of_avoids (leads : t.Leads here p) (avoids : p.Avoids here l)
    (same : ∀ m, ¬ l <+: m → t'.get? m = t.get? m) : t'.Leads here p := by
  have walked : ∀ first, first <+: p.names → ∀ dir, first.foldlM t.enter (p.start here) = .ok dir →
      first.foldlM t'.enter (p.start here) = .ok dir := by
    intro first
    induction first using List.reverseRecOn with
    | nil => exact fun _ _ => id
    | append_singleton first segment ih =>
      intro isPrefix dir entered
      obtain ⟨above, before, next⟩ := foldlM_enter_concat entered
      have earlier := ih ((List.prefix_append _ _).trans isPrefix) above before
      rw [List.foldlM_append, earlier]
      simp only [bind, Except.bind, List.foldlM_cons, List.foldlM_nil, pure, Except.pure]
      have isOutside := avoids _ isPrefix
      rw [← foldlM_enter_ok entered, enter_ok next] at isOutside
      rw [enter_congr (same _ isOutside), next]
  exact ⟨(same _ (avoids [] (List.nil_prefix))).trans leads.start,
    walked _ (List.prefix_refl _) _ leads.walked⟩

/-! ### The way that is made -/

theorem foldl_enter_steps (names : List String) (dir : Location) :
    (names.filter (· ≠ ".")).foldl Location.enter dir = names.foldl Location.enter dir := by
  induction names generalizing dir with
  | nil => rfl
  | cons name names ih =>
    by_cases single : name = "."
    · subst single
      exact ih dir
    · rw [List.filter_cons_of_pos (by simpa using single), List.foldl_cons, List.foldl_cons, ih]

theorem avoids_iff_steps : p.Avoids here l ↔
    ∀ first, first <+: p.steps → ¬ l <+: first.foldl Location.enter (p.start here) := by
  constructor
  · intro avoids first isPrefix
    obtain ⟨names, isFirst, rfl⟩ := List.prefix_filter_iff.mp isPrefix
    rw [foldl_enter_steps]
    exact avoids names isFirst
  · intro avoids first isPrefix
    rw [← foldl_enter_steps]
    exact avoids _ (isPrefix.filter _)

theorem makeLast_frame (t : FileTree) (other : m ≠ p.location here) :
    (t.makeLast here p).1.get? m = t.get? m := by
  unfold makeLast
  split
  · rename_i made
    unfold makeDir at made
    cases walked : t.walk here p with
    | error cause => simp [walked, bind, Except.bind] at made
    | ok ends =>
      obtain ⟨dir, last⟩ := ends
      have isLocation := walk_location walked
      simp only [walked, bind, Except.bind] at made
      rcases last with _ | _ | ⟨name, slashed⟩
      · cases made
      · cases made
      · cases found : t.get? (dir ++ [name]) with
        | some e => simp [found] at made
        | none =>
          simp only [found] at made
          cases made
          have isThere : dir ++ [name] = p.location here := isLocation
          exact get?_insert_ne (isThere ▸ other)
  · split <;> rfl

/-- Making directories changes nothing that the path does not come by. -/
theorem makeDirs_frame (t : FileTree) (avoids : p.Avoids here m) :
    (t.makeDirs here p).1.get? m = t.get? m := by
  suffices frame : ∀ depth (q : Path), q.start here = p.start here → q.steps <+: p.steps →
      (makeDirsFrom depth t here q).1.get? m = t.get? m from
    frame _ p rfl (List.prefix_refl _)
  rw [avoids_iff_steps] at avoids
  intro depth
  induction depth with
  | zero => exact fun _ _ _ => rfl
  | succ depth ih =>
    intro q start steps
    have other : m ≠ q.location here := by
      rw [location_eq_steps, start]
      rintro rfl
      exact avoids _ steps (List.prefix_refl _)
    rw [makeDirsFrom]
    split
    · rfl
    · rename_i notEmpty
      split
      · rename_i above _ isParent
        have parents : (makeDirsFrom depth t here above).1.get? m = t.get? m := by
          rcases Path.parent?_above isParent with empty | isAbove
          · cases depth with
            | zero => rfl
            | succ depth => simp [makeDirsFrom, empty]
          · by_cases empty : above.text.isEmpty = true
            · cases depth with
              | zero => rfl
              | succ depth => simp [makeDirsFrom, empty]
            · refine ih above ?_ ?_
              · rw [← start, Path.start, Path.start,
                  Path.isAbsolute_of_beginning isAbove.text (by simpa using empty)]
              · rw [isAbove.steps]
                exact (List.dropLast_prefix _).trans steps
        split
        · rename_i made
          rw [made] at parents
          exact (makeLast_frame _ other).trans parents
        · exact parents
      · exact makeLast_frame t other

/-! ### Removal -/

theorem lookup_filter (entries : List (Location × Entry)) (keeps : Location → Bool) (l : Location) :
    (entries.filter fun x => keeps x.1).lookup l = if keeps l then entries.lookup l else none := by
  induction entries with
  | nil => simp
  | cons x rest ih =>
    obtain ⟨k, e⟩ := x
    by_cases same : l = k
    · subst same
      cases kept : keeps l
      · rw [List.filter_cons_of_neg (by simp [kept]), ih, kept]
        rfl
      · rw [List.filter_cons_of_pos (by simp [kept])]
        simp
    · have other : (l == k) = false := beq_eq_false_iff_ne.mpr same
      cases kept : keeps k
      · rw [List.filter_cons_of_neg (by simp [kept]), ih, List.lookup_cons, other]
      · rw [List.filter_cons_of_pos (by simp [kept]), List.lookup_cons, List.lookup_cons, other]
        exact ih

theorem get?_emptied (t : FileTree) (l : Location) (notRoot : m ≠ []) :
    (t.emptied l).get? m = if l <+: m ∧ l ≠ m then none else t.get? m := by
  have empty : m.isEmpty = false := by simpa using notRoot
  simp only [get?, emptied, empty, Bool.false_eq_true, if_false]
  rw [lookup_filter t.entries fun k => !(l.isPrefixOf k && l != k)]
  by_cases below : l <+: m ∧ l ≠ m
  · simp [below]
  · rw [if_neg below, if_pos]
    simpa [-not_and, Classical.not_and_iff_not_or_not, ← Bool.not_eq_true] using below

theorem get?_eraseAll (t : FileTree) {l : Location} (apart : ¬ l <+: m) :
    (t.eraseAll l).get? m = t.get? m := by
  simp only [get?, eraseAll]
  rw [lookup_filter t.entries fun k => !l.isPrefixOf k,
    if_pos (show (!l.isPrefixOf m) = true by simpa [← Bool.not_eq_true] using apart)]

/-- A directory whose path comes by nothing below it is removed with all that is below it, and
nothing else is. -/
theorem removeTree_child (isName : Path.IsName name)
    (located : t.locate here (p.child name) = .ok (p.location here ++ [name], .directory))
    (avoids : p.Avoids here (p.location here ++ [name])) :
    ∃ t', t.removeTree here (p.child name) = (t', none) ∧
      ∀ m, t'.get? m = if p.location here ++ [name] <+: m then none else t.get? m := by
  obtain ⟨accepted, fits, leads, -, found⟩ := (locate_child_iff isName).mp located
  generalize isDirectory : p.location here ++ [name] = l at located avoids found
  have notRoot : l ≠ [] := by simp [← isDirectory]
  have outside : ∀ m, ¬ l <+: m → (t.emptied l).get? m = t.get? m := fun m outside => by
    by_cases isRoot : m = []
    · subst isRoot
      rfl
    · rw [get?_emptied t l isRoot, if_neg fun below => outside below.1]
  have walked : (t.emptied l).walk here (p.child name) = .ok (p.location here, .name name false) :=
    (walk_child_iff isName).mpr ⟨accepted, fits, leads.of_avoids avoids outside, rfl, rfl⟩
  refine ⟨(t.emptied l).erase l, ?_, fun m => ?_⟩
  · simp [removeTree, located, Entry.isDirectory, walked]
  · by_cases isRoot : m = []
    · subst isRoot
      rw [if_neg (by simpa using notRoot)]
      rfl
    by_cases isItself : m = l
    · subst isItself
      rw [get?_erase_self notRoot, if_pos (List.prefix_refl _)]
    · rw [get?_erase_ne isItself, get?_emptied t l isRoot]
      simp [Ne.symm isItself]

end FileTree
end SimWorkbench
