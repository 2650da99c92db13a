import Mathlib.Tactic
import SimWorkbench.FileTree.Operations

/-!
# Where a path leads

A path is followed through directories only, so where it leads is a matter of its spelling: the tree
decides whether the walk gets there, never where it ends. What a path names is read and changed at
that one location.
-/
namespace SimWorkbench

/-- One segment followed without looking at any file. -/
def Location.enter (dir : Location) (segment : String) : Location :=
  if segment = "." then dir else if segment = ".." then dir.dropLast else dir ++ [segment]

namespace Path

/-- The segments of a path that are not empty. -/
def names (p : Path) : List String := (p.segments.filter (· ≠ [])).map String.ofList

/-- Where a walk along a path starts. -/
def start (here : Location) (p : Path) : Location := if p.isAbsolute then [] else here

/-- Where a path leads, if its walk succeeds. -/
def location (here : Location) (p : Path) : Location := p.names.foldl Location.enter (p.start here)

end Path

namespace FileTree

variable {t t' : FileTree} {here l dir : Location} {p q : Path} {e : Entry}

theorem enter_ok {segment : String} {next : Location} (entered : t.enter dir segment = .ok next) :
    next = Location.enter dir segment := by
  simp only [enter] at entered
  unfold Location.enter
  split at entered
  · rename_i single
    cases entered
    rw [if_pos single]
  · rename_i notSingle
    split at entered
    · rename_i double
      cases entered
      rw [if_neg notSingle, if_pos double]
    · rename_i notDouble
      rw [if_neg notSingle, if_neg notDouble]
      split at entered
      · cases entered
      · split at entered <;> cases entered
        rfl

theorem foldlM_enter_ok {names : List String} {first last : Location}
    (walked : names.foldlM t.enter first = .ok last) : last = names.foldl Location.enter first := by
  induction names generalizing first with
  | nil => cases walked; rfl
  | cons name names ih =>
    rw [List.foldlM_cons] at walked
    cases entered : t.enter first name with
    | error cause => rw [entered] at walked; cases walked
    | ok next =>
      rw [entered] at walked
      rw [List.foldl_cons, ← enter_ok entered]
      exact ih walked

/-- Whether the system accepts a path as it is written. -/
def Acceptable (p : Path) : Prop :=
  p.text.isEmpty = false ∧ p.text.toList.contains '\x00' = false ∧ p.text.utf8ByteSize < 4096

/-- How a walk ends at a segment. -/
def Last.ofSegment (final : String) (slashed : Bool) : Last :=
  if final = "." then .here else if final = ".." then .up else .name final slashed

theorem walk_unacceptable (t : FileTree) (here : Location) (refused : ¬ Acceptable p) :
    ∃ cause, t.walk here p = .error cause := by
  unfold walk
  by_cases empty : p.text.isEmpty = true
  · exact ⟨_, if_pos empty⟩
  rw [if_neg empty]
  by_cases zero : p.text.toList.contains '\x00' = true
  · exact ⟨_, if_pos zero⟩
  rw [if_neg zero]
  by_cases long : 4096 ≤ p.text.utf8ByteSize
  · exact ⟨_, if_pos long⟩
  · refine absurd ⟨?_, ?_, ?_⟩ refused
    · simpa using empty
    · simpa using zero
    · omega

theorem walk_acceptable (accepted : Acceptable p) :
    t.walk here p =
      match t.get? (p.start here), p.names.getLast? with
      | some .directory, none => .ok (p.start here, .here)
      | some .directory, some final => do
        let dir ← p.names.dropLast.foldlM t.enter (p.start here)
        if final = "." then .ok (dir, .here)
        else if final = ".." then .ok (dir, .up)
        else if 255 < final.utf8ByteSize then .error .nameTooLong
        else .ok (dir, .name final (p.text.toList.getLast? == some '/'))
      | _, _ => .error .notFound := by
  obtain ⟨notEmpty, noZero, short⟩ := accepted
  rw [walk, if_neg (by rw [notEmpty]; decide), if_neg (by rw [noZero]; decide),
    if_neg (Nat.not_le.mpr short)]
  rfl

theorem walk_noDirectory (accepted : Acceptable p)
    (missing : t.get? (p.start here) ≠ some .directory) :
    t.walk here p = .error .notFound := by
  rw [walk_acceptable accepted]
  split
  · contradiction
  · contradiction
  · rfl

theorem walk_noNames (accepted : Acceptable p) (directory : t.get? (p.start here) = some .directory)
    (none : p.names = []) : t.walk here p = .ok (p.start here, .here) := by
  rw [walk_acceptable accepted, directory, none, List.getLast?_nil]

theorem walk_names {before : List String} {final : String} (accepted : Acceptable p)
    (directory : t.get? (p.start here) = some .directory) (names : p.names = before ++ [final]) :
    t.walk here p = before.foldlM t.enter (p.start here) >>= fun dir =>
      if final = "." ∨ final = ".." ∨ final.utf8ByteSize ≤ 255 then
        .ok (dir, .ofSegment final (p.text.toList.getLast? == some '/'))
      else .error .nameTooLong := by
  rw [walk_acceptable accepted, directory, names, List.getLast?_concat, List.dropLast_concat]
  refine congrArg (List.foldlM t.enter (p.start here) before >>= ·) (funext fun dir => ?_)
  unfold Last.ofSegment
  by_cases single : final = "."
  · simp [single]
  by_cases double : final = ".."
  · simp [double]
  by_cases long : 255 < final.utf8ByteSize
  · simp [single, double, long]
  · simp [single, double, long, Nat.le_of_not_gt long]

/-- A successful walk goes through directories up to the last segment, and looks at no other
files. -/
theorem walk_ok_iff {last : Last} :
    t.walk here p = .ok (dir, last) ↔
      Acceptable p ∧ t.get? (p.start here) = some .directory ∧
        (p.names = [] ∧ dir = p.start here ∧ last = .here ∨
          ∃ before final, p.names = before ++ [final] ∧
            before.foldlM t.enter (p.start here) = .ok dir ∧
            (final = "." ∨ final = ".." ∨ final.utf8ByteSize ≤ 255) ∧
            last = .ofSegment final (p.text.toList.getLast? == some '/')) := by
  by_cases accepted : Acceptable p
  swap
  · obtain ⟨cause, refused⟩ := walk_unacceptable t here accepted
    simp [refused, accepted]
  by_cases directory : t.get? (p.start here) = some .directory
  swap
  · simp [walk_noDirectory accepted directory, directory]
  rcases List.eq_nil_or_concat p.names with none | ⟨before, final, names⟩
  · rw [walk_noNames accepted directory none]
    constructor
    · rintro ⟨⟩
      exact ⟨accepted, directory, .inl ⟨none, rfl, rfl⟩⟩
    · rintro ⟨-, -, ⟨-, rfl, rfl⟩ | ⟨before, final, names, -⟩⟩
      · rfl
      · simp [none] at names
  rw [List.concat_eq_append] at names
  rw [walk_names accepted directory names]
  constructor
  · intro walked
    cases entered : before.foldlM t.enter (p.start here) with
    | error cause => rw [entered] at walked; cases walked
    | ok there =>
      simp only [entered, bind, Except.bind] at walked
      split at walked <;> cases walked
      rename_i fits
      exact ⟨accepted, directory, .inr ⟨before, final, names, entered, fits, rfl⟩⟩
  · rintro ⟨-, -, ⟨none, -⟩ | ⟨before', final', names', entered, fits, rfl⟩⟩
    · simp [names] at none
    · obtain ⟨rfl, equal⟩ := List.append_inj' (names.symm.trans names') rfl
      cases equal
      simp [entered, fits, bind, Except.bind]

/-- Where a walk leads is told by the spelling of the path. -/
theorem walk_location {last : Last} (walked : t.walk here p = .ok (dir, last)) :
    last.location dir = p.location here := by
  obtain ⟨-, -, ⟨none, rfl, rfl⟩ | ⟨before, final, names, entered, -, rfl⟩⟩ := walk_ok_iff.mp walked
  · simp [Path.location, none, Last.location]
  · rw [Path.location, names, List.foldl_append, ← foldlM_enter_ok entered]
    simp only [List.foldl_cons, List.foldl_nil, Last.ofSegment, Location.enter]
    split
    · rfl
    · split <;> rfl

theorem enter_mono {segment : String} {next : Location}
    (kept : ∀ l, t.get? l = some .directory → t'.get? l = some .directory)
    (entered : t.enter dir segment = .ok next) : t'.enter dir segment = .ok next := by
  simp only [enter] at entered ⊢
  split at entered
  · rename_i single
    rwa [if_pos single]
  · rename_i notSingle
    rw [if_neg notSingle]
    split at entered
    · rename_i double
      rwa [if_pos double]
    · rename_i notDouble
      rw [if_neg notDouble]
      split at entered
      · cases entered
      · rename_i fits
        rw [if_neg fits]
        split at entered
        · cases entered
        · rename_i found
          rw [kept _ found]
          exact entered
        · cases entered

theorem foldlM_enter_mono {names : List String} {first last : Location}
    (kept : ∀ l, t.get? l = some .directory → t'.get? l = some .directory)
    (walked : names.foldlM t.enter first = .ok last) : names.foldlM t'.enter first = .ok last := by
  induction names generalizing first with
  | nil => exact walked
  | cons name names ih =>
    rw [List.foldlM_cons] at walked ⊢
    cases entered : t.enter first name with
    | error cause => rw [entered] at walked; cases walked
    | ok next =>
      rw [entered] at walked
      rw [enter_mono kept entered]
      exact ih walked

/-- A walk succeeds in every tree that keeps the directories. -/
theorem walk_mono {last : Last}
    (kept : ∀ l, t.get? l = some .directory → t'.get? l = some .directory)
    (walked : t.walk here p = .ok (dir, last)) : t'.walk here p = .ok (dir, last) := by
  obtain ⟨accepted, directory, ends⟩ := walk_ok_iff.mp walked
  refine walk_ok_iff.mpr ⟨accepted, kept _ directory, ends.imp_right ?_⟩
  rintro ⟨before, final, names, entered, fits, rfl⟩
  exact ⟨before, final, names, foldlM_enter_mono kept entered, fits, rfl⟩

end FileTree
end SimWorkbench
