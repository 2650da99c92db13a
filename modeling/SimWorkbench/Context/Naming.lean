import SimWorkbench.FileTree.Basic

/-!
# Names of private directories

The name of a private directory is partly drawn: the system tries parts until nothing in the directory
has the name. Which part comes out is left open. A naming that counts is one that can be followed.
-/
namespace SimWorkbench

/-- A way to complete the start of a name by letters and digits, so that nothing in a directory has the
name. -/
structure Naming where
  draw : FileTree → Location → String → String
  drawn : ∀ files dir start, ∀ c ∈ (draw files dir start).toList, c.isAlphanum = true
  free : ∀ (files : FileTree) dir start, files.get? (dir ++ [start ++ draw files dir start]) = none

namespace Naming

/-- The name that is drawn for a start. -/
def name (n : Naming) (files : FileTree) (dir : Location) (start : String) : String :=
  start ++ n.draw files dir start

/-- The digits of a number, six at least. -/
def suffix (n : Nat) : String :=
  let digits := (toString n).toList
  String.ofList (List.replicate (6 - digits.length) '0' ++ digits)

/-- More characters than any name has. -/
def width : List (Location × Entry) → Nat
  | [] => 1
  | (l, _) :: rest => (l.getLastD "").length + width rest

/-- The first number whose digits are free, of as many as there are entries. -/
def count (files : FileTree) (dir : Location) (start : String) : String :=
  (((List.range (files.entries.length + 1)).map suffix).find? fun part =>
    (files.get? (dir ++ [start ++ part])).isNone).getD
      (String.ofList (List.replicate (width files.entries) '0'))

theorem isAlphanum_suffix (n : Nat) : ∀ c ∈ (suffix n).toList, c.isAlphanum = true := by
  intro c member
  simp only [suffix, String.toList_ofList, List.mem_append, List.mem_replicate] at member
  rcases member with ⟨-, rfl⟩ | member
  · rfl
  · have isDigit : c.isDigit = true := by
      refine Nat.isDigit_of_mem_toDigits (by decide) (by decide) ?_ (b := 10) (n := n)
      simpa using member
    simp [Char.isAlphanum, isDigit]

theorem isAlphanum_count (files : FileTree) (dir : Location) (start : String) :
    ∀ c ∈ (count files dir start).toList, c.isAlphanum = true := by
  unfold count
  cases found : List.find? _ _ with
  | none =>
    intro c member
    simp only [Option.getD_none, String.toList_ofList, List.mem_replicate] at member
    rw [member.2]
    rfl
  | some part =>
    obtain ⟨n, -, rfl⟩ := List.mem_map.mp (List.mem_of_find?_eq_some found)
    exact isAlphanum_suffix n

theorem length_lt_width {l : Location} {e : Entry} :
    ∀ {entries : List (Location × Entry)}, (l, e) ∈ entries → (l.getLastD "").length < width entries
  | x :: rest, member => by
    have some : 0 < width rest := by
      clear member
      induction rest with
      | nil => exact Nat.one_pos
      | cons y rest ih => exact Nat.lt_of_lt_of_le ih (Nat.le_add_left ..)
    rcases List.mem_cons.mp member with rfl | member
    · exact Nat.lt_add_of_pos_right some
    · exact Nat.lt_of_lt_of_le (length_lt_width member) (Nat.le_add_left ..)

theorem free_count (files : FileTree) (dir : Location) (start : String) :
    files.get? (dir ++ [start ++ count files dir start]) = none := by
  unfold count
  cases found : List.find? _ _ with
  | some part => simpa using List.find?_some found
  | none =>
    rw [Option.getD_none]
    cases taken : files.get? _ with
    | none => rfl
    | some e =>
      -- no name is as long
      rw [FileTree.get?, if_neg (by simp)] at taken
      obtain ⟨before, after, split, -⟩ := List.lookup_eq_some_iff.mp taken
      have member : (_, e) ∈ files.entries := split ▸ List.mem_append_right before List.mem_cons_self
      have less := length_lt_width member
      rw [List.getLastD_concat, String.length_append, String.length_ofList,
        List.length_replicate] at less
      exact absurd less (Nat.not_lt_of_le (Nat.le_add_left ..))

/-- Names that are counted. -/
def counting : Naming := ⟨count, isAlphanum_count, free_count⟩

end Naming
end SimWorkbench
