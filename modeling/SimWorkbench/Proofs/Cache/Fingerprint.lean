import Mathlib.Tactic
import SimWorkbench.Cache.Fingerprint

/-!
# What a fingerprint tells apart

The input of the digest is put together from frames that carry their lengths, so it gives back the
contents it was made from, one by one, as long as a length fits into its eight bytes.
-/
namespace SimWorkbench

theorem Bytes.littleEndian_injective {width a b : Nat} (fitsA : a < 256 ^ width)
    (fitsB : b < 256 ^ width) (same : littleEndian width a = littleEndian width b) : a = b := by
  induction width generalizing a b with
  | zero => omega
  | succ width ih =>
    simp only [littleEndian, List.cons.injEq] at same
    obtain ⟨low, high⟩ := same
    have lowest : a % 256 = b % 256 := by simpa using congrArg UInt8.toNat low
    have rest : a / 256 = b / 256 := by
      refine ih ?_ ?_ high
      · rw [Nat.div_lt_iff_lt_mul (by decide)]
        omega
      · rw [Nat.div_lt_iff_lt_mul (by decide)]
        omega
    omega

namespace Fingerprint

/-- Whether the length of a content fits into its frame. -/
def Fits (content : Bytes) : Prop := content.length < 2 ^ 64

/-- Whether all that can be read of some files fits. -/
def Fitting (files : FileTree) (here : Location) (paths : List Path) : Prop :=
  ∀ r ∈ readings files here paths, ∀ content ∈ r, Fits content

instance (content : Bytes) : Decidable (Fits content) := inferInstanceAs (Decidable (_ < _))

instance (files : FileTree) (here : Location) (paths : List Path) :
    Decidable (Fitting files here paths) :=
  inferInstanceAs (Decidable (∀ _ ∈ _, ∀ _ ∈ _, Fits _))

/-- A frame at the front tells where it ends. -/
theorem frame_append_injective {a b restA restB : Bytes} (fitsA : Fits a) (fitsB : Fits b)
    (same : frame a ++ restA = frame b ++ restB) : a = b ∧ restA = restB := by
  simp only [frame, List.append_assoc] at same
  obtain ⟨lengths, rest⟩ := List.append_inj same (by simp [Bytes.length_littleEndian])
  have length : a.length = b.length := Bytes.littleEndian_injective fitsA fitsB lengths
  exact List.append_inj rest length

/-- The input of the digest gives back the contents that could be read. -/
theorem stream_injective {as bs : List (Option Bytes)} (fitsA : ∀ a, some a ∈ as → Fits a)
    (fitsB : ∀ b, some b ∈ bs → Fits b) (same : stream as = stream bs) :
    as.filterMap id = bs.filterMap id := by
  have contents : ∀ xs ys : List Bytes, (∀ x ∈ xs, Fits x) → (∀ y ∈ ys, Fits y) →
      xs.flatMap frame = ys.flatMap frame → xs = ys := by
    intro xs
    induction xs with
    | nil =>
      rintro (_ | ⟨y, ys⟩) - - same
      · rfl
      · have := congrArg List.length same
        simp [frame, Bytes.length_littleEndian] at this
        omega
    | cons x xs ih =>
      rintro (_ | ⟨y, ys⟩) fitsX fitsY same
      · have := congrArg List.length same
        simp [frame, Bytes.length_littleEndian] at this
      · simp only [List.flatMap_cons] at same
        obtain ⟨rfl, rest⟩ := frame_append_injective (fitsX x (by simp)) (fitsY y (by simp)) same
        rw [ih ys (fun z member => fitsX z (by simp [member]))
          (fun z member => fitsY z (by simp [member])) rest]
  refine contents _ _ (fun a member => fitsA a ?_) (fun b member => fitsB b ?_) same
  · simpa using member
  · simpa using member

end Fingerprint
end SimWorkbench
