import Mathlib.Tactic
import SimWorkbench.Text.Utf8

/-!
# UTF-8 is read back

Reading the UTF-8 form of a text gives the text. The reader goes byte by byte with a begun character
in between; one lemma for each kind of byte carries it through the form of one character, and the
texts follow by induction.
-/
namespace SimWorkbench.Text.Utf8

theorem scanFrom_whole {b : UInt8} (done : List (Option Char)) (rest : Bytes)
    (small : b.toNat < 0x80) :
    scanFrom none done (b :: rest) = scanFrom none (some (Char.ofNat b.toNat) :: done) rest := by
  simp [scanFrom, ofLead, small]

theorem scanFrom_lead {b : UInt8} {p : Partial} (done : List (Option Char)) (rest : Bytes)
    (lead : ofLead b.toNat = .ok p) :
    scanFrom none done (b :: rest) = scanFrom (some p) done rest := by
  simp [scanFrom, lead]

theorem scanFrom_more {b : UInt8} {p : Partial} (done : List (Option Char)) (rest : Bytes)
    (inside : p.low ≤ b.toNat ∧ b.toNat ≤ p.high) (several : ¬ p.missing ≤ 1) :
    scanFrom (some p) done (b :: rest) =
      scanFrom (some ⟨p.value * 64 + (b.toNat - 0x80), p.missing - 1, 0x80, 0xBF⟩) done rest := by
  simp [scanFrom, inside, several]

theorem scanFrom_final {b : UInt8} {p : Partial} (done : List (Option Char)) (rest : Bytes)
    (inside : p.low ≤ b.toNat ∧ b.toNat ≤ p.high) (last : p.missing ≤ 1) :
    scanFrom (some p) done (b :: rest) =
      scanFrom none (some (Char.ofNat (p.value * 64 + (b.toNat - 0x80))) :: done) rest := by
  simp [scanFrom, inside, last]

private theorem toNat_ofNat_byte {n : Nat} (h : n < 256) : (UInt8.ofNat n).toNat = n := by
  simpa using Nat.mod_eq_of_lt h

/-- A following byte adds its six bits to what the bytes before it say. -/
theorem scanFrom_next {u value missing low high : Nat} (done : List (Option Char)) (rest : Bytes)
    (before : value = u / 64) (inside : low ≤ u % 0x40 + 0x80 ∧ u % 0x40 + 0x80 ≤ high)
    (several : ¬ missing ≤ 1) :
    scanFrom (some ⟨value, missing, low, high⟩) done (UInt8.ofNat (u % 0x40 + 0x80) :: rest) =
      scanFrom (some ⟨u, missing - 1, 0x80, 0xBF⟩) done rest := by
  have byte := toNat_ofNat_byte (show u % 0x40 + 0x80 < 256 by omega)
  have joined : u / 64 * 64 + (u % 0x40 + 0x80 - 0x80) = u := by omega
  rw [scanFrom_more _ _ (byte.symm ▸ inside) several, byte, before, joined]

/-- The last byte completes the character. -/
theorem scanFrom_last {u low high : Nat} (done : List (Option Char)) (rest : Bytes)
    (inside : low ≤ u % 0x40 + 0x80 ∧ u % 0x40 + 0x80 ≤ high) :
    scanFrom (some ⟨u / 64, 1, low, high⟩) done (UInt8.ofNat (u % 0x40 + 0x80) :: rest) =
      scanFrom none (some (Char.ofNat u) :: done) rest := by
  have byte := toNat_ofNat_byte (show u % 0x40 + 0x80 < 256 by omega)
  have joined : u / 64 * 64 + (u % 0x40 + 0x80 - 0x80) = u := by omega
  rw [scanFrom_final _ _ (byte.symm ▸ inside) (Nat.le_refl 1), byte, joined]

/-! ### The lead bytes of the three longer forms -/

theorem ofLead_two {v : Nat} (above : 0x7f < v) (within : v ≤ 0x7ff) :
    ofLead (UInt8.ofNat (v / 64 % 0x20 + 0xc0)).toNat = .ok ⟨v / 64, 1, 0x80, 0xBF⟩ := by
  rw [toNat_ofNat_byte (by omega), ofLead, if_neg (by omega), if_neg (by omega), if_pos (by omega)]
  have bits : v / 64 % 0x20 + 0xc0 - 0xC0 = v / 64 := by omega
  rw [bits]

theorem ofLead_three {v : Nat} (within : v ≤ 0xffff) :
    ofLead (UInt8.ofNat (v / 4096 % 0x10 + 0xe0)).toNat =
      .ok ⟨v / 4096, 2, if v / 4096 = 0 then 0xA0 else 0x80,
        if v / 4096 = 13 then 0x9F else 0xBF⟩ := by
  rw [toNat_ofNat_byte (by omega), ofLead, if_neg (by omega), if_neg (by omega), if_neg (by omega),
    if_pos (by omega)]
  simp only [Except.ok.injEq, Partial.mk.injEq, true_and]
  exact ⟨by omega, if_congr (by omega) rfl rfl, if_congr (by omega) rfl rfl⟩

theorem ofLead_four {v : Nat} (within : v < 0x110000) :
    ofLead (UInt8.ofNat (v / 262144 % 0x08 + 0xf0)).toNat =
      .ok ⟨v / 262144, 3, if v / 262144 = 0 then 0x90 else 0x80,
        if v / 262144 = 4 then 0x8F else 0xBF⟩ := by
  rw [toNat_ofNat_byte (by omega), ofLead, if_neg (by omega), if_neg (by omega), if_neg (by omega),
    if_neg (by omega), if_pos (by omega)]
  simp only [Except.ok.injEq, Partial.mk.injEq, true_and]
  exact ⟨by omega, if_congr (by omega) rfl rfl, if_congr (by omega) rfl rfl⟩

/-- The form of one character is read as that character. The cases are the lengths of the form; the
bounds of the second byte keep out surrogates and numbers that are no characters. -/
theorem scanFrom_encodeChar (c : Char) (done : List (Option Char)) (rest : Bytes) :
    scanFrom none done (String.utf8EncodeChar c ++ rest) =
      scanFrom none (some c :: done) rest := by
  have valid : c.toNat < 0xD800 ∨ 0xDFFF < c.toNat ∧ c.toNat < 0x110000 := c.valid
  obtain ⟨v, hv⟩ : ∃ v, c.toNat = v := ⟨_, rfl⟩
  have whole : Char.ofNat v = c := by rw [← hv]; exact Char.ofNat_toNat c
  have vals : c.val.toNat = v := hv
  rw [hv] at valid
  simp only [String.utf8EncodeChar, vals]
  by_cases one : v ≤ 0x7f
  · rw [if_pos one, List.singleton_append, scanFrom_whole _ _ (by rw [toNat_ofNat_byte] <;> omega),
      toNat_ofNat_byte (by omega), whole]
  rw [if_neg one]
  by_cases two : v ≤ 0x7ff
  · rw [if_pos two, List.cons_append, List.singleton_append,
      scanFrom_lead _ _ (ofLead_two (by omega) two), scanFrom_last _ _ (by omega), whole]
  rw [if_neg two]
  by_cases three : v ≤ 0xffff
  · rw [if_pos three, List.cons_append, List.cons_append, List.singleton_append,
      scanFrom_lead _ _ (ofLead_three three),
      scanFrom_next _ _ (by omega) (by split <;> split <;> omega) (by decide),
      scanFrom_last _ _ (by omega), whole]
  · rw [if_neg three, List.cons_append, List.cons_append, List.cons_append, List.singleton_append,
      scanFrom_lead _ _ (ofLead_four (by omega)),
      scanFrom_next _ _ (by omega) (by split <;> split <;> omega) (by decide),
      scanFrom_next _ _ (by omega) (by omega) (by decide), scanFrom_last _ _ (by omega), whole]

theorem scanFrom_ofChars (text : List Char) (done : List (Option Char)) :
    scanFrom none done (Bytes.ofChars text) = done.reverse ++ text.map some := by
  induction text generalizing done with
  | nil => simp [Bytes.ofChars, scanFrom]
  | cons c rest ih =>
    have split : Bytes.ofChars (c :: rest) = String.utf8EncodeChar c ++ Bytes.ofChars rest := rfl
    rw [split, scanFrom_encodeChar, ih]
    simp

/-- Reading the UTF-8 form of a text gives the text. -/
theorem decode?_ofChars (text : List Char) : decode? (Bytes.ofChars text) = some text := by
  rw [decode?, scan, scanFrom_ofChars]
  induction text with
  | nil => rfl
  | cons c rest ih =>
    simp only [List.reverse_nil, List.nil_append] at ih
    simp [List.mapM_cons, ih]

theorem toString?_ofChars (text : List Char) :
    toString? (Bytes.ofChars text) = some (String.ofList text) := by
  rw [toString?, decode?_ofChars, Option.map_some]

end SimWorkbench.Text.Utf8
