import SimWorkbench.Bytes

/-!
# Reading UTF-8

Bytes are read into characters, with a mark for each longest start of a character that does not
go on as UTF-8 asks. The strict reading refuses such bytes; the lossy one writes U+FFFD for
each mark.
-/
namespace SimWorkbench.Text.Utf8

/-- A character whose first bytes have been read. -/
structure Partial where
  value : Nat
  /-- Continuation bytes still to come; at least one. -/
  missing : Nat
  /-- Range of the next byte. -/
  low : Nat
  high : Nat

/-- What a first byte stands for: a whole character, an ill-formed byte (`none`), or the start of
a longer character. -/
def ofLead (b : Nat) : Except (Option Char) Partial :=
  if b < 0x80 then .error (some (Char.ofNat b))
  else if b < 0xC2 then .error none
  else if b < 0xE0 then .ok ⟨b - 0xC0, 1, 0x80, 0xBF⟩
  else if b < 0xF0 then
    .ok ⟨b - 0xE0, 2, if b = 0xE0 then 0xA0 else 0x80, if b = 0xED then 0x9F else 0xBF⟩
  else if b < 0xF5 then
    .ok ⟨b - 0xF0, 3, if b = 0xF0 then 0x90 else 0x80, if b = 0xF4 then 0x8F else 0xBF⟩
  else .error none

/-- Reads on from a begun character; `done` holds what was read before, last first. -/
def scanFrom (pending : Option Partial) (done : List (Option Char)) :
    Bytes → List (Option Char)
  | [] => (if pending.isSome then none :: done else done).reverse
  | b :: rest =>
    match pending with
    | none =>
      match ofLead b.toNat with
      | .error c => scanFrom none (c :: done) rest
      | .ok p => scanFrom (some p) done rest
    | some p =>
      if p.low ≤ b.toNat ∧ b.toNat ≤ p.high then
        let value := p.value * 64 + (b.toNat - 0x80)
        if p.missing ≤ 1 then scanFrom none (some (Char.ofNat value) :: done) rest
        else scanFrom (some ⟨value, p.missing - 1, 0x80, 0xBF⟩) done rest
      else
        match ofLead b.toNat with
        | .error c => scanFrom none (c :: none :: done) rest
        | .ok q => scanFrom (some q) (none :: done) rest

/-- The characters of a byte string, `none` for each ill-formed piece. -/
def scan (bytes : Bytes) : List (Option Char) := scanFrom none [] bytes

/-- The characters of a byte string; none if a piece is ill-formed. -/
def decode? (bytes : Bytes) : Option (List Char) := (scan bytes).mapM id

/-- The characters of a byte string, U+FFFD for each ill-formed piece. -/
def decodeLossy (bytes : Bytes) : List Char := (scan bytes).map (·.getD '\uFFFD')

/-- The text of a byte string; none if a piece is ill-formed. -/
def toString? (bytes : Bytes) : Option String := (decode? bytes).map String.ofList

/-- The text of a byte string, U+FFFD for each ill-formed piece. -/
def toStringLossy (bytes : Bytes) : String := String.ofList (decodeLossy bytes)

end SimWorkbench.Text.Utf8
