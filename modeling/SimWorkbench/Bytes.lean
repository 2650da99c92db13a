/-!
# Bytes

File contents, process output and digest input are lists of bytes. A text becomes bytes by
UTF-8; a number becomes bytes by its little-endian or big-endian digits to base 256.
-/
namespace SimWorkbench

/-- Contents of a file or of a stream. -/
abbrev Bytes := List UInt8

namespace Bytes

/-- The UTF-8 form of a list of characters. -/
def ofChars (text : List Char) : Bytes := text.flatMap String.utf8EncodeChar

/-- The UTF-8 form of a text. -/
def ofString (text : String) : Bytes := ofChars text.toList

/-- The lowest `width` digits of `n` to base 256, least significant first. -/
def littleEndian : Nat → Nat → Bytes
  | 0, _ => []
  | width + 1, n => UInt8.ofNat n :: littleEndian width (n / 256)

/-- The lowest `width` digits of `n` to base 256, most significant first. -/
def bigEndian (width n : Nat) : Bytes := (littleEndian width n).reverse

theorem length_littleEndian (width n : Nat) : (littleEndian width n).length = width := by
  induction width generalizing n with
  | zero => rfl
  | succ width ih => simp [littleEndian, ih]

/-- The lower-case hexadecimal digit of a number below sixteen. -/
def hexDigit (n : Nat) : Char :=
  if n < 10 then Char.ofNat (48 + n) else Char.ofNat (87 + n)

/-- Two lower-case hexadecimal digits per byte. -/
def toHex (bytes : Bytes) : String :=
  String.ofList (bytes.flatMap fun b => [hexDigit (b.toNat / 16), hexDigit (b.toNat % 16)])

end Bytes
end SimWorkbench
