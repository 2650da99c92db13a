/-!
# Binary floating-point numbers of 64 bits

A number of the format binary64 is its sixty-four bits: a sign, eleven bits of exponent and
fifty-two of fraction. Its value is a mantissa times a power of two, an infinity or no number.
Rounding a quotient to the format takes the nearest number and, of two, the one with the even
mantissa.
-/
namespace SimWorkbench.Decimal

/-- A number of the format binary64, as its bits. -/
structure Binary64 where
  bits : UInt64
  deriving DecidableEq, Repr, Inhabited

namespace Binary64

/-- What the bits stand for. -/
inductive Value where
  | notANumber
  | infinite (negative : Bool)
  | finite (negative : Bool) (mantissa : Nat) (exponent : Int)
  deriving DecidableEq, Repr

/-- Whether the sign bit is set. -/
def isNegative (x : Binary64) : Bool := x.bits.toNat / Nat.pow 2 63 = 1

/-- The value of the bits: `mantissa * 2 ^ exponent` where it is finite. -/
def value (x : Binary64) : Value :=
  let field : Nat := x.bits.toNat / Nat.pow 2 52 % Nat.pow 2 11
  let fraction : Nat := x.bits.toNat % Nat.pow 2 52
  if field = 2047 then
    if fraction = 0 then .infinite x.isNegative else .notANumber
  else if field = 0 then .finite x.isNegative fraction (-1074)
  else .finite x.isNegative (Nat.pow 2 52 + fraction) ((field : Int) - 1075)

/-- The number with a sign, an exponent field and a fraction. -/
def ofFields (negative : Bool) (field fraction : Nat) : Binary64 :=
  ⟨UInt64.ofNat ((if negative then Nat.pow 2 63 else 0) + field * Nat.pow 2 52 + fraction)⟩

def notANumber (negative : Bool) : Binary64 := ofFields negative 2047 (Nat.pow 2 51)

def infinite (negative : Bool) : Binary64 := ofFields negative 2047 0

/-- The quotient of two numbers, rounded to the nearest whole number, a half to the even one. -/
def roundHalfEven (numerator denominator : Nat) : Nat :=
  let q := numerator / denominator
  let r := numerator % denominator
  if 2 * r < denominator then q
  else if denominator < 2 * r then q + 1
  else q + q % 2

/-- `n * 2 ^ k / d` as a quotient of whole numbers. -/
def scale (n d : Nat) (k : Int) : Nat × Nat :=
  if k < 0 then (n, d * Nat.pow 2 k.natAbs) else (n * Nat.pow 2 k.natAbs, d)

/-- The exponent `e` with `2 ^ e ≤ n / d < 2 ^ (e + 1)`, for positive `n` and `d`. -/
def floorLog2 (n d : Nat) : Int :=
  let guess : Int := (n.log2 : Int) - d.log2
  let (a, b) := scale n d (-guess)
  if a < b then guess - 1 else guess

/-- The number nearest to `n / d`, a tie going to the even mantissa; too large a quotient becomes
infinite. -/
def ofQuotient (negative : Bool) (n d : Nat) : Binary64 :=
  if n = 0 then ofFields negative 0 0
  else
    let exponent := max (floorLog2 n d - 52) (-1074)
    let (a, b) := scale n d (-exponent)
    let mantissa := roundHalfEven a b
    -- A mantissa of 2 ^ 53 carries into the exponent field, one below 2 ^ 52 has field zero.
    let field := (exponent + 1075).toNat
    if mantissa < Nat.pow 2 52 then ofFields negative 0 mantissa
    else
      let whole := (field - 1) * Nat.pow 2 52 + mantissa
      if whole / Nat.pow 2 52 ≥ 2047 then infinite negative
      else ofFields negative (whole / Nat.pow 2 52) (whole % Nat.pow 2 52)

/-- The number nearest to a whole number. -/
def ofInt (i : Int) : Binary64 := ofQuotient (i < 0) i.natAbs 1

/-- The number nearest to `digits * 10 ^ exponent`. -/
def ofDecimal (negative : Bool) (digits : Nat) (exponent : Int) : Binary64 :=
  if digits = 0 then ofFields negative 0 0
  else
    -- Outside these bounds the answer is known, and the power of ten would be huge.
    let magnitude : Int := exponent + (Nat.toDigits 10 digits).length
    if magnitude > 400 then infinite negative
    else if magnitude < -400 then ofFields negative 0 0
    else if exponent < 0 then ofQuotient negative digits (Nat.pow 10 exponent.natAbs)
    else ofQuotient negative (digits * Nat.pow 10 exponent.natAbs) 1

end Binary64
end SimWorkbench.Decimal
