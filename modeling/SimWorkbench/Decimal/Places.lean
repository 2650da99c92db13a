import SimWorkbench.Decimal.Shortest

/-!
# Decimals with a given number of places

A number `mantissa * 2 ^ exponent` is written with so many places behind the point, or with so many
digits behind the first one and a power of ten. It is rounded to the nearest such decimal, a tie to
the even digit.
-/
namespace SimWorkbench.Decimal

/-- The decimal digits of a number, at least `width` of them. -/
def paddedDigits (width n : Nat) : List Char :=
  let digits := Nat.toDigits 10 n
  List.replicate (width - digits.length) '0' ++ digits

/-- `mantissa * 2 ^ exponent * 10 ^ shift`, rounded to a whole number. -/
def roundedScale (mantissa : Nat) (exponent shift : Int) : Nat :=
  let (n, d) := Binary64.scale mantissa 1 exponent
  if shift < 0 then Binary64.roundHalfEven n (d * Nat.pow 10 shift.natAbs)
  else Binary64.roundHalfEven (n * Nat.pow 10 shift.natAbs) d

/-- Digits in front of the point and digits behind it. -/
def fixedDigits (mantissa : Nat) (exponent : Int) (places : Nat) : List Char × List Char :=
  let digits := paddedDigits (places + 1) (roundedScale mantissa exponent places)
  digits.splitAt (digits.length - places)

/-- The power of ten of the first digit of a positive number that is rounded to so many places
behind that digit; rounding can carry into a new first digit. -/
def decimalExponent (mantissa : Nat) (exponent : Int) (places : Nat) : Int :=
  let (n, d) := Binary64.scale mantissa 1 exponent
  let power := floorLog10 n d
  if roundedScale mantissa exponent (places - power) < Nat.pow 10 (places + 1) then power
  else power + 1

/-- The first digit, so many digits behind it, and the power of ten. -/
def scientificDigits (mantissa : Nat) (exponent : Int) (places : Nat) : List Char × List Char × Int :=
  if mantissa = 0 then (['0'], List.replicate places '0', 0)
  else
    let power := decimalExponent mantissa exponent places
    let digits := paddedDigits (places + 1) (roundedScale mantissa exponent (places - power))
    (digits.take 1, digits.drop 1, power)

end SimWorkbench.Decimal
