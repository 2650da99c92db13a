import SimWorkbench.Decimal.Binary64

/-!
# Reading decimals

A decimal is an optional sign, digits with an optional point among or around them, and an
optional exponent; at least one digit stands before the exponent. `inf`, `infinity` and `nan` are
read in any case of letters. The value is the nearest number of the format.
-/
namespace SimWorkbench.Decimal

/-- The value of decimal digits. -/
def ofDigits (digits : List Char) : Nat :=
  digits.foldl (fun n c => n * 10 + (c.toNat - 48)) 0

/-- The sign in front of a text and what follows it. -/
def takeSign : List Char → Bool × List Char
  | '-' :: rest => (true, rest)
  | '+' :: rest => (false, rest)
  | text => (false, text)

/-- A whole number with an optional sign, all of the text. -/
def wholeNumber? (text : List Char) : Option Int :=
  let (negative, digits) := takeSign text
  if digits.isEmpty || !digits.all Char.isDigit then none
  else some (if negative then -(ofDigits digits : Int) else ofDigits digits)

/-- The number that a text stands for, all of it. -/
def Binary64.ofText? (text : List Char) : Option Binary64 :=
  let (negative, body) := takeSign text
  let lower := body.map Char.toLower
  if lower = "inf".toList ∨ lower = "infinity".toList then some (.infinite negative)
  else if lower = "nan".toList then some (.notANumber negative)
  else
    let whole := body.takeWhile Char.isDigit
    let afterWhole := body.dropWhile Char.isDigit
    let (fraction, afterFraction) :=
      match afterWhole with
      | '.' :: rest => (rest.takeWhile Char.isDigit, rest.dropWhile Char.isDigit)
      | rest => ([], rest)
    let digits := whole ++ fraction
    if digits.isEmpty then none
    else
      let places : Int := fraction.length
      match afterFraction with
      | [] => some (.ofDecimal negative (ofDigits digits) (-places))
      | c :: rest =>
        if c = 'e' ∨ c = 'E' then
          (wholeNumber? rest).map fun e => .ofDecimal negative (ofDigits digits) (e - places)
        else none

/-- A whole number below `2 ^ 32` in decimal digits, with an optional plus sign. -/
def count? (text : List Char) : Option UInt32 :=
  let digits := match text with
    | '+' :: rest => rest
    | rest => rest
  if digits.isEmpty || !digits.all Char.isDigit then none
  else
    let n := ofDigits digits
    if n < Nat.pow 2 32 then some (UInt32.ofNat n) else none

end SimWorkbench.Decimal
