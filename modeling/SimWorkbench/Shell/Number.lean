import SimWorkbench.Shell.Syntax

/-!
# Whole numbers in front of a text

A number is read as far as its digits go: blanks and a sign may stand in front, and the base may be
left to the digits, which are octal behind a zero and hexadecimal behind `0x`. Numbers have 64 bits;
a value beyond them becomes the last one of its side.
-/
namespace SimWorkbench.Shell

/-- The blanks that may stand in front of a number. -/
def isSpace (c : Char) : Bool := c == ' ' || ('\t' ≤ c && c ≤ '\r')

/-- The value of a digit of any base up to 36. -/
def digitValue? (c : Char) : Option Nat :=
  if c.isDigit then some (c.toNat - 48)
  else if 'a' ≤ c && c ≤ 'z' then some (c.toNat - 87)
  else if 'A' ≤ c && c ≤ 'Z' then some (c.toNat - 55)
  else none

def isDigitOf (base : Nat) (c : Char) : Bool := (digitValue? c).any (· < base)

/-- The value of digits to a base. -/
def digitsValue (base : Nat) (digits : Chars) : Nat :=
  digits.foldl (fun n c => n * base + (digitValue? c).getD 0) 0

/-- What was read at the front of a text. -/
structure Numeral where
  /-- As it is written, without a limit. -/
  value : Int
  rest : Chars
  /-- Whether there was a digit. -/
  found : Bool

/-- Digits to a base; base 0 leaves it to the digits. The rest is the whole text if there are none. -/
def readMagnitude (base : Nat) (text : Chars) : Option (Nat × Chars) :=
  let digits (base : Nat) (text : Chars) : Option (Nat × Chars) :=
    let front := text.takeWhile (isDigitOf base)
    if front.isEmpty then none else some (digitsValue base front, text.drop front.length)
  match base, text with
  | 0, '0' :: x :: c :: rest =>
    if (x == 'x' || x == 'X') && isDigitOf 16 c then digits 16 (c :: rest)
    else digits 8 text
  | 0, '0' :: _ => digits 8 text
  | 0, _ => digits 10 text
  | _, _ => digits base text

/-- The number at the front of a text. -/
def readNumeral (base : Nat) (text : Chars) : Numeral :=
  let body := text.dropWhile isSpace
  let (negative, unsigned) := match body with
    | '-' :: rest => (true, rest)
    | '+' :: rest => (false, rest)
    | _ => (false, body)
  match readMagnitude base unsigned with
  | some (n, rest) => ⟨if negative then -(n : Int) else n, rest, true⟩
  | none => ⟨0, text, false⟩

/-- The bounds of signed numbers. -/
def greatest : Int := Nat.pow 2 63 - 1
def least : Int := -(Nat.pow 2 63 : Nat)

/-- A number kept between the bounds. -/
def clamp (n : Int) : Int := max least (min greatest n)

/-- The number that a whole text spells; blanks may follow it. -/
def integer? (base : Nat) (text : Chars) : Option Int :=
  let n := readNumeral base text
  if n.found && n.rest.all isSpace && clamp n.value = n.value then some n.value else none

/-- A decimal number that counts something. -/
def count? (text : Chars) : Option Nat :=
  (integer? 10 text).bind fun n => if 0 ≤ n && n < Nat.pow 2 31 then some n.toNat else none

/-- The decimal digits of a number. -/
def decimal (n : Int) : Chars := (toString n).toList

end SimWorkbench.Shell
