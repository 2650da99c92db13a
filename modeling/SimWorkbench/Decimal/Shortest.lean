import SimWorkbench.Decimal.Binary64

/-!
# Shortest decimal digits

A finite number is written with the fewest significant digits that read back as the same number
and, among those, with the ones nearest to it. The digits stand in positional notation, never
with an exponent, and a whole number has no point.
-/
namespace SimWorkbench.Decimal

/-- The reals that round to a number, as quotients over one denominator. The ends belong to it
when the mantissa is even. -/
structure RoundingInterval where
  low : Nat
  centre : Nat
  high : Nat
  denominator : Nat
  closed : Bool

/-- The interval of `mantissa * 2 ^ exponent`: half way to both neighbours, the lower of which is
nearer below a power of two. -/
def RoundingInterval.of (mantissa : Nat) (exponent : Int) : RoundingInterval :=
  let unit := if exponent < 0 then 1 else Nat.pow 2 exponent.natAbs
  let below := if mantissa = Nat.pow 2 52 ∧ exponent > -1074 then 1 else 2
  { low := (4 * mantissa - below) * unit
    centre := 4 * mantissa * unit
    high := (4 * mantissa + 2) * unit
    denominator := if exponent < 0 then 4 * Nat.pow 2 exponent.natAbs else 4
    closed := mantissa % 2 = 0 }

/-- Whether `n * 10 ^ k`, given over the scaled interval, rounds to the number. -/
def RoundingInterval.covers (i : RoundingInterval) (n : Nat) : Bool :=
  if i.closed then i.low ≤ n * i.denominator && n * i.denominator ≤ i.high
  else i.low < n * i.denominator && n * i.denominator < i.high

/-- The interval divided by `10 ^ k`. -/
def RoundingInterval.shift (i : RoundingInterval) (k : Int) : RoundingInterval :=
  if k < 0 then
    let p := Nat.pow 10 k.natAbs
    { i with low := i.low * p, centre := i.centre * p, high := i.high * p }
  else { i with denominator := i.denominator * Nat.pow 10 k.natAbs }

/-- The multiple of `10 ^ k` nearest to the number among its two neighbours that round to it; the
upper one on a tie. -/
def RoundingInterval.nearest? (i : RoundingInterval) (k : Int) : Option Nat :=
  let s := i.shift k
  let floor := s.centre / s.denominator
  match s.covers floor, s.covers (floor + 1) with
  | false, false => none
  | true, false => some floor
  | false, true => some (floor + 1)
  | true, true =>
    if s.centre - floor * s.denominator < (floor + 1) * s.denominator - s.centre then some floor
    else some (floor + 1)

/-- The exponent of the leading decimal digit of `n / d`. -/
def floorLog10 (n d : Nat) : Int :=
  if d ≤ n then ((Nat.toDigits 10 (n / d)).length : Int) - 1
  else
    -- `d / n` lies between `10 ^ (j - 1)` and `10 ^ j` for the number of digits `j`.
    let j := (Nat.toDigits 10 (d / n)).length
    if n * Nat.pow 10 (j - 1) ≥ d then -((j : Int) - 1) else -(j : Int)

/-- The first grid, from coarse to fine, that meets the interval: the multiple and its power. -/
def RoundingInterval.search (i : RoundingInterval) (leading : Int) : Nat → Nat → Nat × Int
  | 0, digits => (i.centre / i.denominator, leading + 1 - digits)
  | fuel + 1, digits =>
    let k := leading + 1 - digits
    match i.nearest? k with
    | some n => (n, k)
    | none => i.search leading fuel (digits + 1)

/-- Digits and power of ten of the shortest decimal that reads back; seventeen digits always do. -/
def shortest (mantissa : Nat) (exponent : Int) : Nat × Int :=
  let i := RoundingInterval.of mantissa exponent
  i.search (floorLog10 i.centre i.denominator) 17 1

/-- `digits * 10 ^ power` in positional notation. -/
def positional (digits : Nat) (power : Int) : List Char :=
  let text := Nat.toDigits 10 digits
  if 0 ≤ power then text ++ List.replicate power.natAbs '0'
  else
    let places := power.natAbs
    let padded := List.replicate (places + 1 - text.length) '0' ++ text
    let whole := padded.take (padded.length - places)
    let fraction := (padded.drop (padded.length - places)).reverse.dropWhile (· == '0')
    if fraction.isEmpty then whole else whole ++ '.' :: fraction.reverse

/-- The text of a number. -/
def Binary64.toText (x : Binary64) : String :=
  match x.value with
  | .notANumber => "NaN"
  | .infinite negative => if negative then "-inf" else "inf"
  | .finite negative mantissa exponent =>
    let body :=
      if mantissa = 0 then ['0']
      else
        let (digits, power) := shortest mantissa exponent
        positional digits power
    String.ofList (if negative then '-' :: body else body)

end SimWorkbench.Decimal
