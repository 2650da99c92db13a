import SimWorkbench.Decimal.Places
import SimWorkbench.Shell.Number

/-!
# Printing with escapes and formats

Escapes are letters or octal numbers behind a backslash. A format is used again as long as there
are arguments left; each of its places takes an argument and prints it as a text or as a number.
-/
namespace SimWorkbench.Shell

/-- The character of an escape with one letter. -/
def escapeLetter? : Char → Option Char
  | 'a' => some '\x07'
  | 'b' => some '\x08'
  | 'e' => some '\x1b'
  | 'f' => some '\x0c'
  | 'n' => some '\n'
  | 'r' => some '\r'
  | 't' => some '\t'
  | 'v' => some '\x0b'
  | '\\' => some '\\'
  | _ => none

/-- What the text behind a backslash begins with stands for, and the rest. Without an escape that
is the backslash itself. -/
def readEscape (text : Chars) : Char × Chars :=
  let digits := (text.take 3).takeWhile (isDigitOf 8)
  if !digits.isEmpty then
    (Char.ofNat (digitsValue 8 digits % 256), text.drop digits.length)
  else
    match text with
    | c :: rest =>
      match escapeLetter? c with
      | some d => (d, rest)
      | none => ('\\', text)
    | [] => ('\\', [])

/-- A text with its escapes carried out, last character first, and whether one asked to stop. -/
def unescapeFrom : Nat → Chars → Chars → Chars × Bool
  | 0, done, _ => (done, false)
  | _, done, [] => (done, false)
  | _, done, '\\' :: 'c' :: _ => (done, true)
  | n + 1, done, '\\' :: '0' :: d :: rest =>
    let (c, after) := readEscape (if isDigitOf 8 d then d :: rest else '0' :: d :: rest)
    unescapeFrom n (c :: done) after
  | n + 1, done, '\\' :: rest =>
    let (c, after) := readEscape rest
    unescapeFrom n (c :: done) after
  | n + 1, done, c :: rest => unescapeFrom n (c :: done) rest

/-- A text with its escapes carried out, and whether one of them ends all output. -/
def unescape (text : Chars) : Chars × Bool :=
  let (done, stopped) := unescapeFrom (text.length + 1) [] text
  (done.reverse, stopped)

/-- Words with their escapes carried out and blanks between them, and whether one of them ends all
output. -/
def unescapeWords : List Chars → Chars × Bool
  | [] => ([], false)
  | word :: rest =>
    let (text, stopped) := unescape word
    if stopped || rest.isEmpty then (text, stopped)
    else
      let (more, stopped) := unescapeWords rest
      (text ++ ' ' :: more, stopped)

/-- What `echo` prints. -/
def echoText (arguments : List Chars) : Chars :=
  let (silent, words) := match arguments with
    | ['-', 'n'] :: rest => (true, rest)
    | _ => (false, arguments)
  let (text, stopped) := unescapeWords words
  if silent || stopped then text else text ++ ['\n']

/-- A place for an argument in a format. -/
structure Place where
  flags : Chars
  width : Nat
  precision : Option Nat
  conversion : Char

namespace Place

def has (p : Place) (flag : Char) : Bool := p.flags.contains flag

/-- Fills a text up to the width with blanks. -/
def fill (p : Place) (text : Chars) : Chars :=
  let gap := List.replicate (p.width - text.length) ' '
  if p.has '-' then text ++ gap else gap ++ text

/-- Fills a number up to the width, with zeros behind its sign if that is asked for. -/
def fillNumber (p : Place) (sign body : Chars) (zeros : Bool) : Chars :=
  if zeros && p.has '0' && !p.has '-' then
    sign ++ List.replicate (p.width - sign.length - body.length) '0' ++ body
  else p.fill (sign ++ body)

/-- A text, cut to the precision. -/
def textual (p : Place) (text : Chars) : Chars :=
  p.fill (text.take (p.precision.getD text.length))

/-- The sign of a number that may have one. -/
def sign (p : Place) (negative : Bool) : Chars :=
  if negative then ['-']
  else if p.has '+' then ['+']
  else if p.has ' ' then [' ']
  else []

/-- A whole number. -/
def integral (p : Place) (n : Int) : Chars :=
  let signed := p.conversion == 'd' || p.conversion == 'i'
  let base := match p.conversion with
    | 'o' => 8
    | 'x' | 'X' => 16
    | _ => 10
  let size := if signed then n.natAbs else (n % Nat.pow 2 64).toNat
  let digits := if size = 0 && p.precision = some 0 then [] else Nat.toDigits base size
  let digits := if p.conversion == 'X' then digits.map Char.toUpper else digits
  let padded := List.replicate (p.precision.getD 1 - digits.length) '0' ++ digits
  let padded := if p.has '#' && base = 8 && padded.head? != some '0' then '0' :: padded else padded
  let mark : Chars := if p.has '#' && base = 16 && size ≠ 0 then ['0', p.conversion] else []
  p.fillNumber (if signed then p.sign (n < 0) else mark) padded p.precision.isNone

/-- An exponent with its sign and two digits at least. -/
def exponentText (e : Int) : Chars :=
  (if e < 0 then '-' else '+') :: Decimal.paddedDigits 2 e.natAbs

/-- Digits, and a point with digits behind it if there are any. -/
def joined (p : Place) (whole fraction : Chars) : Chars :=
  if fraction.isEmpty && !p.has '#' then whole else whole ++ '.' :: fraction

/-- Digits without the zeros at their end. -/
def trimmed (p : Place) (fraction : Chars) : Chars :=
  if p.has '#' then fraction else (fraction.reverse.dropWhile (· == '0')).reverse

/-- A positive number in hexadecimal: one digit in front of the point, and a power of two. -/
def hexadecimal (p : Place) (mantissa : Nat) (exponent : Int) : Chars :=
  -- The mantissa is brought to fifty-three bits, of which the first stands before the point.
  let shift := if mantissa = 0 then 0 else 52 - mantissa.log2
  let (bits, power) := if exponent = -1074 && mantissa < Nat.pow 2 52 then (mantissa, (-1022 : Int))
    else (mantissa * Nat.pow 2 shift, exponent - shift + 52)
  let (bits, places) := match p.precision with
    | some n =>
      if n < 13 then (Decimal.Binary64.roundHalfEven bits (Nat.pow 16 (13 - n)), n) else (bits, 13)
    | none => (bits, 13)
  let unit := Nat.pow 16 places
  let digits := Nat.toDigits 16 (bits % unit)
  let fraction := if places = 0 then [] else List.replicate (places - digits.length) '0' ++ digits
  let fraction := match p.precision with
    | some n => fraction ++ List.replicate (n - 13) '0'
    | none => (fraction.reverse.dropWhile (· == '0')).reverse
  p.joined (Nat.toDigits 10 (bits / unit)) fraction ++
    'p' :: (if power < 0 ∧ mantissa ≠ 0 then '-' else '+') ::
      Nat.toDigits 10 (if mantissa = 0 then 0 else power.natAbs)

/-- A number with a point. -/
def floating (p : Place) (x : Decimal.Binary64) : Chars :=
  let body := match x.value with
    | .notANumber => ("nan".toList, false)
    | .infinite _ => ("inf".toList, false)
    | .finite _ m e =>
      let places := p.precision.getD 6
      let scientific (places : Nat) (trim : Bool) : Chars :=
        let (first, fraction, power) := Decimal.scientificDigits m e places
        p.joined first (if trim then p.trimmed fraction else fraction) ++ 'e' :: exponentText power
      let fixed (places : Nat) (trim : Bool) : Chars :=
        let (whole, fraction) := Decimal.fixedDigits m e places
        p.joined whole (if trim then p.trimmed fraction else fraction)
      let text := match p.conversion.toLower with
        | 'e' => scientific places false
        | 'f' => fixed places false
        | 'a' => p.hexadecimal m e
        | _ =>
          let digits := max 1 places
          let (_, _, power) := Decimal.scientificDigits m e (digits - 1)
          if -4 ≤ power && power < digits then fixed ((digits : Int) - 1 - power).toNat true
          else scientific (digits - 1) true
      (text, true)
  let isHex := p.conversion.toLower == 'a' && body.2
  let sign := p.sign x.isNegative ++ if isHex then "0x".toList else []
  let text := p.fillNumber sign body.1 body.2
  if p.conversion.isUpper then text.map Char.toUpper else text

end Place

/-- What a format has printed so far. -/
structure Printed where
  /-- Last first. -/
  pieces : List Chars
  arguments : List Chars
  /-- Whether arguments were asked for. -/
  used : Bool
  complaints : List Chars
  /-- Whether an escape asked to stop. -/
  stopped : Bool
  /-- What is wrong with the format itself. -/
  broken : Option Chars

namespace Printed

def add (s : Printed) (text : Chars) : Printed := { s with pieces := text :: s.pieces }

/-- The next argument. -/
def next (s : Printed) : Chars × Printed :=
  (s.arguments.headD [], { s with arguments := s.arguments.tail, used := true })

/-- Notes what is wrong with an argument of which something is left. -/
def check (s : Printed) (word rest : Chars) (inRange : Bool) : Printed :=
  let complain (text : String) : Printed :=
    { s with complaints := s.complaints ++ [word ++ ": ".toList ++ text.toList] }
  if !rest.isEmpty then
    complain (if rest = word then "expected numeric value" else "not completely converted")
  else if !inRange then complain "Numerical result out of range"
  else s

/-- The next argument as a whole number. A character behind a quotation mark stands for its number. -/
def nextInteger (s : Printed) (signed : Bool) : Int × Printed :=
  let (word, s) := s.next
  match word with
  | '\'' :: rest | '"' :: rest => (((rest.headD '\x00').toNat : Int), s)
  | _ =>
    let n := readNumeral 0 word
    let bound : Int := Nat.pow 2 64 - 1
    let value := if signed then clamp n.value else if n.value.natAbs > bound then bound else n.value
    (value, s.check word n.rest (value = n.value))

/-- A number with a point in front of a text, whether it was in range, and what follows it. -/
def readFloating (text : Chars) : Option (Decimal.Binary64 × Bool × Chars) :=
  let body := text.dropWhile isSpace
  let (negative, unsigned) := match body with
    | '-' :: rest => (true, rest)
    | '+' :: rest => (false, rest)
    | _ => (false, body)
  let lower := unsigned.map Char.toLower
  let digitsOf (base : Nat) (text : Chars) : Chars × Chars × Chars :=
    let whole := text.takeWhile (isDigitOf base)
    match text.drop whole.length with
    | '.' :: rest =>
      let fraction := rest.takeWhile (isDigitOf base)
      if whole.isEmpty && fraction.isEmpty then ([], [], text)
      else (whole, fraction, rest.drop fraction.length)
    | rest => (whole, [], rest)
  let powerOf (mark : Char) (text : Chars) : Int × Chars :=
    match text with
    | c :: rest =>
      let (minus, digits) := match rest with
        | '-' :: more => (true, more)
        | '+' :: more => (false, more)
        | _ => (false, rest)
      let front := digits.takeWhile Char.isDigit
      if c.toLower == mark && !front.isEmpty then
        (if minus then -(digitsValue 10 front : Int) else digitsValue 10 front,
          digits.drop front.length)
      else (0, text)
    | [] => (0, [])
  let isInRange (x : Decimal.Binary64) (isZero : Bool) : Bool :=
    match x.value with
    | .finite _ m _ => isZero || m ≥ Nat.pow 2 52
    | _ => false
  if "infinity".toList.isPrefixOf lower then some (.infinite negative, true, unsigned.drop 8)
  else if "inf".toList.isPrefixOf lower then some (.infinite negative, true, unsigned.drop 3)
  else if "nan".toList.isPrefixOf lower then some (.notANumber negative, true, unsigned.drop 3)
  else
    let hex := match unsigned with
      | '0' :: x :: rest =>
        let (whole, fraction, after) := digitsOf 16 rest
        if (x == 'x' || x == 'X') && !(whole ++ fraction).isEmpty then some (whole, fraction, after)
        else none
      | _ => none
    match hex with
    | some (whole, fraction, after) =>
      let (power, after) := powerOf 'p' after
      let n := digitsValue 16 (whole ++ fraction)
      let (a, b) := Decimal.Binary64.scale n 1 (max (-3000) (min 3000 (power - 4 * fraction.length)))
      let x := Decimal.Binary64.ofQuotient negative a b
      some (x, isInRange x (n = 0), after)
    | none =>
      let (whole, fraction, after) := digitsOf 10 unsigned
      if (whole ++ fraction).isEmpty then none
      else
        let (power, after) := powerOf 'e' after
        let n := digitsValue 10 (whole ++ fraction)
        let x := Decimal.Binary64.ofDecimal negative n (power - fraction.length)
        some (x, isInRange x (n = 0), after)

/-- The next argument as a number with a point. -/
def nextFloating (s : Printed) : Decimal.Binary64 × Printed :=
  let (word, s) := s.next
  match word with
  | '\'' :: rest | '"' :: rest => (.ofInt (rest.headD '\x00').toNat, s)
  | _ =>
    match readFloating word with
    | some (x, inRange, rest) => (x, s.check word rest inRange)
    | none => (.ofInt 0, s.check word word true)

/-- A width or a precision: digits, or the next argument. -/
def nextSize (s : Printed) (text : Chars) : Option Int × Chars × Printed :=
  match text with
  | '*' :: rest =>
    let (n, s) := s.nextInteger true
    (some (Int.bmod n (Nat.pow 2 32)), rest, s)
  | _ =>
    let digits := text.takeWhile Char.isDigit
    (if digits.isEmpty then none else some (digitsValue 10 digits), text.drop digits.length, s)

/-- Prints the next argument at its place. -/
def convert (s : Printed) (p : Place) (spelled : Chars) : Printed :=
  match p.conversion with
  | 's' => let (text, s) := s.next; s.add (p.textual text)
  | 'c' => let (text, s) := s.next; s.add (p.fill [text.headD '\x00'])
  | 'b' =>
    let (text, s) := s.next
    let (shown, stopped) := unescape text
    { s.add (p.textual shown) with stopped := stopped }
  | c =>
    if c == 'd' || c == 'i' then let (n, s) := s.nextInteger true; s.add (p.integral n)
    else if "ouxX".toList.contains c then
      let (n, s) := s.nextInteger false
      s.add (p.integral n)
    else if "aAeEfFgG".toList.contains c then let (x, s) := s.nextFloating; s.add (p.floating x)
    else { s with broken := some (spelled ++ ": invalid directive".toList) }

/-- Prints at a place whose description stands behind a percent sign; gives what follows it. -/
def place (s : Printed) (text : Chars) : Printed × Chars :=
  let flags := text.takeWhile fun c => "#-+ 0".toList.contains c
  let (width, rest, s) := s.nextSize (text.drop flags.length)
  let (precision, rest, s) : Option Int × Chars × Printed := match rest with
    | '.' :: more =>
      let (n, rest, s) := s.nextSize more
      (some (n.getD 0), rest, s)
    | _ => (none, rest, s)
  match rest with
  | [] => ({ s with broken := some "missing format character".toList }, [])
  | c :: after =>
    let spelled := '%' :: text.take (text.length - after.length)
    let size := width.getD 0
    let p : Place :=
      ⟨if size < 0 then '-' :: flags else flags, size.natAbs,
        precision.bind fun n => if n < 0 then none else some n.toNat, c⟩
    (s.convert p spelled, after)

/-- Uses a format once. -/
def once : Nat → Printed → Chars → Printed
  | 0, s, _ => s
  | _, s, [] => s
  | n + 1, s, c :: rest =>
    if s.stopped || s.broken.isSome then s
    else
      match c, rest with
      | '%', '%' :: more => once n (s.add ['%']) more
      | '%', _ =>
        let (s, after) := s.place rest
        once n s after
      | '\\', _ =>
        let (d, after) := readEscape rest
        once n (s.add [d]) after
      | _, _ => once n (s.add [c]) rest

/-- Uses a format until no arguments are left. -/
def all : Nat → Printed → Chars → Printed
  | 0, s, _ => s
  | n + 1, s, format =>
    let s := once (format.length + 1) s format
    if s.stopped || s.broken.isSome || s.arguments.isEmpty || !s.used then s else all n s format

/-- What was printed. -/
def text (s : Printed) : Chars := s.pieces.reverse.flatten

end Printed

/-- What a format prints with arguments, and what is wrong with them. -/
def printFormatted (format : Chars) (arguments : List Chars) : Printed :=
  Printed.all (arguments.length + 1) ⟨[], arguments, false, [], false, none⟩ format

end SimWorkbench.Shell
