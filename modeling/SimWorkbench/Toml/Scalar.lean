import SimWorkbench.Decimal.Literal
import SimWorkbench.Text.Lines
import SimWorkbench.Toml.Basic

/-!
# TOML scalars

Each reader takes a scalar from the front of a text and gives it with what follows; none if the text
does not begin with one.
-/
namespace SimWorkbench.Toml
open Decimal

/-- A reader of something in front of a text. -/
abbrev Front (α : Type) := List Char → Option (α × List Char)

/-- A character that may stand in comments and strings of one line. -/
def isPlain (c : Char) : Bool := c == '\t' || (' ' ≤ c && c != '\x7f')

def isHexDigit (c : Char) : Bool :=
  c.isDigit || ('a' ≤ c && c ≤ 'f') || ('A' ≤ c && c ≤ 'F')

/-- The value of digits to a base. -/
def digitsValue (base : Nat) (digits : List Char) : Nat :=
  digits.foldl (fun n c => n * base +
    (if c.isDigit then c.toNat - 48 else c.toLower.toNat - 87)) 0

/-! ### Strings -/

/-- A line end in front of a text. -/
def lineEnd? : List Char → Option (List Char)
  | '\n' :: rest => some rest
  | '\r' :: '\n' :: rest => some rest
  | _ => none

/-- The character of an escape by number. -/
def numberedEscape (count : Nat) : Front Char := fun text =>
  let digits := text.take count
  let n := digitsValue 16 digits
  if digits.length = count && digits.all isHexDigit && n.isValidChar then
    some (Char.ofNat n, text.drop count)
  else none

/-- What a backslash in front of the text stands for. -/
def escape : Front Char
  | 'b' :: rest => some ('\x08', rest)
  | 'f' :: rest => some ('\x0c', rest)
  | 'n' :: rest => some ('\n', rest)
  | 'r' :: rest => some ('\r', rest)
  | 't' :: rest => some ('\t', rest)
  | '"' :: rest => some ('"', rest)
  | '\\' :: rest => some ('\\', rest)
  | 'u' :: rest => numberedEscape 4 rest
  | 'U' :: rest => numberedEscape 8 rest
  | _ => none

/-- A string in double quotes, behind the opening one. The number bounds its length. -/
def basicBody : Nat → List Char → Front String
  | 0, _, _ => none
  | n + 1, done, text =>
    match text with
    | '"' :: rest => some (String.ofList done.reverse, rest)
    | '\\' :: rest => do
      let (c, rest) ← escape rest
      basicBody n (c :: done) rest
    | c :: rest => if isPlain c then basicBody n (c :: done) rest else none
    | [] => none

/-- A string in single quotes, behind the opening one. -/
def literalBody : Front String := fun text =>
  match Text.splitAt? ['\''] text with
  | some (body, rest) => if body.all isPlain then some (String.ofList body, rest) else none
  | none => none

/-- The end of a string that three quotes close; up to two more quotes in front of them belong to
the string. -/
def longEnd? (quote : Char) (done : List Char) : Front String := fun text =>
  let run := (text.take 5).takeWhile (· == quote)
  if run.length < 3 then none
  else some (String.ofList (done.reverse ++ run.drop 3), text.drop run.length)

/-- A text without the blanks and line ends at its front. -/
def dropSpace : List Char → List Char
  | '\r' :: '\n' :: rest => dropSpace rest
  | c :: rest => if c == ' ' || c == '\t' || c == '\n' then dropSpace rest else c :: rest
  | [] => []

/-- What follows a line end that a backslash takes away, with the blanks around it. -/
def joinedLine? (text : List Char) : Option (List Char) :=
  (lineEnd? (text.dropWhile fun c => c == ' ' || c == '\t')).map dropSpace

/-- A string that three quotes close. Escapes are carried out if the quotes are double. -/
def longBody (quote : Char) : Nat → List Char → Front String
  | 0, _, _ => none
  | n + 1, done, text =>
    match longEnd? quote done text with
    | some found => some found
    | none =>
      match lineEnd? text with
      | some rest => longBody quote n ('\n' :: done) rest
      | none =>
        match text with
        | [] => none
        | c :: rest =>
          if c == '\\' && quote == '"' then
            match joinedLine? rest with
            | some rest => longBody quote n done rest
            | none => do
              let (d, rest) ← escape rest
              longBody quote n (d :: done) rest
          else if isPlain c then longBody quote n (c :: done) rest
          else none

/-- A string of any of the four forms. -/
def string : Front String := fun text =>
  let long (quote : Char) (rest : List Char) : Option (String × List Char) :=
    longBody quote (rest.length + 1) [] ((lineEnd? rest).getD rest)
  match text with
  | '"' :: '"' :: '"' :: rest => long '"' rest
  | '\'' :: '\'' :: '\'' :: rest => long '\'' rest
  | '"' :: rest => basicBody (rest.length + 1) [] rest
  | '\'' :: rest => literalBody rest
  | _ => none

/-! ### Numbers -/

/-- Digits that single underscores may separate. -/
def moreDigits (isDigit : Char → Bool) : List Char → List Char × List Char
  | [] => ([], [])
  | '_' :: c :: rest =>
    if isDigit c then
      let (digits, rest) := moreDigits isDigit rest
      (c :: digits, rest)
    else ([], '_' :: c :: rest)
  | c :: rest =>
    if isDigit c then
      let (digits, rest) := moreDigits isDigit rest
      (c :: digits, rest)
    else ([], c :: rest)

/-- At least one digit. -/
def digits (isDigit : Char → Bool) : Front (List Char)
  | c :: rest =>
    if isDigit c then
      let (more, rest) := moreDigits isDigit rest
      some (c :: more, rest)
    else none
  | [] => none

/-- A sign, if there is one. -/
def sign : List Char → List Char × List Char
  | '-' :: rest => (['-'], rest)
  | '+' :: rest => ([], rest)
  | text => ([], text)

/-- A decimal whole number; only zero itself begins with a zero. -/
def wholeDigits : Front (List Char)
  | '0' :: rest => some (['0'], rest)
  | text => digits Char.isDigit text

/-- A number without a sign behind the mark of its base. -/
def basedInteger (base : Nat) (isDigit : Char → Bool) : Front Int := fun text => do
  let (found, rest) ← digits isDigit text
  return (digitsValue base found, rest)

/-- A whole number that 64 bits hold. -/
def integer : Front Int := fun text => do
  let (n, rest) ← (match text with
    | '0' :: 'x' :: rest => basedInteger 16 isHexDigit rest
    | '0' :: 'o' :: rest => basedInteger 8 (fun c => '0' ≤ c && c ≤ '7') rest
    | '0' :: 'b' :: rest => basedInteger 2 (fun c => c == '0' || c == '1') rest
    | _ => do
      let (minus, rest) := sign text
      let (found, rest) ← wholeDigits rest
      let size : Int := digitsValue 10 found
      return (if minus.isEmpty then size else -size, rest))
  if -(Nat.pow 2 63 : Nat) ≤ n && n < Nat.pow 2 63 then some (n, rest) else none

/-- The exponent of a number, as a text. -/
def exponentText : Front (List Char)
  | 'e' :: rest | 'E' :: rest => do
    let (minus, rest) := sign rest
    let (found, rest) ← digits Char.isDigit rest
    return ('e' :: minus ++ found, rest)
  | _ => none

/-- The places behind the point of a number, as a text. -/
def fractionText : Front (List Char)
  | '.' :: rest => do
    let (found, rest) ← digits Char.isDigit rest
    return ('.' :: found, rest)
  | _ => none

/-- A number with places or an exponent. It is not beyond all numbers. -/
def float : Front Binary64 := fun text => do
  let (minus, rest) := sign text
  let (whole, rest) ← wholeDigits rest
  let (tail, rest) ← (match fractionText rest with
    | some (fraction, rest) =>
      match exponentText rest with
      | some (exponent, rest) => some (fraction ++ exponent, rest)
      | none => some (fraction, rest)
    | none => exponentText rest)
  let x ← Binary64.ofText? (minus ++ whole ++ tail)
  if x = .infinite false then none else some (x, rest)

/-- An infinity, or no number. -/
def specialFloat : Front Binary64 := fun text =>
  let (minus, rest) := sign text
  match rest with
  | 'i' :: 'n' :: 'f' :: rest => some (.infinite !minus.isEmpty, rest)
  | 'n' :: 'a' :: 'n' :: rest => some (.notANumber !minus.isEmpty, rest)
  | _ => none

/-! ### Dates and times -/

/-- Some digits whose value lies between two bounds. -/
def bounded (count low high : Nat) : Front Nat := fun text =>
  let found := text.take count
  let n := digitsValue 10 found
  if found.length = count && found.all Char.isDigit && low ≤ n && n ≤ high then
    some (n, text.drop count)
  else none

/-- One character. -/
def mark (c : Char) : Front Unit
  | d :: rest => if c == d then some ((), rest) else none
  | [] => none

def daysIn (year month : Nat) : Nat :=
  match month with
  | 2 => if year % 4 = 0 && (year % 100 ≠ 0 || year % 400 = 0) then 29 else 28
  | 4 | 6 | 9 | 11 => 30
  | _ => 31

def date : Front Unit := fun text => do
  let (year, rest) ← bounded 4 0 9999 text
  let (_, rest) ← mark '-' rest
  let (month, rest) ← bounded 2 1 12 rest
  let (_, rest) ← mark '-' rest
  let (_, rest) ← bounded 2 1 (daysIn year month) rest
  return ((), rest)

def time : Front Unit := fun text => do
  let (_, rest) ← bounded 2 0 23 text
  let (_, rest) ← mark ':' rest
  let (_, rest) ← bounded 2 0 59 rest
  let (_, rest) ← mark ':' rest
  let (_, rest) ← bounded 2 0 60 rest
  match rest with
  | '.' :: fraction =>
    match fraction.takeWhile Char.isDigit with
    | [] => none
    | places => some ((), fraction.drop places.length)
  | _ => some ((), rest)

/-- The distance from universal time, if it is given. -/
def offset : List Char → Option (List Char)
  | 'Z' :: rest | 'z' :: rest => some rest
  | '+' :: rest | '-' :: rest => do
    let (_, rest) ← bounded 2 0 23 rest
    let (_, rest) ← mark ':' rest
    let (_, rest) ← bounded 2 0 59 rest
    return rest
  | rest => some rest

/-- A date, a time, or a date with a time. -/
def moment : Front Unit := fun text =>
  match date text with
  | none => time text
  | some (_, rest) =>
    match rest with
    | c :: behind =>
      if c == 'T' || c == 't' || c == ' ' then
        match time behind with
        | some (_, rest) => (offset rest).map fun rest => ((), rest)
        | none => some ((), rest)
      else some ((), rest)
    | [] => some ((), rest)

/-- A scalar that is no string. -/
def bareScalar : Front Scalar := fun text =>
  let tag {α : Type} (make : α → Scalar) (found : Option (α × List Char)) :
      Option (Scalar × List Char) := found.map fun f => (make f.1, f.2)
  match text with
  | 't' :: 'r' :: 'u' :: 'e' :: rest => some (.boolean true, rest)
  | 'f' :: 'a' :: 'l' :: 's' :: 'e' :: rest => some (.boolean false, rest)
  | _ =>
    (tag (fun _ => .moment) (moment text)).or
      ((tag .float (float text)).or
        ((tag .float (specialFloat text)).or (tag .integer (integer text))))

end SimWorkbench.Toml
