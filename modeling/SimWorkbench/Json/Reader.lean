import SimWorkbench.Json.Basic

/-!
# Reading JSON

The reader accepts one value with blanks around it and nothing else. Numbers follow the grammar of
the format: no sign but a minus, no zero in front of another digit, a digit on both sides of the
point.
-/
namespace SimWorkbench.Json

/-- Drops the characters that may stand between tokens. -/
def skipBlanks (text : List Char) : List Char :=
  text.dropWhile fun c => c == ' ' || c == '\t' || c == '\n' || c == '\r'

/-- The value of a hexadecimal digit. -/
def hexValue? (c : Char) : Option Nat :=
  if '0' ≤ c ∧ c ≤ '9' then some (c.toNat - 48)
  else if 'a' ≤ c ∧ c ≤ 'f' then some (c.toNat - 87)
  else if 'A' ≤ c ∧ c ≤ 'F' then some (c.toNat - 55)
  else none

/-- The 16-bit unit of four hexadecimal digits. -/
def unit? (a b c d : Char) : Option Nat := do
  let a ← hexValue? a
  let b ← hexValue? b
  let c ← hexValue? c
  let d ← hexValue? d
  return ((a * 16 + b) * 16 + c) * 16 + d

/-- What a short escape stands for. -/
def shortEscape? : Char → Option Char
  | '"' => some '"'
  | '\\' => some '\\'
  | '/' => some '/'
  | 'b' => some '\x08'
  | 'f' => some '\x0c'
  | 'n' => some '\n'
  | 'r' => some '\r'
  | 't' => some '\t'
  | _ => none

/-- A string's text as far as it has been read, last character first; `half` is the first half of
a character, whose other half has to follow at once. -/
structure Reading where
  done : List Char
  half : Option Nat
  whole : Bool

/-- Adds a character; a half before it stays alone. -/
def Reading.push (r : Reading) (c : Char) : Reading :=
  ⟨c :: r.done, none, r.whole && r.half.isNone⟩

/-- Adds a 16-bit unit. -/
def Reading.pushUnit (r : Reading) (u : Nat) : Reading :=
  if 0xD800 ≤ u ∧ u < 0xDC00 then ⟨r.done, some u, r.whole && r.half.isNone⟩
  else if 0xDC00 ≤ u ∧ u < 0xE000 then
    match r.half with
    | none => ⟨r.done, none, false⟩
    | some high =>
      ⟨Char.ofNat (0x10000 + (high - 0xD800) * 0x400 + (u - 0xDC00)) :: r.done, none, r.whole⟩
  else r.push (Char.ofNat u)

/-- The text that was read, if no half stood alone. -/
def Reading.text? (r : Reading) : Option (List Char) :=
  if r.whole && r.half.isNone then some r.done.reverse else none

/-- Reads a string behind its opening quote; gives its text and what follows the closing quote. -/
def readString (r : Reading) : List Char → Option (Option (List Char) × List Char)
  | [] => none
  | '"' :: rest => some (r.text?, rest)
  | '\\' :: 'u' :: a :: b :: c :: d :: rest =>
    match unit? a b c d with
    | some u => readString (r.pushUnit u) rest
    | none => none
  | '\\' :: c :: rest =>
    match shortEscape? c with
    | some c => readString (r.push c) rest
    | none => none
  | c :: rest => if c.toNat < 0x20 then none else readString (r.push c) rest

/-- The digits at the front and what follows. -/
def digits (text : List Char) : List Char × List Char := text.span Char.isDigit

/-- The whole part of a number: a zero, or digits that do not start with one. -/
def readWhole (text : List Char) : Option (List Char × List Char) :=
  match digits text with
  | ([], _) => none
  | ('0' :: _ :: _, _) => none
  | found => some found

/-- A point with digits behind it, if there is a point. -/
def readFraction (text : List Char) : Option (List Char × List Char) :=
  match text with
  | '.' :: rest =>
    match digits rest with
    | ([], _) => none
    | (ds, rest) => some ('.' :: ds, rest)
  | _ => some ([], text)

/-- An exponent with its digits, if there is one. -/
def readExponent (text : List Char) : Option (List Char × List Char) :=
  match text with
  | e :: rest =>
    if e == 'e' || e == 'E' then
      let (sign, rest) :=
        match rest with
        | '+' :: r => (['+'], r)
        | '-' :: r => (['-'], r)
        | _ => ([], rest)
      match digits rest with
      | ([], _) => none
      | (ds, rest) => some (e :: (sign ++ ds), rest)
    else some ([], text)
  | [] => some ([], [])

/-- Reads a number. -/
def readNumber (text : List Char) : Option (List Char × List Char) := do
  let (sign, rest) :=
    match text with
    | '-' :: r => (['-'], r)
    | _ => ([], text)
  let (whole, rest) ← readWhole rest
  let (fraction, rest) ← readFraction rest
  let (exponent, rest) ← readExponent rest
  return (sign ++ whole ++ fraction ++ exponent, rest)

/-- A value that is a word. -/
def readWord (text : List Char) : Option (Value × List Char) :=
  match text with
  | 'n' :: 'u' :: 'l' :: 'l' :: rest => some (.null, rest)
  | 't' :: 'r' :: 'u' :: 'e' :: rest => some (.bool true, rest)
  | 'f' :: 'a' :: 'l' :: 's' :: 'e' :: rest => some (.bool false, rest)
  | _ => (readNumber text).map fun found => (.number found.1, found.2)

mutual

/-- Reads a value at the front; the first argument bounds the number of nested steps. -/
def readValue : Nat → List Char → Option (Value × List Char)
  | 0, _ => none
  | fuel + 1, text =>
    match skipBlanks text with
    | '"' :: rest => (readString ⟨[], none, true⟩ rest).map fun found => (.string found.1, found.2)
    | '[' :: rest =>
      match skipBlanks rest with
      | ']' :: rest => some (.array [], rest)
      | rest => readElements fuel [] rest
    | '{' :: rest =>
      match skipBlanks rest with
      | '}' :: rest => some (.object [], rest)
      | rest => readMembers fuel [] rest
    | rest => readWord rest

/-- Reads the elements of an array up to its end. -/
def readElements : Nat → List Value → List Char → Option (Value × List Char)
  | 0, _, _ => none
  | fuel + 1, done, text =>
    match readValue fuel text with
    | none => none
    | some (v, rest) =>
      match skipBlanks rest with
      | ',' :: rest => readElements fuel (v :: done) rest
      | ']' :: rest => some (.array (v :: done).reverse, rest)
      | _ => none

/-- Reads the members of an object up to its end. -/
def readMembers : Nat → List (Option (List Char) × Value) → List Char → Option (Value × List Char)
  | 0, _, _ => none
  | fuel + 1, done, text =>
    match skipBlanks text with
    | '"' :: rest =>
      match readString ⟨[], none, true⟩ rest with
      | none => none
      | some (key, rest) =>
        match skipBlanks rest with
        | ':' :: rest =>
          match readValue fuel rest with
          | none => none
          | some (v, rest) =>
            match skipBlanks rest with
            | ',' :: rest => readMembers fuel ((key, v) :: done) rest
            | '}' :: rest => some (.object ((key, v) :: done).reverse, rest)
            | _ => none
        | _ => none
    | _ => none

end

/-- The value that a document holds; none if the text is no document. -/
def read? (text : List Char) : Option Value :=
  match readValue (text.length + 1) text with
  | some (v, rest) => if (skipBlanks rest).isEmpty then some v else none
  | none => none

end SimWorkbench.Json
