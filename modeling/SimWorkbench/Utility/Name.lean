import SimWorkbench.Shell.State

/-!
# Names in messages

Utilities name files so that the name could be given to the command language. A name is quoted if it
has a character with a meaning there; characters that cannot be printed are written as escapes in
quotes of their own.
-/
namespace SimWorkbench.Utility

open Shell

/-- Whether a character at some place makes quotes necessary. -/
def needsQuotes (name : Chars) (place : Nat) (c : Char) : Bool :=
  if c == '{' || c == '}' then name.length = 1
  else if c == '#' || c == '~' then place = 0
  else c < ' ' || '~' < c || " !\"$&'()*:;<=>?[\\^`|".toList.contains c

/-- Whether a character means the same in both kinds of quotes. -/
def isPlainInBoth (name : Chars) (place : Nat) (c : Char) : Bool :=
  if c == '{' || c == '}' then name.length = 1
  else if c == '#' || c == '~' then place = 0
  else c.isAlphanum || " '%+,-./:]_@".toList.contains c

/-- The escape for a character that cannot be printed. -/
def escapeOf? (c : Char) : Option Chars :=
  let letters : List (Char × Char) :=
    [('\x07', 'a'), ('\x08', 'b'), ('\x0c', 'f'), ('\n', 'n'), ('\r', 'r'), ('\t', 't'),
     ('\x0b', 'v')]
  match letters.lookup c with
  | some letter => some ['\\', letter]
  | none =>
    if c < ' ' || '~' < c then
      let digits := Nat.toDigits 8 c.toNat
      some ('\\' :: List.replicate (3 - digits.length) '0' ++ digits)
    else none

/-- The characters between the outer quotes; `inEscape` says whether quotes for escapes are open. -/
def quotedBody : Bool → Chars → Chars
  | _, [] => []
  | inEscape, c :: rest =>
    match escapeOf? c with
    | some text => (if inEscape then text else "'$'".toList ++ text) ++ quotedBody true rest
    | none =>
      if c == '\'' then "'\\''".toList ++ quotedBody false rest
      else (if inEscape then ['\'', '\''] else []) ++ c :: quotedBody false rest

/-- A name in quotes. A name that ends in an escape and has single quotes too begins with empty
quotes. -/
def quoted (name : Chars) : Chars :=
  let isPlain := name.zipIdx.all fun x => isPlainInBoth name x.2 x.1
  if name.contains '\'' && isPlain then '"' :: name ++ ['"']
  else
    let inEscape := name.contains '\'' && (name.getLast?.bind escapeOf?).isSome
    '\'' :: quotedBody inEscape name ++ ['\'']

/-- A name, in quotes if it needs them. -/
def quotedIfNeeded (name : Chars) : Chars :=
  if name.isEmpty || name.zipIdx.any fun x => needsQuotes name x.2 x.1 then quoted name else name

end SimWorkbench.Utility
