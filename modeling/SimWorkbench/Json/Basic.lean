/-!
# JSON values

A JSON document is read into a value that keeps what a schema can ask about: numbers as they were
written, members in order and repeated ones too. A string may hold an escape for half of a
character without its other half; such a string has no text.
-/
namespace SimWorkbench.Json

/-- A JSON value. -/
inductive Value where
  | null
  | bool (value : Bool)
  /-- A number as it was written. -/
  | number (literal : List Char)
  /-- A string; `none` if half a character stands alone in it. -/
  | string (text : Option (List Char))
  | array (elements : List Value)
  | object (members : List (Option (List Char) × Value))
  deriving Repr, Inhabited

def hexDigits : List Char := "0123456789abcdef".toList

/-- How one character is written inside a string. -/
def escape (c : Char) : List Char :=
  if c = '"' then ['\\', '"']
  else if c = '\\' then ['\\', '\\']
  else if c = '\x08' then ['\\', 'b']
  else if c = '\x0c' then ['\\', 'f']
  else if c = '\n' then ['\\', 'n']
  else if c = '\r' then ['\\', 'r']
  else if c = '\t' then ['\\', 't']
  else if c.toNat < 0x20 then
    ['\\', 'u', '0', '0'] ++
      [hexDigits.getD (c.toNat / 16) '0', hexDigits.getD (c.toNat % 16) '0']
  else [c]

/-- A text as a string of the document. -/
def quote (text : List Char) : List Char := '"' :: (text.flatMap escape ++ ['"'])

end SimWorkbench.Json
