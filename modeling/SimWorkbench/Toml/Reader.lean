import SimWorkbench.Toml.Scalar

/-!
# Reading TOML

A document is a sequence of lines: blank, a comment, a header, or a key with its value. Values may
be nested up to a depth; a document that breaks any rule is refused as a whole.
-/
namespace SimWorkbench.Toml

/-- A reader that may refuse. -/
abbrev Read := StateT (List Char) Option

namespace Read

/-- Takes something from the front. -/
def front {α : Type} (f : Front α) : Read α := fun text => f text

/-- Goes on behind a character if it comes next. -/
def accept (c : Char) : Read Bool := fun text =>
  match text with
  | d :: rest => if c == d then some (true, rest) else some (false, text)
  | [] => some (false, [])

def expect (c : Char) : Read Unit := front (mark c)

/-- Skips blanks. -/
def blanks : Read Unit := modify fun text => text.dropWhile fun c => c == ' ' || c == '\t'

/-- Repeats a reader until it gives nothing. -/
def many {α : Type} (read : Read (Option α)) : Nat → Read (List α)
  | 0 => failure
  | n + 1 => do
    match ← read with
    | none => return []
    | some a => return a :: (← many read n)

/-- Repeats a reader as long as there is text. -/
def repeated {α : Type} (read : Read (Option α)) : Read (List α) := do
  many read ((← get).length + 2)

/-- Skips a comment. -/
def comment : Read Unit := modify fun text =>
  match text with
  | '#' :: rest => rest.dropWhile isPlain
  | _ => text

/-- Goes on behind a line end. -/
def newline : Read Bool := do
  match lineEnd? (← get) with
  | some rest => set rest; return true
  | none => return false

/-- Skips blanks, comments and line ends. -/
def gaps : Read Unit := do
  let step : Read (Option Unit) := do
    let before := (← get).length
    blanks
    comment
    discard newline
    return if (← get).length < before then some () else none
  discard (repeated step)

/-- The end of a line: blanks and a comment may stand in front. -/
def lineTail : Read Unit := do
  blanks
  comment
  unless (← get).isEmpty do
    unless ← newline do failure

end Read

open Read

/-- A character of a key without quotes. -/
def isBareKey (c : Char) : Bool := c.isAlphanum || c == '_' || c == '-'

/-- One part of a key. -/
def simpleKey : Read String := do
  match ← get with
  | '"' :: rest => set rest; front (basicBody (rest.length + 1) [])
  | '\'' :: rest => set rest; front literalBody
  | text =>
    match text.takeWhile isBareKey with
    | [] => failure
    | name => set (text.drop name.length); return String.ofList name

/-- How deep values and keys may be nested. -/
def depthLimit : Nat := 80

/-- A key: all parts but the last, and the last. -/
def key : Read (List String × String) := do
  let part : Read String := do
    blanks
    let name ← simpleKey
    blanks
    return name
  let first ← part
  let more ← repeated do
    if ← accept '.' then return some (← part) else return none
  let parts := first :: more
  if depthLimit ≤ parts.length then failure
  return (parts.dropLast, parts.getLastD first)

/-- Members that commas separate, up to a closing bracket. -/
def arrayItems (item : Read Node) : Read (List Node) := do
  gaps
  if ← accept ']' then return []
  let first ← item
  gaps
  let more ← repeated do
    if ← accept ',' then
      gaps
      if (← get).head? = some ']' then return none
      let next ← item
      gaps
      return some next
    else return none
  expect ']'
  return first :: more

/-- Keys with their values in braces, which commas separate and none follows. -/
def inlineMembers (item : Read Node) : Read Members := do
  let member : Read (List String × String × Node) := do
    let (path, name) ← key
    expect '='
    blanks
    let value ← item
    blanks
    return (path, name, value)
  blanks
  if ← accept '\x7d' then return []
  let first ← member
  let more ← repeated do
    if ← accept ',' then return some (← member) else return none
  expect '\x7d'
  let add (ms : Members) (m : List String × String × Node) : Option Members :=
    ms.insert m.1 m.2.1 m.2.2 .explicit
  match (first :: more).foldlM add [] with
  | some ms => return ms
  | none => failure

/-- A value; arrays and tables take their members from the reader given, if there is one. -/
def valueOver (item : Option (Read Node)) : Read Node := do
  match ← get with
  | '"' :: _ | '\'' :: _ => return .scalar (.text (← front string))
  | '[' :: rest =>
    set rest
    return .array (← arrayItems (← item))
  | '\x7b' :: rest =>
    set rest
    return .table ⟨false, false, true⟩ (← inlineMembers (← item))
  | _ => return .scalar (← front bareScalar)

/-- A value in which arrays and tables are nested up to a depth. -/
def value : Nat → Read Node
  | 0 => valueOver none
  | depth + 1 => valueOver (some (value depth))

/-- A document under way: its tables, and the header that lines belong to. -/
structure Draft where
  members : Members
  header : List String

/-- Refuses where nothing came out. -/
def orFail {α : Type} : Option α → Read α
  | some a => return a
  | none => failure

/-- A header in one or two pairs of brackets, behind the first one. -/
def header (d : Draft) : Read Draft := do
  let several ← accept '['
  let (path, name) ← key
  expect ']'
  if several then expect ']'
  lineTail
  let members ← orFail
    (if several then d.members.beginElement path name else d.members.beginTable path name)
  return ⟨members, path ++ [name]⟩

/-- A key with its value. -/
def member (d : Draft) : Read Draft := do
  let (path, name) ← key
  expect '='
  blanks
  let node ← value (depthLimit - 1)
  lineTail
  let members ← orFail <|
    d.members.descend false (fun standing inner => inner.insert path name node standing)
      .explicit d.header
  return { d with members := members }

/-- The lines of a document, one after the other. The number bounds them. -/
def lines : Nat → Draft → Read Draft
  | 0, _ => failure
  | n + 1, d => do
    blanks
    match ← get with
    | [] => return d
    | '#' :: _ => lineTail; lines n d
    | '[' :: rest => set rest; lines n (← header d)
    | '\n' :: _ | '\r' :: _ =>
      if ← newline then lines n d else failure
    | _ => lines n (← member d)

/-- The members of a document; none if it is malformed. -/
def parse? (text : List Char) : Option Members :=
  let body := match text with
    | '\uFEFF' :: rest => rest
    | _ => text
  ((lines (body.length + 1) ⟨[], []⟩).run body).map fun r => r.1.members

end SimWorkbench.Toml
