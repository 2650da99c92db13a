import SimWorkbench.Shell.Syntax

/-!
# Patterns

A pattern is a list of items, each of which takes characters from the front of a text; it matches a
text of which nothing is left. Characters of a pattern that were quoted stand for themselves, and a
backslash quotes the character behind it.
-/
namespace SimWorkbench.Shell

/-- Characters that a set has in it. -/
inductive Member where
  | range (low high : Char)
  /-- A class, known by its name. -/
  | ofClass (name : String)
  deriving DecidableEq, Repr

/-- The names of the classes of characters, with what belongs to them. -/
def characterClasses : List (String × (Char → Bool)) :=
  [("alnum", Char.isAlphanum), ("alpha", Char.isAlpha),
   ("blank", fun c => c == ' ' || c == '\t'),
   ("cntrl", fun c => c < ' ' || c == '\x7f'), ("digit", Char.isDigit),
   ("graph", fun c => '!' ≤ c && c ≤ '~'), ("lower", Char.isLower),
   ("print", fun c => ' ' ≤ c && c ≤ '~'),
   ("punct", fun c => '!' ≤ c && c ≤ '~' && !c.isAlphanum),
   ("space", fun c => c == ' ' || ('\t' ≤ c && c ≤ '\r')), ("upper", Char.isUpper),
   ("xdigit", fun c => c.isDigit || ('a' ≤ c && c ≤ 'f') || ('A' ≤ c && c ≤ 'F'))]

/-- The number of a byte that counts as negative from 128 on. -/
def signedByte (c : Char) : Int := if c.toNat < 128 then c.toNat else c.toNat - 256

def Member.has (c : Char) : Member → Bool
  | range low high => signedByte low ≤ signedByte c && signedByte c ≤ signedByte high
  | ofClass name => ((characterClasses.lookup name).map fun f => f c).getD false

/-- What takes characters from the front of a text. -/
inductive Item where
  | char (c : Char)
  | any
  | oneOf (negated : Bool) (members : List Member)
  /-- Takes any number of characters. -/
  | many
  deriving DecidableEq, Repr

/-- Whether an item takes a character. -/
def Item.takes (c : Char) : Item → Bool
  | char d => c == d
  | any => true
  | oneOf negated members => (members.any fun m => m.has c) != negated
  | many => true

/-- Whether the items take the whole text, one after the other. -/
def Item.matchesAll : List Item → Chars → Bool
  | [], text => text.isEmpty
  | .many :: items, [] => matchesAll items []
  | .many :: items, c :: text => matchesAll items (c :: text) || matchesAll (.many :: items) text
  | _ :: _, [] => false
  | item :: items, c :: text => item.takes c && matchesAll items text
  termination_by items text => items.length + text.length

/-- A character of a pattern, and whether it stands for itself. -/
abbrev Mark := Char × Bool

/-- The pattern in which unquoted backslashes have quoted what is behind them. -/
def unescaped : List Mark → List Mark
  | ('\\', false) :: (c, _) :: rest => (c, true) :: unescaped rest
  | x :: rest => x :: unescaped rest
  | [] => []

/-- The class whose name stands behind an opening bracket, and what follows it. -/
def readClass (text : List Mark) : Option (String × List Mark) :=
  characterClasses.findSome? fun row =>
    let spelled := (":".toList ++ row.1.toList ++ ":]".toList).map fun c => (c, false)
    if spelled.isPrefixOf text then some (row.1, text.drop spelled.length) else none

/-- The members up to the closing bracket, and what follows it; none if there is no such bracket.
The first character is a member even if it is a bracket. -/
def readMembers : Nat → List Member → List Mark → Option (List Member × List Mark)
  | 0, _, _ => none
  | _, _, [] => none
  | n + 1, done, (c, quoted) :: rest =>
    let goOn (members : List Member) (rest : List Mark) : Option (List Member × List Mark) :=
      match rest with
      | (']', false) :: after => some (members, after)
      | _ => readMembers n members rest
    match if c == '[' && !quoted then readClass rest else none with
    | some (name, after) => goOn (.ofClass name :: done) after
    | none =>
      match rest with
      | ('-', false) :: (']', false) :: _ => goOn (.range c c :: done) rest
      | ('-', false) :: (d, _) :: after => goOn (.range c d :: done) after
      | _ => goOn (.range c c :: done) rest

/-- A set behind its opening bracket. -/
def readSet (text : List Mark) : Option (Item × List Mark) :=
  let (negated, body) := match text with
    | ('!', false) :: rest => (true, rest)
    | _ => (false, text)
  (readMembers (body.length + 1) [] body).map fun r => (.oneOf negated r.1, r.2)

/-- The items of a pattern without backslashes. -/
def itemsOf : Nat → List Mark → List Item
  | 0, _ => []
  | _, [] => []
  | n + 1, (c, true) :: rest => .char c :: itemsOf n rest
  | n + 1, ('*', false) :: rest => .many :: itemsOf n rest
  | n + 1, ('?', false) :: rest => .any :: itemsOf n rest
  | n + 1, ('[', false) :: rest =>
    match readSet rest with
    | some (item, after) => item :: itemsOf n after
    | none => .char '[' :: itemsOf n rest
  | n + 1, (c, false) :: rest => .char c :: itemsOf n rest

/-- The items of a pattern. -/
def wildcards (pattern : List Mark) : List Item := itemsOf (pattern.length + 1) (unescaped pattern)

/-- Whether a closing bracket stands behind the first character of a set and before any slash. -/
def closesSet (text : List Mark) : Bool :=
  let body := match text with
    | ('!', false) :: rest => rest
    | _ => text
  match body with
  | [] | ('/', _) :: _ => false
  | _ :: rest => (rest.takeWhile fun x => x.1 != '/').any fun x => x == (']', false)

/-- Whether a pattern without backslashes asks for names of files. -/
def asksForNames : List Mark → Bool
  | [] => false
  | ('*', false) :: _ | ('?', false) :: _ => true
  | ('[', false) :: rest => closesSet rest || asksForNames rest
  | _ :: rest => asksForNames rest

end SimWorkbench.Shell
