import SimWorkbench.Regex.Basic

/-!
# Reading regular expressions

In the basic dialect, parentheses, braces and bars are operators behind a backslash; in the others
they are operators without it. Reading goes in two steps: the text becomes symbols, where all faults
are found, and the symbols become an expression.
-/
namespace SimWorkbench

open Shell (Chars characterClasses)

/-- What is wrong with the text of an expression. -/
inductive RegexFault where
  | unfinishedSet | unmatchedBracket | unmatchedOpening | unmatchedClosing | unmatchedBrace
  | badRepetition | tooBig | badRange | unknownClass | unknownElement | loneBackslash
  | unknownGroup
  deriving DecidableEq, Repr

def RegexFault.message : RegexFault → String
  | unfinishedSet => "Invalid regular expression"
  | unmatchedBracket => "Unmatched [, [^, [:, [., or [="
  | unmatchedOpening => "Unmatched ( or \\("
  | unmatchedClosing => "Unmatched ) or \\)"
  | unmatchedBrace => "Unmatched \\\x7b"
  | badRepetition => "Invalid content of \\\x7b\\\x7d"
  | tooBig => "Regular expression too big"
  | badRange => "Invalid range end"
  | unknownClass => "Invalid character class name"
  | unknownElement => "Invalid collation character"
  | loneBackslash => "Trailing backslash"
  | unknownGroup => "Invalid back reference"

/-- What is remarkable about an expression. -/
inductive RegexRemark where
  /-- An operator repeats nothing. -/
  | operatorAtStart (name : String)
  /-- A class lacks its outer brackets; such an expression is not used. -/
  | bareClass
  /-- Braces behind a border hold no repetition; such an expression is not used. -/
  | badBraces
  deriving DecidableEq, Repr

def RegexRemark.message : RegexRemark → String
  | badBraces => "invalid content of \\\x7b\\\x7d"
  | operatorAtStart name => name ++ " at start of expression"
  | bareClass => "character class syntax is [[:space:]], not [:space:]"

/-- How expressions are written. -/
inductive Dialect where
  | basic
  | extended
  /-- Extended, with digits and some characters as letters behind a backslash. -/
  | perl
  deriving DecidableEq, Repr

/-- The largest number of repetitions. -/
def maxRepetitions : Nat := 32767

/-- What stands for characters in a set. -/
inductive SetElement where
  | char (c : Char)
  /-- A character by its name. -/
  | named (name : Chars)
  | ofClass (name : Chars)
  /-- All characters that are sorted where a named one is. -/
  | sameAs (name : Chars)
  deriving Repr

/-- The characters of a class. -/
def classRanges (name : Chars) : Option (List (Char × Char)) :=
  (characterClasses.find? fun row => row.1.toList = name).map fun row =>
    ((List.range 128).map Char.ofNat).filterMap fun c => if row.2 c then some (c, c) else none

/-- The characters that an element stands for. -/
def SetElement.ranges : SetElement → Except RegexFault (List (Char × Char))
  | char c => .ok [(c, c)]
  | named [c] | sameAs [c] => .ok [(c, c)]
  | named _ | sameAs _ => .error .unknownElement
  | ofClass name =>
    match classRanges name with
    | some ranges => .ok ranges
    | none => .error .unknownClass

/-- The one character that an element is as an end of a range. -/
def SetElement.bound : SetElement → Except RegexFault Char
  | char c | named [c] => .ok c
  | named _ => .error .unknownElement
  | ofClass _ | sameAs _ => .error .badRange

/-- A name up to its closing mark, which a bracket follows, and what is behind that. The name is
given last character first. -/
def readElementName (mark : Char) : Chars → Chars → Except RegexFault (Chars × Chars)
  | name, c :: d :: rest =>
    if c = mark && d = ']' then .ok (name.reverse, rest)
    else if 31 ≤ name.length then .error .unmatchedBracket
    else readElementName mark (c :: name) (d :: rest)
  | _, _ => .error .unmatchedBracket

/-- The element at the front of a set, and what is behind it. `isFirst` says whether a hyphen may
stand there before other elements. -/
def readElement (isFirst : Bool) (text : Chars) : Except RegexFault (SetElement × Chars) :=
  match text with
  | '[' :: ':' :: rest =>
    (readElementName ':' [] rest).map fun (name, rest) => (.ofClass name, rest)
  | '[' :: '=' :: rest =>
    (readElementName '=' [] rest).map fun (name, rest) => (.sameAs name, rest)
  | '[' :: '.' :: rest =>
    (readElementName '.' [] rest).map fun (name, rest) => (.named name, rest)
  | '-' :: rest =>
    if isFirst || rest.head? = some ']' then .ok (.char '-', rest) else .error .badRange
  | c :: rest => .ok (.char c, rest)
  | [] => .error .unmatchedBracket

/-- The ranges of a set up to its closing bracket, and what is behind it. A bracket that comes first
is an element. The number bounds the elements. -/
def readRanges : Nat → Bool → List (Char × Char) → Chars →
    Except RegexFault (List (Char × Char) × Chars)
  | 0, _, _, _ => .error .unmatchedBracket
  | n + 1, isFirst, ranges, text => do
    let (element, rest) ← readElement isFirst text
    let isSingle : Bool := match element with
      | .char _ | .named _ => true
      | _ => false
    let isRange : Bool := isSingle && rest.head? = some '-' && rest.tail.head? ≠ some ']'
    if isSingle && (rest.isEmpty || rest = ['-']) then throw .unmatchedBracket else pure ()
    let (found, rest) ← if isRange then do
        let (last, rest) ← readElement true rest.tail
        let low ← element.bound
        let high ← last.bound
        if low ≤ high then pure ([(low, high)], rest) else throw .badRange
      else do
        let found ← element.ranges
        pure (found, rest)
    match rest with
    | [] => throw .unmatchedBracket
    | ']' :: rest => return (ranges ++ found, rest)
    | rest => readRanges n false (ranges ++ found) rest

/-- Whether a set is written as a class is that lacks its outer brackets. -/
def isBareClass (text : Chars) : Bool :=
  let text := if text.head? = some '^' then text.tail else text
  let inner := text.takeWhile (· ≠ ']')
  inner.head? = some ':' && inner.getLast? = some ':' && inner.any (· ≠ ':') &&
    !(inner.drop 1).dropLast.contains '-' && !inner.contains '['

/-- A set behind its opening bracket, and what is behind it. -/
def readSet (text : Chars) : Except RegexFault (CharSet × Chars) :=
  let negated := text.head? = some '^'
  let inner := if negated then text.tail else text
  if inner.isEmpty then .error .unfinishedSet
  else (readRanges (inner.length + 1) true [] inner).map fun (ranges, rest) =>
    (⟨negated, ranges⟩, rest)

/-- A piece of an expression as it is written. -/
inductive RegexSymbol where
  | oneOf (set : CharSet)
  | border (border : Border)
  | opening (number : Nat)
  | closing
  | bar
  | again (number : Nat)
  | repetition (least : Nat) (most : Option Nat)
  deriving Repr

/-- How far the symbols of an expression have been read. -/
structure SymbolState where
  /-- Whether there is nothing yet that could be repeated, borders apart. -/
  atStart : Bool
  /-- Whether an alternative begins right here. -/
  isFresh : Bool
  groups : Nat
  /-- The groups that are open, innermost first, and those that are closed. -/
  unfinished : List Nat
  closed : List Nat
  /-- Whether the last symbol was a border, behind which nothing is repeated. -/
  afterBorder : Bool

/-- What stands between braces. -/
inductive Braces where
  | repetition (least : Nat) (most : Option Nat) (rest : Chars)
  /-- No repetition, so that the brace is a character. -/
  | ordinary
  | fault (fault : RegexFault)

/-- A number in braces up to a comma or the closing: none if it is empty. The text that follows
begins with the comma or the closing. -/
def readCount (closing : Chars) : Nat → Chars → Chars → Option (Except Unit (Option Nat) × Chars)
  | 0, _, _ => none
  | _, _, [] => none
  | n + 1, digits, c :: rest =>
    if c = ',' || closing.isPrefixOf (c :: rest) then
      let value : Except Unit (Option Nat) :=
        if digits.isEmpty then .ok none
        else if digits.all Char.isDigit then
          .ok (some (min (maxRepetitions + 1)
            (digits.reverse.foldl (fun m d => 10 * m + (d.toNat - 48)) 0)))
        else .error ()
      some (value, c :: rest)
    else readCount closing n (c :: digits) rest

/-- Reads what is behind an opening brace. -/
def readBraces (dialect : Dialect) (text : Chars) : Braces :=
  let closing : Chars := if dialect = .basic then ['\\', '}'] else ['}']
  let invalid (atEnd : Bool) : Braces :=
    match dialect with
    | .basic => .fault (if atEnd then .unmatchedBrace else .badRepetition)
    | .extended | .perl => .ordinary
  let finish (least : Nat) (most : Option Nat) (rest : Chars) : Braces :=
    if (most.map fun m => decide (m < least)).getD false then .fault .badRepetition
    else if maxRepetitions < most.getD least then .fault .tooBig
    else .repetition least most (rest.drop closing.length)
  match readCount closing (text.length + 1) [] text with
  | none => invalid true
  | some (.error (), _) => invalid false
  | some (.ok least, rest) =>
    if rest.head? = some ',' then
      match readCount closing (text.length + 1) [] rest.tail with
      | none => invalid true
      | some (.error (), _) => invalid false
      | some (.ok most, rest) =>
        if closing.isPrefixOf rest then finish (least.getD 0) most rest
        else .fault .badRepetition
    else
      match least with
      | none => .fault .badRepetition
      | some least => finish least (some least) rest

/-- The borders that are written as letters behind a backslash. -/
def borderLetters : List (Char × Border) :=
  [('<', .wordStart), ('>', .wordEnd), ('b', .wordBorder), ('B', .noWordBorder),
   ('\x60', .textStart), ('\'', .textEnd)]

/-- The sets that are written as letters behind a backslash. -/
def setLetters (dialect : Dialect) : List (Char × CharSet) :=
  let all := [('w', CharSet.word), ('W', .complement .word), ('s', .blank),
    ('S', .complement .blank)]
  let more := [('d', CharSet.digit), ('D', .complement .digit), ('t', .ofChar '\t'),
    ('n', .ofChar '\n'), ('r', .ofChar '\r'), ('h', ⟨false, [('\t', '\t'), (' ', ' ')]⟩)]
  if dialect = .perl then all ++ more else all

/-- What stands at the front of the text of an expression, wherever that is. -/
inductive RegexToken where
  | oneOf (set : CharSet)
  /-- A set written as a class is that lacks its outer brackets. -/
  | bareClass (set : CharSet)
  | border (border : Border)
  | caret | dollar
  | opening | closing | bar
  | again (number : Nat)
  /-- Repeats what is before it, if there is anything. -/
  | operator (sign : Char) (least : Nat) (most : Option Nat)
  | brace

/-- The operators that have a backslash in the basic dialect and none in the others. -/
def signToken : Char → RegexToken
  | '(' => .opening
  | ')' => .closing
  | '|' => .bar
  | '{' => .brace
  | '+' => .operator '+' 1 none
  | '?' => .operator '?' 0 (some 1)
  | c => .oneOf (.ofChar c)

/-- What a character behind a backslash is. -/
def escapedToken (dialect : Dialect) (c : Char) : RegexToken :=
  match borderLetters.lookup c, (setLetters dialect).lookup c with
  | some b, _ => .border b
  | none, some set => .oneOf set
  | none, none =>
    if '1' ≤ c && c ≤ '9' then .again (c.toNat - 48)
    else if dialect = .basic then signToken c
    else .oneOf (.ofChar c)

/-- What stands at the front of a text, and what follows it. -/
def readToken (dialect : Dialect) : Char → Chars → Except RegexFault (RegexToken × Chars)
  | '\\', [] => .error .loneBackslash
  | '\\', c :: rest => .ok (escapedToken dialect c, rest)
  | '[', rest => do
    let (set, behind) ← readSet rest
    return (if isBareClass rest then .bareClass set else .oneOf set, behind)
  | '.', rest => .ok (.oneOf .any, rest)
  | '*', rest => .ok (.operator '*' 0 none, rest)
  | '^', rest => .ok (.caret, rest)
  | '$', rest => .ok (.dollar, rest)
  | c, rest => .ok (if dialect = .basic then .oneOf (.ofChar c) else signToken c, rest)

/-- Whether a dollar sign before a text is the end of an alternative. -/
def isBeforeEnd (dialect : Dialect) (rest : Chars) : Bool :=
  dialect ≠ .basic || rest.isEmpty || "\\)".toList.isPrefixOf rest || "\\|".toList.isPrefixOf rest

/-- Symbols, and remarks on them for the user. -/
abbrev Symbols := List RegexSymbol × List RegexRemark

/-- Reads the symbols of an expression. Where nothing can be repeated, operators are characters in
the basic dialect, and the others make a remark. If the expression is to tell where matches lie, an
operator counts for nothing at the start of an alternative or behind a border, where the first step
from text to symbols allows it; a brace there counts for nothing even if it is no operator. The
number bounds the symbols. -/
def readSymbols (dialect : Dialect) (forPlaces : Bool) :
    Nat → SymbolState → Chars → Except RegexFault Symbols
  | 0, _, _ => .ok ([], [])
  | _, s, [] => if s.unfinished.isEmpty then .ok ([], []) else .error .unmatchedOpening
  | n + 1, s, c :: rest => do
    let (token, rest) ← readToken dialect c rest
    let inside := { s with atStart := false, isFresh := false, afterBorder := false }
    let fresh := { inside with atStart := true, isFresh := true }
    let symbol (symbol : RegexSymbol) (s : SymbolState) (rest : Chars) :
        Except RegexFault Symbols := do
      let (symbols, remarks) ← readSymbols dialect forPlaces n s rest
      return (symbol :: symbols, remarks)
    let ordinary (c : Char) : Except RegexFault Symbols :=
      symbol (.oneOf (.ofChar c)) inside rest
    let border (b : Border) : Except RegexFault Symbols :=
      symbol (.border b) { s with isFresh := false, afterBorder := true } rest
    let repetition (name : String) (s' : SymbolState) (least : Nat) (most : Option Nat)
        (rest : Chars) : Except RegexFault Symbols := do
      let (symbols, remarks) ← readSymbols dialect forPlaces n s' rest
      return (.repetition least most :: symbols,
        if s.atStart then .operatorAtStart name :: remarks else remarks)
    let isLiteral : Bool := s.atStart && dialect = .basic
    let isVain : Bool := forPlaces && (s.isFresh || s.afterBorder)
    match token with
    | .oneOf set => symbol (.oneOf set) inside rest
    | .bareClass set =>
      let (symbols, remarks) ← symbol (.oneOf set) inside rest
      return (symbols, .bareClass :: remarks)
    | .border b => border b
    | .caret => if dialect ≠ .basic || s.isFresh then border .textStart else ordinary '^'
    | .dollar => if isBeforeEnd dialect rest then border .textEnd else ordinary '$'
    | .opening =>
      let isNameless : Bool := dialect = .perl && "?:".toList.isPrefixOf rest
      let number := if isNameless then 0 else s.groups + 1
      symbol (.opening number)
        { fresh with groups := max number s.groups, unfinished := number :: s.unfinished }
        (if isNameless then rest.drop 2 else rest)
    | .closing =>
      match s.unfinished with
      | [] => if dialect = .basic then throw .unmatchedClosing else ordinary ')'
      | number :: others =>
        symbol .closing { inside with unfinished := others, closed := number :: s.closed } rest
    | .bar => symbol .bar fresh rest
    | .again number =>
      if s.closed.contains number then symbol (.again number) inside rest
      else throw .unknownGroup
    | .operator sign least most =>
      let next := { inside with atStart := s.atStart }
      if isVain && dialect ≠ .basic then readSymbols dialect forPlaces n s rest
      else if isLiteral || isVain then ordinary sign
      else repetition (String.singleton sign) next least most rest
    | .brace =>
      if isVain then
        if dialect = .basic then ordinary '{' else readSymbols dialect forPlaces n s rest
      else
      match readBraces dialect rest, isLiteral with
      | .repetition least most rest, false => repetition "\x7b...\x7d" inside least most rest
      | .fault fault, false =>
        if s.atStart then ordinary '{'
        else if s.afterBorder then
          let (symbols, remarks) ← ordinary '{'
          return (symbols, if dialect = .basic then .badBraces :: remarks else remarks)
        else throw fault
      | _, _ => ordinary '{'

/-- A group whose end has not been reached: the alternatives before the last bar, and the pieces
behind it, last first. -/
structure OpenGroup where
  number : Nat
  before : Option Regex
  pieces : List Regex

namespace OpenGroup

/-- What the group means if it ends here. -/
def close (g : OpenGroup) : Regex :=
  let last := g.pieces.reverse.foldr Regex.both .empty
  match g.before with
  | some before => .either before last
  | none => last

def push (r : Regex) (g : OpenGroup) : OpenGroup := { g with pieces := r :: g.pieces }

end OpenGroup

/-- Adds a symbol to the groups that are open, the innermost of which is `g`. -/
def OpenGroup.add (state : OpenGroup × List OpenGroup) (symbol : RegexSymbol) :
    OpenGroup × List OpenGroup :=
  let (g, outer) := state
  match symbol with
  | .oneOf set => (g.push (.oneOf set), outer)
  | .border b => (g.push (.border b), outer)
  | .again n => (g.push (.again n), outer)
  | .bar => ({ g with before := some g.close, pieces := [] }, outer)
  | .opening n => (⟨n, none, []⟩, g :: outer)
  | .closing =>
    match outer with
    | [] => (g, outer)
    | up :: outer => (up.push (.group g.number g.close), outer)
  | .repetition least most =>
    match g.pieces with
    | [] => (g, outer)
    | piece :: pieces => ({ g with pieces := .repeated piece least most :: pieces }, outer)

/-- Reads an expression, perhaps one that is to tell where matches lie; gives it with remarks for the
user. -/
def Regex.read (dialect : Dialect) (forPlaces : Bool) (text : Chars) :
    Except RegexFault (Regex × List RegexRemark) :=
  (readSymbols dialect forPlaces (text.length + 1) ⟨true, true, 0, [], [], false⟩ text).map
    fun (symbols, remarks) => ((symbols.foldl OpenGroup.add (⟨0, none, []⟩, [])).1.close, remarks)

/-- The expression that matches a text and nothing else. -/
def Regex.ofText (text : Chars) : Regex :=
  text.foldr (fun c r => .both (.oneOf (.ofChar c)) r) .empty

end SimWorkbench
