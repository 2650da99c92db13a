import SimWorkbench.Shell.Pattern

/-!
# Regular expressions

A regular expression says which pieces of a text match. Here is what it can be built of, and what a
single character or a place in a text has to be.
-/
namespace SimWorkbench

open Shell (Chars)

/-- What holds at a place of a text and takes no character. -/
inductive Border where
  | textStart | textEnd | wordStart | wordEnd
  /-- Either end of a word. -/
  | wordBorder
  /-- Neither end of a word. -/
  | noWordBorder
  deriving DecidableEq, Repr

/-- Some characters, given by ranges of them or by all others. -/
structure CharSet where
  negated : Bool
  ranges : List (Char × Char)
  deriving DecidableEq, Repr

/-- A regular expression. -/
inductive Regex where
  /-- Takes nothing. -/
  | empty
  | oneOf (set : CharSet)
  | border (border : Border)
  | group (number : Nat) (inner : Regex)
  /-- What a group took. -/
  | again (number : Nat)
  | both (first second : Regex)
  | either (first second : Regex)
  | repeated (inner : Regex) (least : Nat) (most : Option Nat)
  deriving Repr

namespace CharSet

def ofChar (c : Char) : CharSet := ⟨false, [(c, c)]⟩

/-- Any character at all. -/
def any : CharSet := ⟨true, []⟩

/-- The characters of words. -/
def word : CharSet := ⟨false, [('a', 'z'), ('A', 'Z'), ('0', '9'), ('_', '_')]⟩

def blank : CharSet := ⟨false, [('\t', '\r'), (' ', ' ')]⟩

def digit : CharSet := ⟨false, [('0', '9')]⟩

def complement (s : CharSet) : CharSet := { s with negated := !s.negated }

/-- Whether a character is in the set; it may be taken for the same letter in the other case. -/
def has (s : CharSet) (folds : Bool) (c : Char) : Bool :=
  let lies (c : Char) : Bool := s.ranges.any fun r => r.1 ≤ c && c ≤ r.2
  (lies c || (folds && (lies c.toLower || lies c.toUpper))) != s.negated

end CharSet

/-- The characters of words. -/
def isWordChar (c : Char) : Bool := CharSet.word.has false c

/-- A text in which matches are looked for. -/
structure Subject where
  chars : Array Char
  /-- Whether letters match in either case. -/
  folds : Bool

namespace Subject

def size (t : Subject) : Nat := t.chars.size

/-- Whether a character of a word stands before a place. -/
def isWordBefore (t : Subject) (place : Nat) : Bool :=
  place ≠ 0 && (t.chars[place - 1]?.map isWordChar).getD false

/-- Whether a character of a word stands behind a place. -/
def isWordBehind (t : Subject) (place : Nat) : Bool := (t.chars[place]?.map isWordChar).getD false

end Subject

/-- Whether a border is at a place. -/
def Border.holds (t : Subject) (place : Nat) : Border → Bool
  | textStart => place = 0
  | textEnd => place = t.size
  | wordStart => !t.isWordBefore place && t.isWordBehind place
  | wordEnd => t.isWordBefore place && !t.isWordBehind place
  | wordBorder => t.isWordBefore place != t.isWordBehind place
  | noWordBorder => t.isWordBefore place == t.isWordBehind place

/-- Whether an expression refers back to a group. -/
def Regex.refersBack : Regex → Bool
  | again _ => true
  | empty | oneOf _ | border _ => false
  | group _ inner | repeated inner _ _ => inner.refersBack
  | both first second | either first second => first.refersBack || second.refersBack

end SimWorkbench
