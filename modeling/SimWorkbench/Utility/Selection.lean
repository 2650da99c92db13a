import SimWorkbench.Regex.Match
import SimWorkbench.Shell.Number

/-!
# Selected lines

Lines of a text are selected if they have a match, or if they have none. Here is how the selected
lines are found and shown, with lines around them or with nothing but the matches.
-/
namespace SimWorkbench.Utility

open Shell

/-- What is looked for. -/
structure Query where
  /-- The expressions of which a line has to match one. -/
  expressions : List Regex
  /-- The expressions that tell where matches lie. -/
  places : List Regex
  /-- Whether letters match in either case. -/
  folds : Bool
  /-- Whether lines without a match are selected. -/
  inverts : Bool
  /-- Whether only whole lines match. -/
  wholeLines : Bool
  /-- Whether only whole words match. -/
  wholeWords : Bool

/-- A line, its number, and the number of bytes before it. -/
structure Line where
  text : Chars
  number : Nat
  offset : Nat

/-- The lines of a text. A line ends at each of some characters. -/
def linesOf (ends : Char → Bool) (text : Chars) : List Line :=
  let close (lines : List Line) (current : Chars) : List Line :=
    let (number, offset) := match lines with
      | last :: _ => (last.number + 1, last.offset + last.text.length + 1)
      | [] => (1, 0)
    ⟨current.reverse, number, offset⟩ :: lines
  let (lines, current) := text.foldl
    (fun (acc : List Line × Chars) c =>
      if ends c then (close acc.1 acc.2, []) else (acc.1, c :: acc.2)) ([], [])
  (if current.isEmpty then lines else close lines current).reverse

namespace Query

/-- The matcher of several expressions together. -/
def matcherOf (expressions : List Regex) (t : Subject) : Matcher :=
  let matchers := expressions.map fun r => r.matcher t
  fun places => matchers.foldl (fun set m => set ||| m places) 0

def subject (q : Query) (text : Chars) : Subject := ⟨text.toArray, q.folds⟩

/-- Whether a match may lie between two places. -/
def accepts (q : Query) (t : Subject) (first last : Nat) : Bool :=
  if q.wholeLines then first = 0 && last = t.size
  else !q.wholeWords || (!t.isWordBefore first && !t.isWordBehind last)

/-- The first match from a place on, and of those that begin there the longest. -/
def firstMatch (q : Query) (t : Subject) (m : Matcher) (start : Nat) : Option (Nat × Nat) :=
  let places := (List.range' start (t.size + 1 - start)).foldl (fun set n => set ||| 1 <<< n) 0
  if m places = 0 then none
  else (List.range' start (t.size + 1 - start)).findSome? fun first =>
    ((placesIn t (m (1 <<< first))).reverse.find? fun last => q.accepts t first last).map
      fun last => (first, last)

/-- Whether a line has a match. -/
def isMatch (q : Query) (text : Chars) : Bool :=
  let t := q.subject text
  let m := matcherOf q.expressions t
  if q.wholeLines then (m 1).testBit t.size
  else if q.wholeWords then (q.firstMatch t m 0).isSome
  else m (1 <<< (t.size + 1) - 1) ≠ 0

def selects (q : Query) (line : Line) : Bool := q.isMatch line.text != q.inverts

/-- The matches in a line that are not empty, from a place on. The number bounds their count. -/
def matchesFrom (q : Query) (t : Subject) (m : Matcher) : Nat → Nat → List (Nat × Nat)
  | 0, _ => []
  | n + 1, start =>
    match q.firstMatch t m start with
    | none => []
    | some (first, last) =>
      if t.size ≤ first then []
      else if first < last then (first, last) :: matchesFrom q t m n last
      else matchesFrom q t m n (first + 1)

def matchesIn (q : Query) (text : Chars) : List (Nat × Nat) :=
  let t := q.subject text
  matchesFrom q t (matcherOf q.places t) (t.size + 1) 0

end Query

/-- How lines are shown. -/
structure Layout where
  /-- The name in front of each line. -/
  label : Option Chars
  numbers : Bool
  offsets : Bool
  /-- How wide numbers are at least. -/
  width : Nat
  /-- Whether a tab stands between what is in front and the line. -/
  tabs : Bool
  /-- Whether a zero stands behind names. -/
  zeros : Bool
  colors : Bool
  lineEnd : Char
  /-- Whether only the matches are shown. -/
  onlyMatches : Bool

namespace Layout

/-- A text in a color. -/
def paint (l : Layout) (color : String) (text : Chars) : Chars :=
  if l.colors then
    "\x1b[".toList ++ color.toList ++ "m\x1b[K".toList ++ text ++ "\x1b[m\x1b[K".toList
  else text

def separator (l : Layout) (text : Chars) : Chars := l.paint "36" text

/-- A name, and what stands behind it. -/
def name (l : Layout) (label sign : Chars) : Chars :=
  l.paint "35" label ++ (if l.zeros then ['\x00'] else if sign = ['\n'] then sign
    else l.separator sign)

/-- What stands in front of a line or a match. -/
def front (l : Layout) (sign : Char) (number offset : Nat) (isFilled : Bool) : Chars :=
  let count (n : Nat) : Chars :=
    let digits := decimal n
    l.paint "32" (List.replicate (l.width - digits.length) ' ' ++ digits) ++ l.separator [sign]
  let label := match l.label with
    | some label => l.name label [sign]
    | none => []
  label ++ (if l.numbers then count number else []) ++ (if l.offsets then count offset else []) ++
    if l.tabs && isFilled && (l.label.isSome || l.numbers || l.offsets) then ['\t'] else []

/-- A line in which matches from a place on have a color. -/
def painted (l : Layout) (text : Chars) : Nat → List (Nat × Nat) → Chars
  | place, [] => text.drop place
  | place, (first, last) :: more =>
    (text.take first).drop place ++ l.paint "01;31" ((text.take last).drop first) ++
      painted l text last more

/-- What is shown of a line; `isSelected` says whether it is one of those looked for. -/
def line (l : Layout) (q : Query) (isSelected : Bool) (line : Line) : Chars :=
  let sign := if isSelected then ':' else '-'
  let hits := if isSelected != q.inverts && (l.onlyMatches || l.colors) then
      q.matchesIn line.text else []
  if l.onlyMatches then
    hits.flatMap fun (first, last) =>
      l.front (if q.inverts then '-' else ':') line.number (line.offset + first) true ++
        l.paint "01;31" ((line.text.take last).drop first) ++ [l.lineEnd]
  else
    l.front sign line.number line.offset (!line.text.isEmpty) ++ l.painted line.text 0 hits ++
      [l.lineEnd]

end Layout

/-- How many lines are shown around those that are selected, and what stands between groups of
lines. -/
structure Surroundings where
  before : Option Nat
  after : Option Nat
  mark : Option Chars

/-- How far a text has been gone through. -/
structure Found where
  /-- The lines that have not been shown since the last that was, last first. -/
  skipped : List Line
  /-- Whether any line of this text has been shown. -/
  hasShown : Bool
  /-- How many of the next lines are shown because of the one before. -/
  pending : Nat
  /-- How many lines may still be selected. -/
  left : Option Nat
  count : Nat
  /-- Whether a group of lines has been shown, of whatever text. -/
  hasGroup : Bool
  /-- The number of bytes up to the end of the last line that was selected. -/
  reached : Nat
  /-- What is shown, last first. -/
  pieces : List Chars

/-- Goes on to a line. -/
def Found.next (q : Query) (l : Layout) (around : Surroundings) (f : Found) (line : Line) : Found :=
  let isSelected := q.selects line
  if isSelected && f.left ≠ some 0 then
    let lead := f.skipped.take (around.before.getD 0)
    let isApart := !f.hasShown || lead.length < f.skipped.length
    let isGrouped := around.before.isSome || around.after.isSome
    let mark := match around.mark with
      | some mark => if isGrouped && f.hasGroup && isApart then l.separator mark ++ ['\n'] else []
      | none => []
    { skipped := [], hasShown := true, pending := around.after.getD 0, left := f.left.map (· - 1),
      count := f.count + 1, hasGroup := true, reached := line.offset + line.text.length + 1,
      pieces := l.line q true line :: (lead.map (l.line q false)) ++ mark :: f.pieces }
  else if f.pending = 0 then { f with skipped := line :: f.skipped }
  else { f with pending := f.pending - 1, pieces := l.line q false line :: f.pieces }

/-- Goes through lines as long as any can be shown. -/
def Found.through (q : Query) (l : Layout) (around : Surroundings) : Found → List Line → Found
  | f, [] => f
  | f, line :: rest =>
    if f.left = some 0 && f.pending = 0 then f
    else Found.through q l around (f.next q l around line) rest

end SimWorkbench.Utility
