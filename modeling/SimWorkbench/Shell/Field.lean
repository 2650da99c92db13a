import SimWorkbench.Shell.Pattern

/-!
# Fields

Expanding a word gives characters that remember whether they were quoted, and regions of them that
came from expansions outside quotes. Only characters in regions separate fields; only unquoted
characters have a special meaning in patterns.
-/
namespace SimWorkbench.Shell

/-- A character of an expanded word, or a quotation mark. -/
inductive Cell where
  | char (c : Char) (quoted : Bool)
  | mark
  deriving DecidableEq, Repr

def Cell.char? : Cell → Option Char
  | char c _ => some c
  | mark => none

/-- Stands between arguments that are fields of their own. -/
def gap : Char := '\x00'

/-- Cells of an expansion, from one place up to another. In a region of arguments only gaps
separate, and what is behind the last one is a field even if it is empty. -/
structure Region where
  start : Nat
  stop : Nat
  arguments : Bool
  deriving DecidableEq, Repr

/-- An expanded word. -/
structure Expanded where
  cells : Array Cell
  /-- In the order in which they end. -/
  regions : Array Region
  deriving Inhabited

namespace Expanded

def empty : Expanded := ⟨#[], #[]⟩

/-- Another expanded word behind this one. -/
def append (e f : Expanded) : Expanded :=
  let n := e.cells.size
  ⟨e.cells ++ f.cells,
    e.regions ++ f.regions.map fun r => ⟨r.start + n, r.stop + n, r.arguments⟩⟩

instance : Append Expanded := ⟨append⟩

/-- Characters that are no region. -/
def ofChars (text : Chars) (quoted : Bool) : Expanded :=
  ⟨(text.map fun c => Cell.char c quoted).toArray, #[]⟩

/-- Characters that are a region. -/
def ofRegion (text : Chars) (quoted arguments : Bool) : Expanded :=
  let cells := (text.map fun c => Cell.char c quoted).toArray
  ⟨cells, #[⟨0, cells.size, arguments⟩]⟩

/-- The characters of a word. -/
def chars (e : Expanded) : Chars := e.cells.toList.filterMap Cell.char?

end Expanded

/-- The characters of cells. -/
def cellChars (cells : List Cell) : Chars := cells.filterMap Cell.char?

/-- The characters of cells, marked if they stand for themselves. -/
def cellMarks (cells : List Cell) : List Mark :=
  cells.filterMap fun
    | .char c quoted => some (c, quoted)
    | .mark => none

/-- How far a word has been cut into fields. -/
structure Cutting where
  /-- Fields found so far as places, last first. -/
  done : List (Nat × Nat)
  /-- Where the current field begins. -/
  start : Nat
  /-- How many fields may still be found, if that is limited. -/
  limit : Option Nat
  /-- Where what is dropped at the end of the last field begins. -/
  cut : Option Nat
  /-- Whether the last separator was a blank. -/
  blank : Bool
  /-- Whether the region before this one, and this one, hold arguments. -/
  before : Bool
  here : Bool

def isBlankSeparator (c : Char) : Bool := c == ' ' || c == '\t' || c == '\n' || c == gap

/-- Takes the cell at a place of a region into account. -/
def Cutting.step (separators : Chars) (g : Cutting) (place : Nat) (cell : Cell) : Cutting :=
  let separates : Bool := match cell with
    | .mark => false
    | .char c _ => c == gap || (!g.here && separators.contains c)
  let isBlank := separates && (cell.char?.map isBlankSeparator).getD false
  let cutAt (g : Cutting) (stop : Nat) : Cutting :=
    match g.limit with
    | some n =>
      if n ≤ 1 then { g with limit := some 0, cut := some stop }
      else { g with limit := some (n - 1), done := (g.start, stop) :: g.done, start := place + 1 }
    | none => { g with done := (g.start, stop) :: g.done, start := place + 1 }
  if g.limit = some 0 then
    if isBlank then { g with cut := some (g.cut.getD place) }
    else { g with cut := if separates && g.blank then g.cut else none, blank := false }
  else if g.blank then
    let g := { g with start := if separates then place + 1 else place }
    if isBlank then g else { g with blank := false }
  else if separates then
    let g := { g with blank := if g.before || g.here then g.blank else isBlank }
    if place = g.start && g.blank then { g with start := place + 1, blank := false }
    else cutAt g place
  else { g with blank := false }

/-- Takes a region into account. -/
def Cutting.region (separators : Chars) (cells : Array Cell) (g : Cutting) (r : Region) : Cutting :=
  let g := { g with before := g.here, here := r.arguments, blank := false }
  ((cells.toList.drop r.start).take (r.stop - r.start)).zipIdx r.start |>.foldl
    (fun g x => g.step separators x.2 x.1) g

/-- The fields of an expanded word, no more than `limit` of them. -/
def Expanded.fields (separators : Chars) (limit : Option Nat) (e : Expanded) : List (List Cell) :=
  let g : Cutting := e.regions.toList.foldl (Cutting.region separators e.cells)
    ⟨[], 0, limit, none, false, false, false⟩
  let stop := g.cut.getD e.cells.size
  let last := if g.start < stop || g.here then [(g.start, stop)] else []
  (g.done.reverse ++ last).map fun p => (e.cells.toList.drop p.1).take (p.2 - p.1)

end SimWorkbench.Shell
