import SimWorkbench.Regex.Basic

/-!
# Matches

From a set of places an expression leads to the places where a match can end that began at one of
them. Sets of places are numbers: bit n says whether place n is in the set. Expressions that refer
back to groups need to know what the groups took; for them each way through the text is followed on
its own.
-/
namespace SimWorkbench

/-- The set of the places from 0 up to below `count` for which something holds. -/
def placesWhere (count : Nat) (holds : Nat → Bool) : Nat :=
  count.fold (fun n _ set => 2 * set + (if holds (count - 1 - n) then 1 else 0)) 0

/-- Does something to a set so many times, or until that changes nothing. -/
def repeatOn (step : Nat → Nat) : Nat → Nat → Nat
  | 0, places => places
  | n + 1, places =>
    let next := step places
    if next = places then places else repeatOn step n next

/-- The places reached by at most so many steps: those in `reached`, of which those in `fresh` were
reached last. -/
def spread (step : Nat → Nat) : Nat → Nat → Nat → Nat
  | 0, _, reached => reached
  | n + 1, fresh, reached =>
    let next := step fresh
    let all := reached ||| next
    if all = reached then reached else spread step n (all ^^^ reached) all

/-- An expression for one text: what it asks of single places is worked out. -/
inductive Walk where
  | stay
  /-- Takes a character at one of some places. -/
  | take (places : Nat)
  /-- Takes nothing, at one of some places. -/
  | hold (places : Nat)
  | both (first second : Walk)
  | either (first second : Walk)
  | repeated (inner : Walk) (least most : Nat)

namespace Walk

/-- The walk of an expression that does not refer back. A repetition without a limit takes all
places in as many rounds as there are. -/
def ofRegex (t : Subject) : Regex → Walk
  | .empty | .again _ => stay
  | .oneOf set => take (placesWhere t.size fun n => (t.chars[n]?.map (set.has t.folds)).getD false)
  | .border b => hold (placesWhere (t.size + 1) fun n => b.holds t n)
  | .group _ inner => ofRegex t inner
  | .both first second => both (ofRegex t first) (ofRegex t second)
  | .either first second => either (ofRegex t first) (ofRegex t second)
  | .repeated inner least most =>
    repeated (ofRegex t inner) least (match most with
      | some most => min (most - least) (t.size + 1)
      | none => t.size + 1)

/-- The places where a match can end that begins at one of some places. -/
def ends : Walk → Nat → Nat
  | stay, places => places
  | take allowed, places => 2 * (places &&& allowed)
  | hold allowed, places => places &&& allowed
  | both first second, places => second.ends (first.ends places)
  | either first second, places => first.ends places ||| second.ends places
  | repeated inner least most, places =>
    let places := repeatOn inner.ends least places
    spread inner.ends most places places

end Walk

/-- A way through a text: the place it has come to, and where each group began and ended. -/
structure Trail where
  place : Nat
  groups : List (Nat × Nat × Nat)
  deriving DecidableEq

namespace Trail

/-- The ways on from `fresh` by at most so many steps, with those of `reached`. -/
def spread (step : List Trail → List Trail) : Nat → List Trail → List Trail → List Trail
  | 0, _, reached => reached
  | n + 1, fresh, reached =>
    let next := ((step fresh).filter fun w => !reached.contains w).eraseDups
    if next.isEmpty then reached else spread step n next (reached ++ next)

/-- Does something to ways so many times, or until that changes nothing. -/
def repeatOn (step : List Trail → List Trail) : Nat → List Trail → List Trail
  | 0, ways => ways
  | n + 1, ways =>
    let next := (step ways).eraseDups
    if next = ways then ways else repeatOn step n next

/-- Whether characters are the same where letters may be in either case. -/
def isSame (folds : Bool) (c d : Char) : Bool := c == d || (folds && c.toLower == d.toLower)

/-- The way on over what a group took. -/
def afterGroup (t : Subject) (number : Nat) (w : Trail) : Option Trail := do
  let (first, last) ← w.groups.lookup number
  let length := last - first
  if w.place + length ≤ t.size && (List.range length).all fun n =>
      isSame t.folds (t.chars.getD (first + n) ' ') (t.chars.getD (w.place + n) ' ') then
    some { w with place := w.place + length }
  else none

/-- The ways on over an expression. -/
def on (t : Subject) : Regex → List Trail → List Trail
  | .empty, ways => ways
  | .oneOf set, ways => ways.filterMap fun w =>
    if (t.chars[w.place]?.map (set.has t.folds)).getD false then
      some { w with place := w.place + 1 }
    else none
  | .border b, ways => ways.filter fun w => b.holds t w.place
  | .group n inner, ways => ways.flatMap fun w =>
    (on t inner [w]).map fun w' =>
      { w' with groups := (n, w.place, w'.place) :: w'.groups.filter fun g => g.1 ≠ n }
  | .again n, ways => ways.filterMap (afterGroup t n)
  | .both first second, ways => on t second (on t first ways)
  | .either first second, ways => (on t first ways ++ on t second ways).eraseDups
  | .repeated inner least most, ways =>
    let ways := repeatOn (on t inner) least ways
    let rounds := match most with
      | some most => min (most - least) (t.size + 1)
      | none => t.size + 1
    spread (on t inner) rounds ways ways

end Trail

/-- What can be matched: the places where a match can end, from the places where it begins. -/
abbrev Matcher := Nat → Nat

/-- The members of a set of places, first one first. -/
def placesIn (t : Subject) (places : Nat) : List Nat :=
  (List.range (t.size + 1)).filter places.testBit

/-- The matcher of an expression in a text. -/
def Regex.matcher (r : Regex) (t : Subject) : Matcher :=
  if r.refersBack then fun places =>
    (Trail.on t r ((placesIn t places).map fun n => ⟨n, []⟩)).foldl
      (fun set w => set ||| 1 <<< w.place) 0
  else (Walk.ofRegex t r).ends

end SimWorkbench
