/-!
# Lines and prefixes

A line ends with a line feed, which may follow a carriage return; the last line may lack its
end. Prefixes and first occurrences are found by comparing characters.
-/
namespace SimWorkbench.Text

/-- What follows `start` in `text`, if `text` begins with it. -/
def dropPrefix? [BEq α] : List α → List α → Option (List α)
  | [], text => some text
  | _ :: _, [] => none
  | p :: start, c :: text => if p == c then dropPrefix? start text else none

/-- What precedes `ending` in `text`, if `text` ends with it. -/
def dropSuffix? [BEq α] (ending text : List α) : Option (List α) :=
  (dropPrefix? ending.reverse text.reverse).map List.reverse

/-- The text before the first occurrence of `mark` and the text after it. -/
def splitAt? [BEq α] (mark : List α) (text : List α) : Option (List α × List α) :=
  search [] text
where
  search (before : List α) : List α → Option (List α × List α)
    | [] => (dropPrefix? mark []).map fun after => (before.reverse, after)
    | c :: rest =>
      match dropPrefix? mark (c :: rest) with
      | some after => some (before.reverse, after)
      | none => search (c :: before) rest

/-- Replaces every occurrence of `mark`, found from left to right without overlap. An empty mark
occurs nowhere. -/
def replaceAll [BEq α] (mark new text : List α) : List α :=
  if mark.isEmpty then text else go 0 [] text
where
  go : Nat → List (List α) → List α → List α
    | _, done, [] => done.reverse.flatten
    | skip + 1, done, _ :: rest => go skip done rest
    | 0, done, c :: rest =>
      if mark.isPrefixOf (c :: rest) then go (mark.length - 1) (new :: done) rest
      else go 0 ([c] :: done) rest

/-- The pieces that end with `mark`, each with its mark, and the rest if it is not empty. -/
def terminated [BEq α] (mark : α) (text : List α) : List (List α) :=
  go [] [] text
where
  go (piece : List α) (done : List (List α)) : List α → List (List α)
    | [] => if piece.isEmpty then done.reverse else (piece.reverse :: done).reverse
    | c :: rest =>
      if c == mark then go [] ((c :: piece).reverse :: done) rest else go (c :: piece) done rest

/-- A line without the line feed that ends it and the carriage return before that. -/
def dropLineEnd (line : List Char) : List Char :=
  match dropSuffix? ['\n'] line with
  | none => line
  | some body => (dropSuffix? ['\r'] body).getD body

/-- The lines of a text, without their ends. -/
def lines (text : List Char) : List (List Char) := (terminated '\n' text).map dropLineEnd

/-- A text without the carriage returns and line feeds at its end. -/
def dropLineEnds (text : List Char) : List Char :=
  (text.reverse.dropWhile fun c => c == '\n' || c == '\r').reverse

end SimWorkbench.Text
