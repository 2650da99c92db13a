/-!
# The console

What the tool prints is a sequence of lines. How long something took is known to the clock alone, so
a line may have gaps for durations.
-/
namespace SimWorkbench.Tool

/-- How much is printed. -/
inductive Verbosity where
  | quiet | normal | verbose
  deriving DecidableEq, Repr

/-- Quiet wins over verbose. -/
def Verbosity.of (quiet verbose : Bool) : Verbosity :=
  if quiet then .quiet else if verbose then .verbose else .normal

/-- A part of a line. -/
inductive Piece where
  | text (text : String)
  /-- How long something took. -/
  | elapsed
  deriving DecidableEq, Repr

/-- A line without its end. -/
abbrev Line := List Piece

/-- What has been printed, newest lines first. -/
structure Console where
  stdout : List Line
  stderr : List Line
  deriving DecidableEq, Repr, Inhabited

/-- The text of lines, oldest first, with a text for every duration. -/
def textOf (elapsed : String) (lines : List Line) : String :=
  let piece : Piece → String
    | .text text => text
    | .elapsed => elapsed
  String.join (lines.map fun line => String.join (line.map piece) ++ "\n")

/-- Why the tool gave up: a message, and the causes behind it from the nearest on. -/
structure Complaint where
  message : Line
  causes : List String := []
  deriving DecidableEq, Repr

namespace Complaint

/-- A complaint of one text. -/
def ofText (message : String) (causes : List String) : Complaint := ⟨[.text message], causes⟩

/-- Puts a message in front; the old one becomes a cause. -/
def within (message : String) (old : String) (causes : List String) : Complaint :=
  ofText message (old :: causes)

/-- The lines of a cause; all but the first begin where the text of the first does. -/
def causeLines (indent continuation cause : String) : List String :=
  match cause.toList.splitOn '\n' with
  | [] => []
  | first :: rest =>
    (indent ++ String.ofList first) :: rest.map fun line => continuation ++ String.ofList line

/-- The number of a cause, in a column of its own. -/
def numberColumn (n : Nat) : String :=
  let digits := toString n
  String.ofList (List.replicate (5 - digits.length) ' ') ++ digits ++ ": "

/-- The causes as they are printed; several are numbered. -/
def causesLines (causes : List String) : List String :=
  match causes with
  | [cause] => causeLines "    " "    " cause
  | _ => causes.zipIdx.flatMap fun c => causeLines (numberColumn c.2) "       " c.1

/-- The lines of a complaint. -/
def lines (c : Complaint) : List Line :=
  (.text "Error: " :: c.message) ::
    (if c.causes.isEmpty then []
      else (["", "Caused by:"] ++ causesLines c.causes).map fun text => [.text text])

end Complaint
end SimWorkbench.Tool
