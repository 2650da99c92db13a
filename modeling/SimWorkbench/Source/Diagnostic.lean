import SimWorkbench.Text.Blank
import SimWorkbench.Text.Lines

/-!
# Diagnostics

A compiler that rejects a source says why in a text of many lines. Its headline is the first
message of an error, or else the first line that is not blank.
-/
namespace SimWorkbench

/-- What a compiler said about a source it rejected. -/
structure Diagnostic where
  text : String
  deriving DecidableEq, Repr, Inhabited

namespace Diagnostic

/-- The message behind an error number in brackets. -/
def numbered? (line : List Char) : Option (List Char) :=
  if "error[E".toList.isPrefixOf line then (Text.splitAt? "]: ".toList line).map Prod.snd else none

/-- The message of an error without a number; the count of errors at the end is none. -/
def unnumbered? (line : List Char) : Option (List Char) :=
  match Text.dropPrefix? "error: ".toList line with
  | none => none
  | some message => if "aborting due to".toList.isPrefixOf message then none else some message

/-- The error message on a line. -/
def message? (line : List Char) : Option (List Char) :=
  (numbered? line).or (unnumbered? line)

/-- The line that stands for the whole text. -/
def headline (d : Diagnostic) : String :=
  let lines := (Text.lines d.text.toList).map Text.trim
  match lines.findSome? message?, lines.find? (· ≠ []) with
  | some message, _ => String.ofList message
  | none, some line => String.ofList line
  | none, none => "compiler produced no output"

end Diagnostic
end SimWorkbench
