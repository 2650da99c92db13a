import SimWorkbench.Path.Basic
import SimWorkbench.Run.Property
import SimWorkbench.Text.Blank
import SimWorkbench.Text.Lines

/-!
# Events from an artifact

A line that an artifact prints is an event if it starts with an at sign and a keyword, and output
otherwise. The keyword ends at the first space. An event with the wrong arguments is malformed; an
unknown keyword makes the line output.
-/
namespace SimWorkbench

/-- What a line of an artifact says. -/
inductive Event where
  | property (change : PropertyChange)
  /-- A report was written. -/
  | report (path : Path)
  /-- The model failed. -/
  | fault (message : String)
  | done
  | output (text : String)
  deriving DecidableEq, Repr

/-- Why a line is no event although it looks like one. -/
inductive MalformedEvent where
  | property (line : String)
  | report
  deriving DecidableEq, Repr

def MalformedEvent.message : MalformedEvent → String
  | property line => "malformed property event: " ++ line
  | report => "report event without a path"

namespace Event

/-- The keyword of a directive and what follows the first space. -/
def keyword (directive : List Char) : List Char × List Char :=
  (Text.splitAt? [' '] directive).getD (directive, [])

/-- The change that the words of a property event tell; there have to be three. -/
def change? (rest : List Char) : Option PropertyChange :=
  match Text.words rest with
  | [name, old, new] => some ⟨String.ofList name, String.ofList old, String.ofList new⟩
  | _ => none

/-- What a line says. -/
def parse (line : List Char) : Except MalformedEvent Event :=
  let line := Text.dropLineEnds line
  match line with
  | '@' :: directive =>
    let (word, rest) := keyword directive
    if word = "property".toList then
      match change? rest with
      | some c => .ok (.property c)
      | none => .error (.property (String.ofList line))
    else if word = "report".toList then
      if Text.isAllBlank rest then .error .report
      else .ok (.report ⟨String.ofList (Text.trim rest)⟩)
    else if word = "fault".toList then .ok (.fault (String.ofList (Text.trim rest)))
    else if word = "done".toList && Text.isAllBlank rest then .ok .done
    else .ok (.output (String.ofList line))
  | _ => .ok (.output (String.ofList line))

/-- The line that says it. -/
def render : Event → String
  | property c => "@property " ++ c.name ++ " " ++ c.old ++ " " ++ c.new
  | report path => "@report " ++ path.text
  | fault message => "@fault " ++ message
  | done => "@done"
  | output text => text

end Event
end SimWorkbench
