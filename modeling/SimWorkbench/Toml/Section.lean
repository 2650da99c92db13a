import SimWorkbench.Path.Basic
import SimWorkbench.Toml.Basic

/-!
# Sections of settings

Settings are read from sections: tables, whose keys name the fields, or lists, whose places do.
Unknown keys and places are ignored; a field of another type makes the section unreadable.
-/
namespace SimWorkbench.Toml
open Decimal

/-- Where the fields of a section are found. -/
inductive Section where
  | keyed (members : Members)
  | listed (items : List Node)

/-- The section that a node stands for. A moment is a table without any of the fields. -/
def Node.section? : Node → Option Section
  | .table _ members => some (.keyed members)
  | .array items => some (.listed items)
  | .tables elements => some (.listed (elements.map (.table .explicit)))
  | .scalar .moment => some (.keyed [])
  | .scalar _ => none

namespace Node

def text? : Node → Option String
  | .scalar (.text text) => some text
  | _ => none

def path? (n : Node) : Option Path := n.text?.map Path.mk

def boolean? : Node → Option Bool
  | .scalar (.boolean value) => some value
  | _ => none

/-- A whole number that a word of 32 bits holds. -/
def word? : Node → Option UInt32
  | .scalar (.integer n) => if 0 ≤ n && n < Nat.pow 2 32 then some (UInt32.ofNat n.toNat) else none
  | _ => none

/-- A number, with places or without. -/
def number? : Node → Option Binary64
  | .scalar (.float x) => some x
  | .scalar (.integer n) => some (Binary64.ofInt n)
  | _ => none

/-- A list of values of one type. -/
def list? {α : Type} (value? : Node → Option α) : Node → Option (List α)
  | .array items => items.mapM value?
  | _ => none

end Node

namespace Section

/-- What stands for a field. -/
def find? (s : Section) (place : Nat) (key : String) : Option Node :=
  match s with
  | .keyed members => members.get? key
  | .listed items => items[place]?

/-- A field that may be missing. -/
def optional {α : Type} (s : Section) (place : Nat) (key : String) (value? : Node → Option α) :
    Option (Option α) :=
  match s.find? place key with
  | none => some none
  | some node => (value? node).map some

/-- A field with a value of its own if it is missing. -/
def withDefault {α : Type} (s : Section) (place : Nat) (key : String) (default : α)
    (value? : Node → Option α) : Option α := (s.optional place key value?).map (·.getD default)

/-- A field that has to be there. -/
def required {α : Type} (s : Section) (place : Nat) (key : String) (value? : Node → Option α) :
    Option α := (s.find? place key).bind value?

/-- A field that a table may leave out and a list may not. -/
def optionalKey {α : Type} (s : Section) (place : Nat) (key : String) (value? : Node → Option α) :
    Option (Option α) :=
  match s with
  | .keyed _ => s.optional place key value?
  | .listed _ => (s.required place key value?).map some

end Section
end SimWorkbench.Toml
