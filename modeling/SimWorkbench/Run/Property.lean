import SimWorkbench.Keyed

/-!
# Properties of a run

A run reports changes of named properties. The last value of each name is kept, in the order of the
names.
-/
namespace SimWorkbench

/-- A property that changed. -/
structure PropertyChange where
  name : String
  old : String
  new : String
  deriving DecidableEq, Repr, Inhabited

/-- The last value of each property, by name. -/
abbrev Properties := List (String × String)

namespace Properties

/-- Names are ordered by their characters. -/
def key (p : String × String) : List Nat := p.1.toList.map Char.toNat

def set (ps : Properties) (name value : String) : Properties := Keyed.put key (name, value) ps

def get? (ps : Properties) (name : String) : Option String := ps.lookup name

/-- Keeps the new value of a change. -/
def record (ps : Properties) (c : PropertyChange) : Properties := ps.set c.name c.new

end Properties
end SimWorkbench
