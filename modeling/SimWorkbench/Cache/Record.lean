import SimWorkbench.Cache.Fingerprint

/-!
# Records of the cache

A descriptor says which executable was built from which model; a miss says that a model in a
certain state did not compile.
-/
namespace SimWorkbench

/-- An executable that the cache knows. -/
structure Descriptor where
  source : Path
  artifact : Path
  package : String
  /-- Taken over the source and the artifact when the descriptor was stored. -/
  fingerprint : Fingerprint
  deriving DecidableEq, Repr, Inhabited

/-- A model known not to compile as it was. -/
structure Miss where
  source : Path
  /-- Taken over the source when it did not compile. -/
  fingerprint : Fingerprint
  deriving DecidableEq, Repr, Inhabited

/-- Descriptors are kept in the order of their sources. -/
def Descriptor.key (d : Descriptor) : List (List Nat) := d.source.sortKey

/-- Misses are kept in the order of their sources. -/
def Miss.key (m : Miss) : List (List Nat) := m.source.sortKey

end SimWorkbench
