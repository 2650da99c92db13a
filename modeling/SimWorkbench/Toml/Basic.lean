import SimWorkbench.Decimal.Binary64

/-!
# TOML documents

A document is a table of tables, arrays and scalars. How a table was written matters while a
document is read: what a header or a dotted key may add to depends on it. A path leads from a table
to a table below it, making the missing ones.
-/
namespace SimWorkbench.Toml
open Decimal

/-- A value that has no parts. -/
inductive Scalar where
  | text (text : String)
  | integer (number : Int)
  | float (number : Binary64)
  | boolean (value : Bool)
  /-- A date, a time or both. -/
  | moment
  deriving DecidableEq, Repr

/-- How a table was written. -/
structure Standing where
  /-- Only named on the way to something below it. -/
  implicit : Bool
  /-- Named by a dotted key. -/
  dotted : Bool
  /-- Written in braces, and complete. -/
  closed : Bool
  deriving DecidableEq, Repr

/-- What stands for a key. -/
inductive Node where
  | scalar (value : Scalar)
  | array (items : List Node)
  | table (standing : Standing) (members : List (String × Node))
  /-- Tables written one by one under the same header. -/
  | tables (elements : List (List (String × Node)))
  deriving Repr

/-- The keys of a table with what stands for them. -/
abbrev Members := List (String × Node)

/-- A table with a header of its own. -/
def Standing.explicit : Standing := ⟨false, false, false⟩

namespace Members

def get? (ms : Members) (key : String) : Option Node := ms.lookup key

/-- Puts a node for a key, instead of an old one. -/
def put (ms : Members) (key : String) (node : Node) : Members :=
  if (ms.get? key).isSome then ms.map fun m => if m.1 = key then (key, node) else m
  else ms ++ [(key, node)]

/-- Changes the table at the end of a path. Headers may pass through every table that is not
closed; dotted keys only through those that dotted keys or longer headers have made. -/
def descend (dotted : Bool) (change : Standing → Members → Option Members) (standing : Standing) :
    List String → Members → Option Members
  | [], ms => change standing ms
  | key :: path, ms =>
    match ms.get? key with
    | none => do
      let made : Standing := ⟨true, dotted, false⟩
      return ms.put key (.table made (← descend dotted change made path []))
    | some (.table below inner) =>
      if below.closed || (dotted && !below.implicit) then none
      else do return ms.put key (.table below (← descend dotted change below path inner))
    | some (.tables elements) =>
      match elements.getLast? with
      | none => none
      | some last => do
        let changed ← descend dotted change .explicit path last
        return ms.put key (.tables (elements.dropLast ++ [changed]))
    | some _ => none

/-- Adds a key with its value to a table, by a dotted key if the path is not empty. A key is given
once, and a table is either spelled out or made by dotted keys. -/
def insert (path : List String) (key : String) (value : Node) (standing : Standing)
    (ms : Members) : Option Members :=
  descend true (fun reached inner =>
    if reached.dotted == path.isEmpty then none
    else if (inner.get? key).isSome then none
    else some (inner.put key value)) standing path ms

/-- Begins a table with a header. -/
def beginTable (path : List String) (key : String) (ms : Members) : Option Members :=
  descend false (fun _ inner =>
    match inner.get? key with
    | none => some (inner.put key (.table .explicit []))
    | some (.table standing below) =>
      if standing.implicit && !standing.dotted then some (inner.put key (.table .explicit below))
      else none
    | some _ => none) .explicit path ms

/-- Begins one more table under a header for several. -/
def beginElement (path : List String) (key : String) (ms : Members) : Option Members :=
  descend false (fun _ inner =>
    match inner.get? key with
    | none => some (inner.put key (.tables [[]]))
    | some (.tables elements) => some (inner.put key (.tables (elements ++ [[]])))
    | some _ => none) .explicit path ms

end Members
end SimWorkbench.Toml
