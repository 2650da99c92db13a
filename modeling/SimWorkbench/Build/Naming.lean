import SimWorkbench.Path.Basic
import SimWorkbench.Text.Lines

/-!
# Names for the compiler

The compiler knows a unit by a crate name of lower-case letters, digits and underscores, and a
library file by the name between `lib` and the first hyphen.
-/
namespace SimWorkbench

/-- A character of a crate name. -/
def crateChar (c : Char) : Char :=
  if c.isAlphanum || c == '_' then c.toLower else '_'

/-- The crate name of a unit. -/
def crateName (package typeName : String) : String :=
  let name := ((package ++ "_" ++ typeName).toList).map crateChar
  String.ofList (if (name.head?.map Char.isDigit).getD false then '_' :: name else name)

/-- The name by which a library file is linked. -/
def externName? (library : Path) : Option String := do
  let stem := (← library.stem?).toList
  let name := ((Text.dropPrefix? "lib".toList stem).getD stem).takeWhile (· != '-')
  if name.isEmpty then none else some (String.ofList name)

end SimWorkbench
