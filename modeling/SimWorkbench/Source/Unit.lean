import SimWorkbench.Text.Blank
import SimWorkbench.Text.Lines

/-!
# The unit that a source declares

A generated source declares a package by a line `pub mod name {` and then a public type by a line
that starts with `pub struct name`. Line comments and blanks around a line do not count. The first
package line and the first type line after it decide; a unit is declared when both names are
identifiers.
-/
namespace SimWorkbench

/-- The package and the public type that a source declares. -/
structure SourceUnit where
  package : String
  typeName : String
  deriving DecidableEq, Repr, Inhabited

/-- Why a source declares no unit, or not the expected one. -/
inductive MalformedSource where
  | missingPackage
  | missingType (package : String)
  | invalidIdentifier (name : String)
  | mismatch (expected found : String)
  deriving DecidableEq, Repr

namespace MalformedSource

def message : MalformedSource → String
  | missingPackage => "no package declaration (`pub mod <name> \x7b`) found"
  | missingType package => "no public type declared in package `" ++ package ++ "`"
  | invalidIdentifier name => "`" ++ name ++ "` is not a valid identifier"
  | mismatch expected found =>
    "source declares `" ++ found ++ "` but `" ++ expected ++ "` was expected"

end MalformedSource

namespace SourceUnit

/-- The name by which both parts are known together. -/
def qualify (package typeName : String) : String := package ++ "::" ++ typeName

def qualifiedName (u : SourceUnit) : String := qualify u.package u.typeName

/-- A line without its comment and the blanks around it. -/
def bare (line : List Char) : List Char :=
  Text.trim (((Text.splitAt? "//".toList line).map Prod.fst).getD line)

/-- Letters, digits and the underscore, of ASCII alone. -/
def isNameChar (c : Char) : Bool := c.isAlphanum || c == '_'

/-- Whether a run of name characters is an identifier. -/
def isIdentifier (name : List Char) : Bool :=
  name != [] && name != ['_'] && !(name.head?.map Char.isDigit).getD false

/-- The name on a package line. -/
def packageName? (line : List Char) : Option (List Char) :=
  match Text.dropPrefix? "pub mod ".toList line with
  | none => none
  | some rest =>
    let (name, after) := rest.span isNameChar
    if (Text.trimStart after).head? == some '\x7b' then some name else none

/-- The name on a type line. -/
def typeName? (line : List Char) : Option (List Char) :=
  (Text.dropPrefix? "pub struct ".toList line).map fun rest => rest.takeWhile isNameChar

/-- The first package name, with the lines behind it. -/
def findPackage : List (List Char) → Option (List Char × List (List Char))
  | [] => none
  | line :: rest =>
    match packageName? line with
    | some name => some (name, rest)
    | none => findPackage rest

/-- The unit that bare lines declare. -/
def scan (lines : List (List Char)) : Except MalformedSource SourceUnit :=
  match findPackage lines with
  | none => .error .missingPackage
  | some (package, rest) =>
    if isIdentifier package then
      match rest.findSome? typeName? with
      | none => .error (.missingType (String.ofList package))
      | some name =>
        if isIdentifier name then .ok ⟨String.ofList package, String.ofList name⟩
        else .error (.invalidIdentifier (String.ofList name))
    else .error (.invalidIdentifier (String.ofList package))

/-- The unit that a source declares. -/
def parse (text : List Char) : Except MalformedSource SourceUnit :=
  scan ((Text.lines text).map bare)

/-- The unit that a source declares, if it is the one expected. -/
def expect (text : List Char) (package typeName : String) : Except MalformedSource SourceUnit := do
  let u ← parse text
  if u.package = package ∧ u.typeName = typeName then .ok u
  else .error (.mismatch (qualify package typeName) u.qualifiedName)

end SourceUnit

/-- What a generator produced: a source, and the names it says it declared. -/
structure GeneratedSource where
  text : String
  package : Option String
  typeName : Option String
  deriving DecidableEq, Repr, Inhabited

/-- The unit of a generated source. Names count only when both are given. -/
def GeneratedSource.unit (s : GeneratedSource) : Except MalformedSource SourceUnit :=
  match s.package, s.typeName with
  | some package, some typeName => SourceUnit.expect s.text.toList package typeName
  | _, _ => SourceUnit.parse s.text.toList

end SimWorkbench
