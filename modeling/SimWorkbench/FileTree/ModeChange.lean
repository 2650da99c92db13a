import SimWorkbench.FileTree.Basic

/-!
# Changes of modes

The rights to a file are changed by an octal number or by a list of clauses. A clause names classes
of users, an operation and rights, which may be those that a class already has.
-/
namespace SimWorkbench

/-- What is done with rights. -/
inductive ModeOperation where
  | set | add | drop
  deriving DecidableEq, Repr

/-- Where the rights of a change come from. -/
inductive ModeSource where
  | named
  /-- The rights that a class has. -/
  | copied
  /-- The rights named, and execution where somebody may execute already. -/
  | executable
  deriving DecidableEq, Repr

/-- One change of a mode. -/
structure ModeChange where
  operation : ModeOperation
  source : ModeSource
  /-- The bits of the classes that were named; none if no class was. -/
  affected : Mode
  value : Mode
  /-- The bits that the change is about by name. -/
  mentioned : Mode
  deriving DecidableEq, Repr

namespace ModeChange

/-- All bits of a mode. -/
def allBits : Mode := 0o7777

/-- The bits of the class with a letter. -/
def classBits? : Char → Option Mode
  | 'u' => some 0o4700
  | 'g' => some 0o2070
  | 'o' => some 0o1007
  | 'a' => some 0o7777
  | _ => none

def operation? : Char → Option ModeOperation
  | '=' => some .set
  | '+' => some .add
  | '-' => some .drop
  | _ => none

/-- The bits of a right with a letter. -/
def rightBits? : Char → Option Mode
  | 'r' => some 0o444
  | 'w' => some 0o222
  | 'x' => some 0o111
  | 'X' => some 0
  | 's' => some 0o6000
  | 't' => some 0o1000
  | _ => none

def isOctal (c : Char) : Bool := '0' ≤ c && c ≤ '7'

/-- The value of octal digits that is a mode. -/
def octal? (digits : List Char) : Option Mode :=
  let n := digits.foldl (fun n c => n * 8 + (c.toNat - 48)) 0
  if n ≤ allBits then some n else none

/-- The change behind an operation, and what follows it. -/
def readValue (operation : ModeOperation) (affected : Mode) (text : List Char) :
    Option (ModeChange × List Char) :=
  let plain (source : ModeSource) (value : Mode) : ModeChange :=
    ⟨operation, source, affected, value, if affected = 0 then value else affected &&& value⟩
  match text with
  | 'u' :: rest => some (plain .copied 0o700, rest)
  | 'g' :: rest => some (plain .copied 0o070, rest)
  | 'o' :: rest => some (plain .copied 0o007, rest)
  | _ =>
    let digits := text.takeWhile isOctal
    let letters := text.takeWhile fun c => (rightBits? c).isSome
    if !digits.isEmpty then
      let rest := text.drop digits.length
      if affected = 0 && (rest.isEmpty || rest.head? == some ',') then
        (octal? digits).map fun value => (⟨operation, .named, allBits, value, allBits⟩, rest)
      else none
    else
      let value := letters.foldl (fun bits c => bits ||| (rightBits? c).getD 0) 0
      some (plain (if letters.contains 'X' then .executable else .named) value,
        text.drop letters.length)

/-- The changes of a clause behind its classes, and what follows them; there is one at least. -/
def readChanges (affected : Mode) : Nat → List Char → Option (List ModeChange × List Char)
  | 0, _ => none
  | n + 1, text =>
    match text with
    | [] => none
    | c :: rest => do
      let operation ← operation? c
      let (change, rest) ← readValue operation affected rest
      if (rest.head?.bind operation?).isSome then
        let (more, rest) ← readChanges affected n rest
        return (change :: more, rest)
      return ([change], rest)

/-- The changes of a list of clauses. -/
def readClauses : Nat → List Char → Option (List ModeChange)
  | 0, _ => none
  | n + 1, text => do
    let classes := text.takeWhile fun c => (classBits? c).isSome
    let affected := classes.foldl (fun bits c => bits ||| (classBits? c).getD 0) 0
    let (changes, rest) ← readChanges affected (text.length + 1) (text.drop classes.length)
    match rest with
    | [] => return changes
    | ',' :: more => return changes ++ (← readClauses n more)
    | _ => none

/-- The changes that a text describes. A short octal number leaves two special bits of directories
alone. -/
def read? (text : List Char) : Option (List ModeChange) :=
  if (text.head?.map isOctal).getD false then
    if text.all isOctal then
      (octal? text).map fun value =>
        [⟨.set, .named, allBits, value, if text.length < 5 then (value &&& 0o6000) ||| 0o1777
          else allBits⟩]
    else none
  else readClauses (text.length + 1) text

/-- The bits of `a` that are not in `b`. -/
def without (a b : Mode) : Mode := a ^^^ (a &&& b)

/-- A mode after one change; `withheld` are bits that are left alone if no class was named. -/
def apply (c : ModeChange) (isDirectory : Bool) (withheld mode : Mode) : Mode :=
  let left := without (if isDirectory then 0o6000 else 0) c.mentioned
  let spread (bits : Mode) : Mode := if mode &&& c.value &&& bits ≠ 0 then bits else 0
  let value := match c.source with
    | .named => c.value
    | .copied => (mode &&& c.value) ||| spread 0o444 ||| spread 0o222 ||| spread 0o111
    | .executable =>
      if mode &&& 0o111 ≠ 0 || isDirectory then c.value ||| 0o111 else c.value
  let value := without
    (if c.affected = 0 then without value withheld else value &&& c.affected) left
  match c.operation with
  | .set =>
    let kept := (if c.affected = 0 then 0 else without allBits c.affected) ||| left
    (mode &&& kept) ||| value
  | .add => mode ||| value
  | .drop => without mode value

/-- A mode after several changes. -/
def applyAll (changes : List ModeChange) (isDirectory : Bool) (withheld mode : Mode) : Mode :=
  changes.foldl (fun mode c => c.apply isDirectory withheld mode) mode

end ModeChange
end SimWorkbench
