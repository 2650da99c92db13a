import SimWorkbench.Shell.Number

/-!
# Arithmetic of scripts

Expressions over 64-bit integers with variables. Operators bind by level; those of one level
associate to the left, assignments to the right. What a condition leaves out is read and not
evaluated.
-/
namespace SimWorkbench.Shell.Arithmetic

/-- Operators between two operands. -/
inductive Operator where
  | multiply | divide | remainder | add | subtract | shiftLeft | shiftRight
  | less | lessEqual | greater | greaterEqual | equal | different | bitAnd | bitXor | bitOr
  deriving DecidableEq, Repr

/-- How loosely an operator binds. -/
def Operator.level : Operator → Nat
  | multiply | divide | remainder => 0
  | add | subtract => 1
  | shiftLeft | shiftRight => 2
  | less | lessEqual | greater | greaterEqual => 3
  | equal | different => 4
  | bitAnd => 5
  | bitXor => 6
  | bitOr => 7

/-- A level above all operators. -/
def topLevel : Nat := 8

/-- What an expression consists of. -/
inductive Symbol where
  | number (n : Int)
  | name (x : Chars)
  | operator (op : Operator)
  /-- An assignment, of the value alone or of what an operator makes of it. -/
  | assign (op : Option Operator)
  | both | either | not | complement | open_ | close | question | colon
  | finish
  /-- No symbol begins like this. -/
  | unknown
  deriving DecidableEq, Repr

/-- Why an expression has no value. -/
inductive Fault where
  /-- Something is wrong with the expression, which is shown. -/
  | wrong (what : String)
  | noNumber (text : Chars)
  | readOnly (name : Chars)
  /-- A quotient that no number holds. -/
  | crash
  deriving DecidableEq, Repr

/-- Spellings of operators; longer ones come first. -/
def spellings : List (String × Symbol) :=
  [("<<=", .assign (some .shiftLeft)), (">>=", .assign (some .shiftRight)),
   ("<<", .operator .shiftLeft), (">>", .operator .shiftRight), ("<=", .operator .lessEqual),
   (">=", .operator .greaterEqual), ("==", .operator .equal), ("!=", .operator .different),
   ("||", .either), ("&&", .both), ("|=", .assign (some .bitOr)), ("&=", .assign (some .bitAnd)),
   ("^=", .assign (some .bitXor)), ("*=", .assign (some .multiply)),
   ("/=", .assign (some .divide)), ("%=", .assign (some .remainder)),
   ("+=", .assign (some .add)), ("-=", .assign (some .subtract)), ("<", .operator .less),
   (">", .operator .greater), ("=", .assign none), ("|", .operator .bitOr),
   ("&", .operator .bitAnd), ("^", .operator .bitXor), ("*", .operator .multiply),
   ("/", .operator .divide), ("%", .operator .remainder), ("+", .operator .add),
   ("-", .operator .subtract), ("!", .not), ("~", .complement), ("(", .open_), (")", .close),
   ("?", .question), (":", .colon)]

/-- The symbols of a text up to its end or to what is no symbol. -/
def symbols : Nat → Chars → List Symbol
  | 0, _ => [.finish]
  | _, [] => [.finish]
  | n + 1, c :: rest =>
    if c == ' ' || c == '\t' || c == '\n' then symbols n rest
    else if c.isDigit then
      let r := readNumeral 0 (c :: rest)
      .number (clamp r.value) :: symbols n r.rest
    else if c.isAlpha || c == '_' then
      let isNameChar (d : Char) : Bool := d.isAlphanum || d == '_'
      .name ((c :: rest).takeWhile isNameChar) :: symbols n ((c :: rest).dropWhile isNameChar)
    else
      match spellings.find? fun s => s.1.toList.isPrefixOf (c :: rest) with
      | some s => s.2 :: symbols n ((c :: rest).drop s.1.length)
      | none => [.unknown]

/-- The variables that an expression sees. -/
structure Scope where
  value? : Chars → Option Chars
  isReadOnly : Chars → Bool

/-- What is left of an expression, and the variables it has assigned, newest first. -/
structure Progress where
  rest : List Symbol
  assigned : List (Chars × Chars)

abbrev Eval := StateT Progress (Except Fault)

/-- Integers wrap around at 64 bits. -/
def wrap (n : Int) : Int := Int.bmod n (Nat.pow 2 64)

def truth (b : Bool) : Int := if b then 1 else 0

/-- The value of an operator. -/
def Operator.apply (op : Operator) (a b : Int) : Except Fault Int :=
  let bits (f : BitVec 64 → BitVec 64 → BitVec 64) : Except Fault Int :=
    .ok (f (BitVec.ofInt 64 a) (BitVec.ofInt 64 b)).toInt
  let places := (b % 64).toNat
  match op with
  | multiply => .ok (wrap (a * b))
  | divide =>
    if b = 0 then .error (.wrong "division by zero")
    else if a = least && b = -1 then .error .crash else .ok (a.tdiv b)
  | remainder =>
    if b = 0 then .error (.wrong "division by zero")
    else if a = least && b = -1 then .error .crash else .ok (a.tmod b)
  | add => .ok (wrap (a + b))
  | subtract => .ok (wrap (a - b))
  | shiftLeft => .ok (wrap (a * Nat.pow 2 places))
  | shiftRight => .ok (a / Nat.pow 2 places)
  | less => .ok (truth (a < b))
  | lessEqual => .ok (truth (a ≤ b))
  | greater => .ok (truth (b < a))
  | greaterEqual => .ok (truth (b ≤ a))
  | equal => .ok (truth (a = b))
  | different => .ok (truth (a ≠ b))
  | bitAnd => bits fun x y => x &&& y
  | bitXor => bits fun x y => x ^^^ y
  | bitOr => bits fun x y => x ||| y

def fail {α : Type} (f : Fault) : Eval α := throw f

/-- The symbol that comes next. -/
def upcoming : Eval Symbol := return (← get).rest.headD .finish

/-- Goes on behind the next symbol; the end is never passed. -/
def advance : Eval Unit := modify fun s =>
  match s.rest with
  | _ :: x :: more => { s with rest := x :: more }
  | _ => s

/-- The value of a variable; an unset or blank one counts as zero. -/
def variableValue (scope : Scope) (name : Chars) : Eval Int := do
  let s ← get
  let text := ((s.assigned.lookup name).orElse fun _ => scope.value? name).getD []
  let n := readNumeral 0 text
  if !n.rest.all isSpace || clamp n.value ≠ n.value then fail (.noNumber text)
  return n.value

/-- Gives a variable a value. -/
def assignVariable (scope : Scope) (name : Chars) (value : Int) : Eval Unit := do
  if scope.isReadOnly name then fail (.readOnly name)
  modify fun s => { s with assigned := (name, decimal value) :: s.assigned }

/-- Readers of a whole expression and of an operand; `live` says whether it is evaluated. -/
structure Level where
  whole (live : Bool) : Eval Int
  operand (live : Bool) : Eval Int

/-- A number, a variable, brackets, or an operator in front of an operand. -/
def readOperand (scope : Scope) (g : Level) (live : Bool) : Eval Int := do
  match ← upcoming with
  | .open_ =>
    advance
    let a ← g.whole live
    unless (← upcoming) = .close do fail (.wrong "expecting ')'")
    advance
    return a
  | .number n => advance; return n
  | .name x =>
    advance
    if live then variableValue scope x else return 0
  | .operator .add => advance; g.operand live
  | .operator .subtract => advance; return wrap (-(← g.operand live))
  | .not => advance; return truth ((← g.operand live) = 0)
  | .complement => advance; return -(← g.operand live) - 1
  | _ => fail (.wrong "expecting primary")

/-- Operators from one on whose left operand is known, as long as they bind tighter than a level. -/
def climb (operand : Eval Int) (live : Bool) : Nat → Int → Operator → Nat → Eval Int
  | 0, _, _, _ => fail (.wrong "expecting primary")
  | n + 1, a, op, bound => do
    advance
    let b ← operand
    let b ← match ← upcoming with
      | .operator next => if next.level < op.level then climb operand live n b next op.level else pure b
      | _ => pure b
    let a ← if live then (op.apply a b : Except Fault Int) else pure b
    match ← upcoming with
    | .operator next => if next.level < bound then climb operand live n a next bound else return a
    | _ => return a

/-- Operands with operators between them. -/
def readTerm (g : Level) (size : Nat) (live : Bool) : Eval Int := do
  let a ← g.operand live
  match ← upcoming with
  | .operator op => climb (g.operand live) live size a op topLevel
  | _ => return a

/-- Terms joined by "and". -/
def readConjunction (g : Level) (size : Nat) : Nat → Bool → Eval Int
  | 0, _ => fail (.wrong "expecting primary")
  | n + 1, live => do
    let a ← readTerm g size live
    if (← upcoming) ≠ .both then return a
    advance
    let b ← readConjunction g size n (live && a ≠ 0)
    return truth (a ≠ 0 && b ≠ 0)

/-- Conjunctions joined by "or". -/
def readDisjunction (g : Level) (size : Nat) : Nat → Bool → Eval Int
  | 0, _ => fail (.wrong "expecting primary")
  | n + 1, live => do
    let a ← readConjunction g size size live
    if (← upcoming) ≠ .either then return a
    advance
    let b ← readDisjunction g size n (live && a = 0)
    return truth (a ≠ 0 || b ≠ 0)

/-- A condition with two outcomes, or what stands alone. -/
def readCondition (g : Level) (size : Nat) : Nat → Bool → Eval Int
  | 0, _ => fail (.wrong "expecting primary")
  | n + 1, live => do
    let a ← readDisjunction g size size live
    if (← upcoming) ≠ .question then return a
    advance
    let b ← g.whole (live && a ≠ 0)
    unless (← upcoming) = .colon do fail (.wrong "expecting ':'")
    advance
    let c ← readCondition g size n (live && a = 0)
    return if a ≠ 0 then b else c

/-- An assignment or a condition. -/
def readWhole (scope : Scope) (g : Level) (size : Nat) (live : Bool) : Eval Int := do
  match (← get).rest with
  | .name x :: .assign op :: _ =>
    advance
    advance
    let b ← g.whole live
    unless live do return b
    let a ← match op with
      | none => pure b
      | some op => do (op.apply (← variableValue scope x) b : Except Fault Int)
    assignVariable scope x a
    return a
  | _ => readCondition g size size live

/-- Readers for a given depth of nesting. -/
def level (scope : Scope) (size : Nat) : Nat → Level
  | 0 => ⟨fun _ => fail (.wrong "expecting primary"), fun _ => fail (.wrong "expecting primary")⟩
  | n + 1 =>
    ⟨fun live => readWhole scope (level scope size n) size live,
     fun live => readOperand scope (level scope size n) live⟩

/-- The value of an expression and the variables it assigned, newest first. -/
def evaluate (scope : Scope) (text : Chars) : Except Fault (Int × List (Chars × Chars)) := do
  let size := text.length + 2
  let (value, s) ← ((level scope size size).whole true).run ⟨symbols size text, []⟩
  unless s.rest.head? = some .finish do throw (.wrong "expecting EOF")
  return (value, s.assigned)

end SimWorkbench.Shell.Arithmetic
