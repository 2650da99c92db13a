import SimWorkbench.Shell.Number
import SimWorkbench.Shell.State

/-!
# Conditions

Questions about texts, numbers and files, joined by words for "and", "or" and "not". Whether a word
is such a word, or an operand that looks like one, depends on what follows it.
-/
namespace SimWorkbench.Shell.Condition

/-- Why a question has no answer. -/
inductive Fault where
  | unexpected (word : Chars)
  | noNumber (word : Chars)
  | missing (word : Chars)
  | unclosed
  deriving DecidableEq, Repr

def Fault.message : Fault → Chars
  | unexpected word => word ++ ": unexpected operator".toList
  | noNumber word => "Illegal number: ".toList ++ word
  | missing word => word ++ ": argument expected".toList
  | unclosed => "closing paren expected".toList

/-- The files that questions are about. -/
structure World where
  files : FileTree
  dir : Location

def World.entry? (w : World) (name : Chars) : Option Entry :=
  w.files.entryAt? w.dir (toPath name)

/-- How recently a file was changed: how many files were changed since. -/
def World.age? (w : World) (name : Chars) : Option Nat :=
  match w.files.locate w.dir (toPath name) with
  | .ok (place, _) => some (w.files.entries.findIdx fun x => x.1 == place)
  | .error _ => none

/-- What a word can mean. -/
inductive Role where
  /-- Asks about the word behind it. -/
  | unary
  /-- Compares the words around it. -/
  | binary
  | negation | conjunction | disjunction | open_ | close
  deriving DecidableEq, Repr

def role? (word : Chars) : Option Role :=
  match String.ofList word with
  | "!" => some .negation
  | "-a" => some .conjunction
  | "-o" => some .disjunction
  | "(" => some .open_
  | ")" => some .close
  | "=" | "!=" | "<" | ">" | "-eq" | "-ne" | "-ge" | "-gt" | "-le" | "-lt" | "-nt" | "-ot"
  | "-ef" => some .binary
  | "-r" | "-w" | "-x" | "-e" | "-f" | "-d" | "-c" | "-b" | "-p" | "-u" | "-g" | "-k" | "-s"
  | "-t" | "-z" | "-n" | "-h" | "-O" | "-G" | "-L" | "-S" => some .unary
  | _ => none

/-- The number that a word has to be. -/
def number (word : Chars) : Except Fault Int :=
  match integer? 10 word with
  | some n => .ok n
  | none => .error (.noNumber word)

/-- Whether anybody may run the entry. -/
def canRun : Entry → Bool
  | .device _ => false
  | e => e.mode.isExecutable

/-- The answer of a question about one word. -/
def ask (w : World) (op word : Chars) : Except Fault Bool :=
  let about (f : Entry → Bool) : Except Fault Bool := .ok ((w.entry? word).any f)
  match String.ofList op with
  | "-n" => .ok (!word.isEmpty)
  | "-z" => .ok word.isEmpty
  | "-t" => do discard (number word); return false
  | "-e" | "-r" | "-w" | "-O" | "-G" => about fun _ => true
  | "-f" => about Entry.isFile
  | "-d" => about Entry.isDirectory
  | "-x" => about canRun
  | "-c" => about fun
    | .device d => d = .null || d = .full
    | _ => false
  | "-p" => about fun
    | .device (.stream _) => true
    | _ => false
  | "-s" => about fun
    | .file content _ => !content.isEmpty
    | .device _ => false
    | _ => true
  | "-u" => about fun e => e.mode &&& 0o4000 != 0
  | "-g" => about fun e => e.mode &&& 0o2000 != 0
  | "-k" => about fun e => e.mode &&& 0o1000 != 0
  | _ => .ok false

/-- The answer of a comparison. -/
def compare (w : World) (op a b : Chars) : Except Fault Bool :=
  let numbers (f : Int → Int → Bool) : Except Fault Bool := do return f (← number a) (← number b)
  let ages (f : Nat → Nat → Bool) : Except Fault Bool :=
    match w.age? a, w.age? b with
    | some x, some y => .ok (f x y)
    | _, _ => .ok false
  match String.ofList op with
  | "=" => .ok (a == b)
  | "!=" => .ok (a != b)
  | "<" => .ok (a < b)
  | ">" => .ok (b < a)
  | "-eq" => numbers fun a b => a == b
  | "-ne" => numbers fun a b => a != b
  | "-lt" => numbers fun a b => a < b
  | "-le" => numbers fun a b => a ≤ b
  | "-gt" => numbers fun a b => b < a
  | "-ge" => numbers fun a b => b ≤ a
  | "-nt" => ages fun a b => a < b
  | "-ot" => ages fun a b => b < a
  | _ => ages fun a b => a == b

/-- What the first of some words means there: a question's word is an operand if nothing follows it,
or if a comparison does that has an operand of its own. -/
def roleIn (words : List Chars) : Option Role :=
  match words with
  | [] => none
  | word :: rest =>
    let isOperand : Bool := match rest with
      | [] => true
      | [_] => false
      | next :: _ => role? next = some .binary
    match role? word with
    | some .unary => if isOperand then none else some .unary
    | some .open_ => if rest.isEmpty then none else some .open_
    | r => r

/-- An answer, and the words from the last one on that it took into account. -/
abbrev Answer := Except Fault (Bool × List Chars)

mutual

/-- Questions joined by "or". The number bounds how often questions can be joined or nested. -/
def disjunction (w : World) : Nat → Option Role → List Chars → Answer
  | 0, _, words => .ok (false, words)
  | n + 1, role, words => do
    let (a, left) ← conjunction w n role words
    if roleIn left.tail = some .disjunction then
      let (b, left) ← disjunction w n (roleIn (left.drop 2)) (left.drop 2)
      return (a || b, left)
    return (a, left)

/-- Questions joined by "and". -/
def conjunction (w : World) : Nat → Option Role → List Chars → Answer
  | 0, _, words => .ok (false, words)
  | n + 1, role, words => do
    let (a, left) ← negatable w n role words
    if roleIn left.tail = some .conjunction then
      let (b, left) ← conjunction w n (roleIn (left.drop 2)) (left.drop 2)
      return (a && b, left)
    return (a, left)

/-- A question that may be negated. -/
def negatable (w : World) : Nat → Option Role → List Chars → Answer
  | 0, _, words => .ok (false, words)
  | n + 1, role, words =>
    if role = some .negation then do
      let rest := if words.tail.isEmpty then words else words.tail
      let (a, left) ← negatable w n (if words.tail.isEmpty then none else roleIn words.tail)
        (if words.tail.isEmpty then [] else rest)
      return (!a, if words.tail.isEmpty then words else left)
    else single w n role words

/-- A single question. -/
def single (w : World) : Nat → Option Role → List Chars → Answer
  | 0, _, words => .ok (false, words)
  | _, _, [] => .ok (false, [])
  | n + 1, role, word :: rest =>
    match role with
    | some .open_ =>
      if roleIn rest = some .close then .ok (false, rest)
      else do
        let (a, left) ← disjunction w n (roleIn rest) rest
        if roleIn left.tail = some .close then return (a, left.tail) else throw .unclosed
    | some .unary =>
      match rest with
      | [] => .error (.missing word)
      | operand :: _ => do return (← ask w word operand, rest)
    | _ =>
      match rest with
      | op :: more =>
        if roleIn rest = some .binary then
          match more with
          | [] => .error (.missing op)
          | b :: _ => do return (← compare w op word b, more)
        else .ok (!word.isEmpty, word :: rest)
      | [] => .ok (!word.isEmpty, [word])

end

/-- Whether the words hold, by the rules for joined questions. If words are left, the first of them
is to blame. -/
def allHold (w : World) (role : Option Role) (words : List Chars) : Except Fault Bool := do
  let (answer, left) ← disjunction w (2 * words.length + 8) role words
  match left with
  | last :: _ :: _ => throw (.unexpected last)
  | _ => return answer

/-- Whether the words hold. Three words with a comparison in the middle are nothing else; three or
four may be a question in brackets or a negated one. -/
def holds (w : World) : List Chars → Except Fault Bool
  | [] => .ok false
  | first :: rest =>
    let isShort := rest.length = 2 || rest.length = 3
    if rest.length = 2 && (rest.head?.bind role?) = some .binary then
      allHold w none (first :: rest)
    else if isShort && first = ['('] && rest.getLast? = some [')'] then
      allHold w (roleIn rest.dropLast) rest.dropLast
    else if isShort && first = ['!'] then do return !(← holds w rest)
    else allHold w (roleIn (first :: rest)) (first :: rest)

end SimWorkbench.Shell.Condition
