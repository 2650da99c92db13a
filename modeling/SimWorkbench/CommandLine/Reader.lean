import SimWorkbench.CommandLine.Basic
import SimWorkbench.Text.Lines

/-!
# Reading command lines

A line is read word by word. A word is a command, a parameter with a name, or a value; after two
dashes it is always a value. A value is looked at when the next parameter begins, so that of two
faults the one met first is reported. The faults of a command come before those of the level above.
-/
namespace SimWorkbench.CommandLine
open Decimal

/-- What has been read at a level. -/
structure Reading where
  level : Level
  switches : List Switch := []
  model : Option Path := none
  replications : Option UInt32 := none
  stopTime : Option Binary64 := none
  /-- A parameter under way, with its value if that has come. -/
  pending : Option (Slot × Option String) := none
  /-- Whether only values follow. -/
  valuesOnly : Bool := false

namespace Reading

/-- A whole number that a word of 32 bits holds; a sign may stand in front. -/
def word? (text : String) : Option UInt32 := do
  let n ← wholeNumber? text.toList
  if 0 ≤ n && n < Nat.pow 2 32 then some (UInt32.ofNat n.toNat) else none

/-- Gives a parameter its value, once. -/
def fill (r : Reading) (slot : Slot) (text : String) : Except Refusal Reading :=
  match slot with
  | .model => if text.isEmpty then .error .missingValue else .ok { r with model := some ⟨text⟩ }
  | .replications =>
    if r.replications.isSome then .error .conflict
    else match word? text with
      | some n => .ok { r with replications := some n }
      | none => .error .badValue
  | .stopTime =>
    if r.stopTime.isSome then .error .conflict
    else match Binary64.ofText? text.toList with
      | some x => .ok { r with stopTime := some x }
      | none => .error .badValue

/-- Completes the parameter under way. -/
def settle (r : Reading) : Except Refusal Reading :=
  match r.pending with
  | none => .ok r
  | some (_, none) => .error .missingValue
  | some (slot, some text) => { r with pending := none }.fill slot text

/-- Meets a parameter without a value. -/
def meet (r : Reading) (p : Parameter) : Except Refusal Reading := do
  let r ← r.settle
  match p with
  | .help => throw (.help (.level r.level))
  | .version => throw .version
  | .switch s =>
    if s ∈ r.switches then throw .conflict
    return { r with switches := r.switches ++ [s] }
  | .slot s => return { r with pending := some (s, none) }

/-- Meets a long name, perhaps with a value behind an equals sign. -/
def long (r : Reading) (name : String) (value : Option String) : Except Refusal Reading :=
  match r.level.long? name, value with
  | none, _ => .error .unknownParameter
  | some (.slot s), some text => do (← r.settle).fill s text
  | some _, some _ => .error .needlessValue
  | some p, none => r.meet p

/-- Meets short names in one word. -/
def shorts (r : Reading) : List Char → Except Refusal Reading
  | [] => .ok r
  | c :: rest =>
    match r.level.short? c with
    | none => .error .unknownParameter
    | some p => do (← r.meet p).shorts rest

/-- Whether a word is a command here; help is one wherever others are. -/
def isCommand (level : Level) (word : String) : Bool :=
  level.isOpen && (word == "help" || level.commands.any fun c => c.1 == word)

/-- Meets a value that no name announces. -/
def value (r : Reading) (text : String) : Except Refusal Reading := do
  let hasModel := r.model.isSome || r.pending.any fun p => p.1 == .model
  if r.level.takesModel && !hasModel then
    return { (← r.settle) with pending := some (.model, some text) }
  else if r.level.isOpen && !(r.valuesOnly && isCommand r.level text) then throw .unknownCommand
  else throw .unknownParameter

/-- Meets a word that is no command. -/
def word (r : Reading) (text : String) : Except Refusal Reading :=
  if r.valuesOnly then r.value text
  else
    match text.toList with
    | ['-', '-'] => .ok { r with valuesOnly := true }
    | '-' :: '-' :: body =>
      match Text.splitAt? ['='] body with
      | some (name, value) => r.long (String.ofList name) (some (String.ofList value))
      | none => r.long (String.ofList body) none
    | '-' :: c :: rest => r.shorts (c :: rest)
    | _ =>
      match r.pending with
      | some (slot, none) => .ok { r with pending := some (slot, some text) }
      | _ => r.value text

/-- Whether the next word is the value of an option. -/
def awaits (r : Reading) : Bool := r.pending.any fun p => p.2.isNone

/-- The task of a level that no command follows. -/
def task? (r : Reading) : Option Task :=
  match r.level with
  | .compile => r.model.map .compile
  | .run => r.model.map fun m =>
      .run m r.replications r.stopTime (decide (.modelVerbose ∈ r.switches))
  | .cacheList => some .listCache
  | .cacheInvalidate => r.model.map .invalidate
  | .cacheClear => some .clearCache
  | .cacheCollect => some .collectGarbage
  | .clean => some .clean
  | .top | .cache => none

/-- Ends a level. What the command below it gave are its switches and the task. -/
def finish (r : Reading) (below : Option (List Switch × Task)) :
    Except Refusal (List Switch × Task) := do
  let r ← r.settle
  if r.level.isOpen && below.isNone then
    throw (if r.switches.isEmpty then .nothingGiven r.level else .missingCommand)
  if .quiet ∈ r.switches && .verbose ∈ r.switches then throw .conflict
  match below, r.task? with
  | some (switches, task), _ => return (r.switches ++ switches, task)
  | none, some task => return (r.switches, task)
  | none, none => throw .missingModel

end Reading

/-- The page of help that words name from a level on. -/
def pageOf (level : Level) : List String → Except Refusal Page
  | [] => .ok (.level level)
  | word :: rest =>
    match level.commands.lookup word with
    | some below => pageOf below rest
    | none =>
      if level.isOpen && word == "help" && rest.isEmpty then .ok (.help level)
      else .error .unknownCommand

/-- Reads the words of a level and of the levels below it. -/
def readFrom (r : Reading) : List String → Except Refusal (List Switch × Task)
  | [] => r.finish none
  | text :: rest =>
    if !r.valuesOnly && !r.awaits && Reading.isCommand r.level text then
      match r.level.commands.lookup text with
      | some level => do r.finish (some (← readFrom { level := level } rest))
      | none => do throw (.help (← pageOf r.level rest))
    else do readFrom (← r.word text) rest

/-- The request that a command line makes. -/
def parse (words : List String) : Except Refusal Request := do
  let (switches, task) ← readFrom { level := .top } words
  return ⟨task, decide (.force ∈ switches), decide (.quiet ∈ switches),
    decide (.verbose ∈ switches)⟩

end SimWorkbench.CommandLine
