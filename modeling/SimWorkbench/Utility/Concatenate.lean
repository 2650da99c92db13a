import SimWorkbench.Text.Lines
import SimWorkbench.Utility.Options

/-!
# Printing files one after the other

Files and the input are printed in the order of the operands, perhaps with their lines numbered and
with characters made visible. Numbering goes on from one file to the next.
-/
namespace SimWorkbench.Utility

open Shell

/-- How files are shown. -/
structure Showing where
  numbers : Bool
  /-- Only lines that are not empty get numbers. -/
  numbersFilled : Bool
  /-- Of several empty lines one is shown. -/
  squeezes : Bool
  ends : Bool
  tabs : Bool
  nonprinting : Bool

/-- How far the showing of files has come. -/
structure Shown where
  line : Nat
  /-- How many line ends were shown last; two mean that an empty line was. -/
  newlines : Nat
  /-- Whether a line has begun and not ended. -/
  isInside : Bool
  /-- Whether the last character was a carriage return that may belong to a line end. -/
  isReturn : Bool

namespace Showing

def isPlain (s : Showing) : Bool :=
  !(s.numbers || s.numbersFilled || s.squeezes || s.ends || s.tabs || s.nonprinting)

/-- A character made visible. -/
def visible (s : Showing) (c : Char) : Chars :=
  if c == '\t' then (if s.tabs then ['^', 'I'] else [c])
  else if !s.nonprinting || c == '\n' then [c]
  else
    let low (c : Char) : Chars :=
      if c < ' ' then ['^', Char.ofNat (c.toNat + 64)]
      else if c == '\x7f' then ['^', '?']
      else [c]
    if c.toNat < 128 then low c else 'M' :: '-' :: low (Char.ofNat (c.toNat - 128))

/-- A line number in front of a line. -/
def number (n : Nat) : Chars :=
  let digits := decimal n
  List.replicate (6 - digits.length) ' ' ++ digits ++ ['\t']

/-- What is shown of a line end. -/
def lineEnd (s : Showing) (state : Shown) : Chars × Shown :=
  if state.isInside then
    let mark : Chars := if s.ends then (if state.isReturn then "^M$".toList else ['$']) else
      if state.isReturn then ['\r'] else []
    (mark ++ ['\n'], { state with newlines := 1, isInside := false, isReturn := false })
  else if 2 ≤ state.newlines && s.squeezes then ([], state)
  else
    let count := state.newlines + 1
    let front := if s.numbers && !s.numbersFilled then number state.line else []
    let line := if s.numbers && !s.numbersFilled then state.line + 1 else state.line
    (front ++ (if s.ends then ['$'] else []) ++ ['\n'], { state with line, newlines := count })

/-- What is shown of a character that is no line end. -/
def inside (s : Showing) (state : Shown) (c : Char) : Chars × Shown :=
  let starts := !state.isInside && (s.numbers || s.numbersFilled)
  let front := if starts then number state.line else []
  let line := if starts then state.line + 1 else state.line
  let before : Chars := if state.isReturn then ['\r'] else []
  let waits : Bool := s.ends && !s.nonprinting && c == '\r'
  (front ++ before ++ (if waits then [] else s.visible c),
    { state with line, isInside := true, newlines := 0, isReturn := waits })

/-- What is shown of a text. -/
def text (s : Showing) (state : Shown) (text : Chars) : Chars × Shown :=
  let (pieces, state) := text.foldl
    (fun (acc : List Chars × Shown) c =>
      let (piece, state) := if c == '\n' then s.lineEnd acc.2 else s.inside acc.2 c
      (piece :: acc.1, state))
    ([], state)
  (pieces.reverse.flatten, state)

end Showing

/-- The options of the utility that prints files. -/
def showingForms : List OptionForm :=
  [⟨'b', .nothing, true, ["number-nonblank"]⟩, ⟨'n', .nothing, true, ["number"]⟩,
   ⟨'s', .nothing, true, ["squeeze-blank"]⟩, ⟨'v', .nothing, true, ["show-nonprinting"]⟩,
   ⟨'E', .nothing, true, ["show-ends"]⟩, ⟨'T', .nothing, true, ["show-tabs"]⟩,
   ⟨'A', .nothing, true, ["show-all"]⟩, ⟨'e', .nothing, true, []⟩, ⟨'t', .nothing, true, []⟩,
   ⟨'u', .nothing, true, []⟩, ⟨'?', .nothing, false, ["help"]⟩, ⟨'!', .nothing, false, ["version"]⟩]

def Showing.ofCall (c : Call) : Showing :=
  let any (keys : List Char) : Bool := keys.any c.has
  { numbers := any ['n', 'b'], numbersFilled := c.has 'b', squeezes := c.has 's',
    ends := any ['E', 'A', 'e'], tabs := any ['T', 'A', 't'],
    nonprinting := any ['v', 'A', 'e', 't'] }

/-- Prints a text to the output; the program ends if that fails. -/
def printOrEnd (name : Chars) (text : Chars) : Exec Unit := do
  if let some e ← emitOn 1 text then
    grumble name ("write error: ".toList ++ e.plain.toList)
    throw (.exit 1)

/-- Opens a file under a descriptor that is not used otherwise, as long as something runs. -/
def withOpen {α : Type} (descriptor : Nat) (file : OpenFile) (run : Exec α) : Exec α := do
  let before := (← get).descriptors
  redirect descriptor (some (← newFile file))
  andThen run (modify fun s => { s with descriptors := before })

/-- The descriptor under which utilities open their files. -/
def fileDescriptor : Nat := 1000

/-- Whether a descriptor leads to the file that the output goes to, at a place where that has been
written to already. -/
def feedsItself (descriptor : Nat) : Exec Bool := do
  let s ← get
  let open? (d : Nat) : Option OpenFile := (s.descriptors.lookup d).bind s.openFile?
  match open? descriptor, open? 1 with
  | some source, some target =>
    match source.channel, target.channel with
    | .file place, .file place' =>
      let size := match s.files.get? place' with
        | some (.file content _) => content.length
        | _ => 0
      return place = place' && source.offset < (if target.appends then size else target.offset)
    | _, _ => return false
  | _, _ => return false

/-- Prints what a descriptor yields. -/
def showDescriptor (name label : Chars) (s : Showing) (state : Shown) (descriptor : Nat) :
    Exec (Option Shown) := do
  match ← peek descriptor with
  | .error e =>
    grumble name (quotedIfNeeded label ++ ": ".toList ++ e.plain.toList)
    return none
  | .ok (text, complete) =>
    if ← feedsItself descriptor then
      grumble name (quotedIfNeeded label ++ ": input file is output file".toList)
      return none
    skipInput descriptor text.length
    let (shown, state) := if s.isPlain then (text, state) else s.text state text
    printOrEnd name shown
    unless complete do throw .waiting
    return some state

/-- An open file for reading what a name leads to. -/
def openForReading (name : Chars) : Exec (Except OsError OpenFile) := do
  let s ← get
  match s.files.locate s.dir (toPath name) with
  | .error e => return .error e
  | .ok (_, .device (.stream n)) =>
    match (s.descriptors.lookup n).bind s.openFile? with
    | some { channel := .file place, .. } => return .ok ⟨.file place, 0, false, true, false⟩
    | some file => return .ok file
    | none => return .error .notFound
  | .ok (place, entry) =>
    return .ok ⟨match entry with
      | .directory => .directory
      | .device .full => .brimful
      | .device _ => .nowhere
      | _ => .file place, 0, false, true, false⟩

/-- Prints files one after the other; tells whether one of them could not be printed. -/
def showFiles (name : Chars) (s : Showing) : Shown → Bool → List Chars → Exec Bool
  | state, failed, [] => do
    if state.isReturn then printOrEnd name ['\r']
    return failed
  | state, failed, label :: rest => do
    let next ← if label = ['-'] then showDescriptor name label s state 0
      else match ← openForReading label with
        | .error e => do
          grumble name (quotedIfNeeded label ++ ": ".toList ++ e.plain.toList)
          pure none
        | .ok file =>
          withOpen fileDescriptor file (showDescriptor name label s state fileDescriptor)
    showFiles name s (next.getD state) (failed || next.isNone) rest

/-- The utility that prints files. -/
def concatenate (words : List Chars) : Exec Unit := do
  let name := words.headD []
  match readCall showingForms words.tail with
  | .error misuse =>
    grumble name misuse
    adviseHelp name
    setStatus 1
  | .ok call =>
    if ((← get).descriptors.lookup 1).isNone then
      grumble name "standard output: Bad file descriptor".toList
      setStatus 1
    else
      let names := if call.operands.isEmpty then [['-']] else call.operands
      let failed ← showFiles name (.ofCall call) ⟨1, 1, false, false⟩ false names
      if names.contains ['-'] && ((← get).descriptors.lookup 0).isNone then
        grumble name "closing standard input: Bad file descriptor".toList
        setStatus 1
      else setStatus (if failed then 1 else 0)

end SimWorkbench.Utility
