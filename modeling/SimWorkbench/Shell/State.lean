import SimWorkbench.FileTree.Operations
import SimWorkbench.Shell.Number
import SimWorkbench.Shell.Setting
import SimWorkbench.Text.Lines

/-!
# State of a running script

What a script has done is a list of actions; how it is to go on is a state. The input that a script
was given so far may not be all it will get: a script that needs more waits. More input never
changes what was done before, because everything up to that point depended only on what was there.
-/
namespace SimWorkbench.Shell

/-- The bytes of a text, one character for each. -/
def ofBytes (bytes : Bytes) : Chars := bytes.map fun b => Char.ofNat b.toNat
def toBytes (text : Chars) : Bytes := text.map fun c => UInt8.ofNat c.toNat

def ofText (text : String) : Chars := ofBytes (Bytes.ofString text)
def toText (text : Chars) : String := Text.Utf8.toStringLossy (toBytes text)

/-- A path as scripts write it. -/
def toPath (name : Chars) : Path := ⟨toText name⟩

/-- Where an open file leads. -/
inductive Channel where
  /-- The input that the host gives bit by bit. -/
  | given
  | stdout | stderr
  /-- What was written and not yet read, known by its number. -/
  | pipe (number : Nat)
  | file (place : Location)
  | directory
  | nowhere
  /-- Has no room for what is written. -/
  | brimful
  deriving DecidableEq, Repr

/-- An open file. All descriptors that lead to it share its place. -/
structure OpenFile where
  channel : Channel
  /-- The place in the file where the next byte is read or written. -/
  offset : Nat
  /-- Whether all that is written goes to the end. -/
  appends : Bool
  readable : Bool
  writable : Bool
  deriving DecidableEq, Repr

/-- What goes from one command to the next. -/
structure Pipe where
  /-- What comes next. -/
  front : Chars
  /-- What was written since, last first. -/
  back : List Chars
  /-- Whether nothing more will be written. -/
  complete : Bool

/-- What a script did that others can see. -/
inductive Action where
  | stdout (text : Chars)
  | stderr (text : Chars)
  | put (place : Location) (entry : Entry)
  deriving DecidableEq, Repr

/-- Why a script does not simply go on. -/
inductive Stop where
  | exit (status : Nat)
  /-- An error that ends the script unless it happens in a command that may fail. -/
  | failure
  /-- Leaves so many loops. -/
  | leave (count : Nat)
  /-- Goes on with the next round of a loop, so many loops up. -/
  | next (count : Nat)
  /-- Leaves a function or a script that was read; says whether the status was given. -/
  | back (given : Bool)
  /-- Needs more input than there is. -/
  | waiting
  | killed (signal : Nat)
  /-- Repeated too often. -/
  | overrun
  deriving DecidableEq, Repr

/-- A variable; one without a value is only known by its marks. -/
structure Variable where
  name : Chars
  value : Option Chars
  exported : Bool
  readOnly : Bool

/-- What is put back when a function ends. -/
inductive Saved where
  | variable (name : Chars) (old : Option Variable)
  | settings (on : List Setting)

/-- The arguments of a script or a function, and how far their options have been read: the number of
the next word, and the place in the word before it. -/
structure Arguments where
  words : List Chars
  optionWord : Nat
  optionPlace : Option Nat

/-- Arguments of which no option has been read. -/
def Arguments.fresh (words : List Chars) : Arguments := ⟨words, 1, none⟩

/-- A process that was sent into the background and has ended. -/
structure Job where
  number : Nat
  process : Nat
  status : Nat
  /-- The signal that killed it. -/
  signal : Option Nat
  /-- Whether the script has waited for it. -/
  waited : Bool

/-- Where a command was found: the place of the directory among those searched, and whether it has
to be looked up again because the script has gone to another directory. -/
structure Known where
  name : Chars
  place : Nat
  stale : Bool

/-- A function and what it does. -/
structure Function where
  name : Chars
  body : Tree

structure State where
  files : FileTree
  dir : Location
  /-- The current directory as the script names it. -/
  dirName : Chars
  /-- The rights that new files do not get. -/
  withheld : Mode
  vars : List Variable
  functions : List Function
  aliases : List (Chars × Chars)
  /-- Programs that were looked up, in that order. -/
  known : List Known
  /-- The name under which the script runs. -/
  name : Chars
  arguments : Arguments
  status : Nat
  /-- The status of the last command in a word. -/
  substitution : Nat
  /-- The status before what is done on a signal or at the end, while that is done. -/
  before : Option Nat
  /-- The numbers of this process, of the script it belongs to, and of the next one. -/
  process : Nat
  root : Nat
  nextProcess : Nat
  /-- The numbers of the processes that wait for this one, the next one first. -/
  above : List Nat
  /-- Signals that were sent to them, with their numbers. -/
  sent : List (Nat × Nat)
  /-- The last process that was sent into the background. -/
  lastJob : Option Nat
  /-- Newest first. -/
  jobs : List Job
  descriptors : List (Nat × Nat)
  opened : List (Nat × OpenFile)
  pipes : List (Nat × Pipe)
  nextNumber : Nat
  /-- Input of the host that has not been read, and whether that is all. -/
  given : Chars
  closed : Bool
  documents : List (Nat × List Piece)
  /-- Newest first. -/
  actions : List Action
  line : Nat
  /-- The line up to which the script has been read. -/
  reached : Nat
  /-- The command of the language that is being carried out, if it is to be named in messages. -/
  command : Option Chars
  /-- The loops around the current command. -/
  loops : Nat
  /-- The functions around the current command. -/
  calls : Nat
  settings : List Setting
  /-- What the functions around the current command have made their own, innermost first. -/
  frames : List (List Saved)
  /-- What is done at the end, which has number 0, and on signals. -/
  traps : List (Nat × Chars)
  /-- Signals that had no effect when the script began; they never get one. -/
  deaf : List Nat
  /-- Signals that have come and wait for what is done on them. -/
  raised : List Nat
  /-- Whether a command is being shown. -/
  tracing : Bool
  /-- Whether a command of the language could not print what it had to. -/
  printFailed : Bool

/-- A step of a script. -/
abbrev Exec := ExceptT Stop (StateM State)

namespace State

/-- Input, output and error stream of a program. -/
def standardFiles : List (Nat × OpenFile) :=
  [(0, ⟨.given, 0, false, true, false⟩), (1, ⟨.stdout, 0, false, false, true⟩),
   (2, ⟨.stderr, 0, false, false, true⟩)]

/-- A program about to start. -/
def start (files : FileTree) (dir : Location) (vars : List (Chars × Chars)) (given : Chars)
    (closed : Bool) : State :=
  { files, dir, dirName := ofText dir.path.text, withheld := 0o022,
    vars := vars.map fun v => ⟨v.1, some v.2, true, false⟩, functions := [], aliases := [],
    known := [], name := [], arguments := .fresh [], status := 0, substitution := 0,
    before := none, process := 1000, root := 1000, nextProcess := 1001, above := [], sent := [],
    lastJob := none, jobs := [], descriptors := [(0, 0), (1, 1), (2, 2)], opened := standardFiles,
    pipes := [], nextNumber := 3, given, closed, documents := [], actions := [], line := 0,
    reached := 1, command := none, loops := 0, calls := 0, settings := [], frames := [],
    traps := [], deaf := [], raised := [], tracing := false, printFailed := false }

def isOn (s : State) (setting : Setting) : Bool := s.settings.contains setting

def find? (s : State) (name : Chars) : Option Variable := s.vars.find? fun v => v.name = name

def value? (s : State) (name : Chars) : Option Chars := (s.find? name).bind Variable.value

/-- Makes a variable what it was. Programs that were looked up are forgotten if that changes where
programs are looked for. -/
def restore (s : State) (name : Chars) (old : Option Variable) : State :=
  { s with vars := old.toList ++ s.vars.filter fun v => v.name ≠ name,
           known := if name = "PATH".toList then [] else s.known }

/-- Gives a variable a value and keeps its marks. -/
def assign (s : State) (name value : Chars) (exported : Bool) : State :=
  let old := s.find? name
  s.restore name
    (some ⟨name, some value, exported || s.isOn .allexport || old.any Variable.exported,
      old.any Variable.readOnly⟩)

def pipe? (s : State) (n : Nat) : Option Pipe := s.pipes.lookup n

def setPipe (s : State) (n : Nat) (p : Pipe) : State :=
  { s with pipes := (n, p) :: s.pipes.filter fun x => x.1 ≠ n }

def openFile? (s : State) (n : Nat) : Option OpenFile := s.opened.lookup n

def setOpenFile (s : State) (n : Nat) (f : OpenFile) : State :=
  { s with opened := (n, f) :: s.opened.filter fun x => x.1 ≠ n }

/-- The state after a process that ran for the script, as far as the script can see it. -/
def adopt (s inner : State) : State :=
  { s with files := inner.files, given := inner.given, opened := inner.opened,
           pipes := inner.pipes, nextNumber := inner.nextNumber,
           nextProcess := inner.nextProcess, actions := inner.actions, status := inner.status,
           sent := inner.sent }

end State

def setStatus (status : Nat) : Exec Unit := modify fun s => { s with status := status }

/-- A new number for an open file or a pipe. -/
def freshNumber : Exec Nat := do
  let n := (← get).nextNumber
  modify fun s => { s with nextNumber := n + 1 }
  return n

/-- Puts an entry into the files. -/
def putEntry (place : Location) (entry : Entry) : Exec Unit :=
  modify fun s =>
    { s with files := s.files.insert place entry, actions := .put place entry :: s.actions }

/-- A content in which bytes from a place on are replaced; zeros fill what lies before the place. -/
def splice (content new : Bytes) (place : Nat) : Bytes :=
  content.take place ++ List.replicate (place - content.length) 0 ++ new ++
    content.drop (place + new.length)

/-- Writes to an open file; tells why it could not. -/
def writeFile (number : Nat) (text : Chars) : Exec (Option OsError) := do
  let s ← get
  match s.openFile? number with
  | none => return some .badDescriptor
  | some f =>
    unless f.writable do return some .badDescriptor
    match f.channel with
    | .stdout => set { s with actions := .stdout text :: s.actions }; return none
    | .stderr => set { s with actions := .stderr text :: s.actions }; return none
    | .pipe n =>
      if let some p := s.pipe? n then set (s.setPipe n { p with back := text :: p.back })
      return none
    | .file place =>
      match s.files.get? place with
      | some (.file content mode) =>
        let offset := if f.appends then content.length else f.offset
        putEntry place (.file (splice content (toBytes text) offset) mode)
        modify fun s => s.setOpenFile number { f with offset := offset + text.length }
        return none
      | _ => return none
    | .brimful => return some .noSpace
    | .nowhere => return none
    | .given | .directory => return some .badDescriptor

/-- Writes to a descriptor; tells why it could not. -/
def emitOn (descriptor : Nat) (text : Chars) : Exec (Option OsError) := do
  if text.isEmpty then return none
  match (← get).descriptors.lookup descriptor with
  | some number => writeFile number text
  | none => return some .badDescriptor

/-- Writes to a descriptor; nothing happens if that is impossible. -/
def emit (descriptor : Nat) (text : Chars) : Exec Unit := discard (emitOn descriptor text)

/-- Writes to the output, for a command of the language. -/
def print (text : Chars) : Exec Unit := do
  if (← emitOn 1 text).isSome then modify fun s => { s with printFailed := true }

/-- Tells what went wrong: the script, the line, the command if it is one of the language, and the
text. -/
def complain (text : Chars) : Exec Unit := do
  let s ← get
  let command := match s.command with
    | some name => name ++ ": ".toList
    | none => []
  emit 2 (s.name ++ ": ".toList ++ decimal s.line ++ ": ".toList ++ command ++ text ++ ['\n'])

/-- An error of the script. -/
def abort {α : Type} (text : Chars) : Exec α := do
  complain text
  setStatus 2
  throw .failure

/-- What can be read from a descriptor now, and whether that is all there will be. -/
def peek (descriptor : Nat) : Exec (Except OsError (Chars × Bool)) := do
  let s ← get
  match (s.descriptors.lookup descriptor).bind s.openFile? with
  | none => return .error .badDescriptor
  | some f =>
    unless f.readable do return .error .badDescriptor
    match f.channel with
    | .given => return .ok (s.given, s.closed)
    | .pipe n =>
      match s.pipe? n with
      | none => return .ok ([], true)
      | some p =>
        if p.back.isEmpty then return .ok (p.front, p.complete)
        let text := p.front ++ p.back.reverse.flatten
        set (s.setPipe n { p with front := text, back := [] })
        return .ok (text, p.complete)
    | .file place =>
      match s.files.get? place with
      | some (.file content _) => return .ok (ofBytes (content.drop f.offset), true)
      | _ => return .ok ([], true)
    | .directory => return .error .isDirectory
    | .nowhere => return .ok ([], true)
    | .brimful => return .ok ([], true)
    | .stdout | .stderr => return .error .badDescriptor

/-- Goes on behind bytes that were read. -/
def skipInput (descriptor count : Nat) : Exec Unit := modify fun s =>
  match s.descriptors.lookup descriptor with
  | none => s
  | some number =>
    match s.openFile? number with
    | none => s
    | some f =>
      match f.channel with
      | .given => { s with given := s.given.drop count }
      | .pipe n =>
        match s.pipe? n with
        | some p => s.setPipe n { p with front := p.front.drop count }
        | none => s
      | .file _ => s.setOpenFile number { f with offset := f.offset + count }
      | _ => s

/-- Passes all that a descriptor yields to `use`, and waits if more may come. -/
def readOn (descriptor : Nat) (use : Chars → Exec Unit) : Exec (Option OsError) := do
  match ← peek descriptor with
  | .error e => return some e
  | .ok (text, complete) =>
    skipInput descriptor text.length
    use text
    unless complete do throw .waiting
    return none

/-- All that a descriptor yields; waits until it is complete. -/
def readAll (descriptor : Nat) : Exec (Except OsError Chars) := do
  match ← peek descriptor with
  | .error e => return .error e
  | .ok (text, complete) =>
    unless complete do throw .waiting
    skipInput descriptor text.length
    return .ok text

/-- A new open file. -/
def newFile (f : OpenFile) : Exec Nat := do
  let n ← freshNumber
  modify fun s => { s with opened := (n, f) :: s.opened }
  return n

/-- A new pipe with a text in it. -/
def newPipe (text : Chars) (complete : Bool) : Exec Nat := do
  let n ← freshNumber
  modify fun s => { s with pipes := (n, ⟨text, [], complete⟩) :: s.pipes }
  return n

/-- The end of a pipe from which it is read. -/
def readEnd (pipe : Nat) : OpenFile := ⟨.pipe pipe, 0, false, true, false⟩

/-- The end of a pipe to which it is written. -/
def writeEnd (pipe : Nat) : OpenFile := ⟨.pipe pipe, 0, false, false, true⟩

/-- Lets a descriptor lead elsewhere. -/
def redirect (descriptor : Nat) (file : Option Nat) : Exec Unit :=
  modify fun s =>
    let others := s.descriptors.filter fun d => d.1 ≠ descriptor
    { s with descriptors := match file with
        | some n => (descriptor, n) :: others
        | none => others }

/-- Runs something, and whether it went on, ended or was left, does `after`. -/
def andThen {α : Type} (run : Exec α) (after : Exec Unit) : Exec α := do
  match ← (ExceptT.lift run.run : Exec (Except Stop α)) with
  | .ok a => after; return a
  | .error stop => after; throw stop

/-- Runs something and gives what ended it. -/
def attempt {α : Type} (run : Exec α) : Exec (Except Stop α) := ExceptT.lift run.run

/-- How something ended that runs as a process of its own: with the status that is then set, or for
another reason. -/
def settleEnd : Except Stop Unit → Exec Unit
  | .ok () | .error .failure | .error (.leave _) | .error (.next _) | .error (.back _) => pure ()
  | .error (.exit status) => setStatus status
  | .error stop => throw stop

/-- Signals that do nothing to a process that has made no arrangements for them. -/
def isHarmless (signal : Nat) : Bool := [17, 18, 23, 28].contains signal

/-- Takes a signal: it is put aside if something is to be done on it, and kills the process if
nothing was said about it. Number 0 is no signal. -/
def receive (signal : Nat) : Exec Unit := do
  let s ← get
  unless signal = 0 || s.deaf.contains signal do
    match s.traps.lookup signal with
    | some action => unless action.isEmpty do set { s with raised := s.raised ++ [signal] }
    | none => unless isHarmless signal do throw (.killed signal)

/-- Takes the signals that were sent to this process while it waited. -/
def receiveSent : Exec Unit := do
  let s ← get
  let (own, others) := s.sent.partition fun x => x.1 = s.process
  set { s with sent := others }
  own.forM fun x => receive x.2

/-- Runs something as a process of its own. What others can see stays; its status remains. Gives the
signal that killed it, if one did. -/
def forked (run : Exec Unit) : Exec (Option Nat) := do
  let s ← get
  set { s with process := s.nextProcess, nextProcess := s.nextProcess + 1,
               above := s.process :: s.above, jobs := [] }
  let ended ← attempt (do settleEnd (← attempt run))
  let inner ← get
  set { s.adopt inner with jobs := s.jobs.filter fun j => !j.waited }
  match ended with
  | .ok () => setStatus (inner.status % 256); return none
  | .error (.killed signal) => setStatus (128 + signal); return some signal
  | .error stop => throw stop

/-- Runs something and collects what it prints. -/
def captured (run : Exec Unit) : Exec Chars := do
  let pipe ← newPipe [] false
  let file ← newFile (writeEnd pipe)
  let kept := (← get).descriptors
  redirect 1 (some file)
  andThen run (modify fun s => { s with descriptors := kept })
  let text := match (← get).pipe? pipe with
    | some p => p.front ++ p.back.reverse.flatten
    | none => []
  modify fun s => { s with pipes := s.pipes.filter (fun x => x.1 ≠ pipe),
                           opened := s.opened.filter (fun x => x.1 ≠ file) }
  return text

end SimWorkbench.Shell
