import SimWorkbench.Shell.Parameters

/-!
# Reading variables

A line of the input is cut into fields, one for each of some variables; the last one gets the rest.
A backslash takes the meaning from the character behind it and joins a line to the next one.
-/
namespace SimWorkbench.Shell

/-- What was found in an input up to the end of a line. -/
structure InputLine where
  cells : List (Char × Bool)
  /-- How many characters of the input were looked at. -/
  size : Nat
  /-- Whether the line had an end. -/
  ended : Bool

/-- The line at the front of an input; characters behind a backslash are marked, unless backslashes
mean nothing. NUL characters do not count. -/
def readInputLine (raw : Bool) : List (Char × Bool) → Nat → Chars → InputLine
  | done, n, [] => ⟨done.reverse, n, false⟩
  | done, n, '\x00' :: rest => readInputLine raw done (n + 1) rest
  | done, n, '\n' :: _ => ⟨done.reverse, n + 1, true⟩
  | done, n, '\\' :: rest =>
    if raw then readInputLine raw (('\\', false) :: done) (n + 1) rest
    else escaped done (n + 1) rest
  | done, n, c :: rest => readInputLine raw ((c, false) :: done) (n + 1) rest
where
  /-- Goes on behind a backslash. -/
  escaped (done : List (Char × Bool)) (n : Nat) : Chars → InputLine
    | [] => ⟨done.reverse, n, false⟩
    | '\x00' :: rest => escaped done (n + 1) rest
    | '\n' :: rest => readInputLine raw done (n + 1) rest
    | c :: rest => readInputLine raw ((c, true) :: done) (n + 1) rest

/-- A line as an expanded word: what was not behind a backslash can be cut. -/
def InputLine.expanded (line : InputLine) : Expanded :=
  let cells := line.cells.map fun x => Cell.char x.1 x.2
  let runs := (line.cells.zipIdx.splitBy fun a b => a.1.2 == b.1.2).filterMap fun run =>
    match run with
    | ((_, false), start) :: _ => some (⟨start, start + run.length, false⟩ : Region)
    | _ => none
  ⟨cells.toArray, runs.toArray⟩

/-- Gives variables the fields in turn; those without a field become empty. -/
def assignFields : List Chars → List (List Cell) → Exec Unit
  | [], _ => return ()
  | name :: names, fields => do
    setVariable name (cellChars (fields.headD []))
    assignFields names fields.tail

/-- The command that reads a line into variables. -/
def readVariables (words : List Chars) : Exec Unit := do
  let o ← readOptions [('p', true), ('r', false)] words
  if o.words.isEmpty then abort "arg count".toList
  let line ← match ← peek 0 with
    | .error _ => pure ⟨[], 0, false⟩
    | .ok (text, complete) => do
      let line := readInputLine (o.has 'r') [] 0 text
      unless line.ended || complete do throw .waiting
      skipInput 0 line.size
      pure line
  let s ← get
  assignFields o.words (line.expanded.fields (separators s) (some o.words.length))
  setStatus (if line.ended then 0 else 1)

end SimWorkbench.Shell
