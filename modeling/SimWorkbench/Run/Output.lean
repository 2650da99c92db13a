/-!
# Output of runs

All runs write lines to one writer, each through a handle of its own. A handle can be released;
later lines through it are dropped, and the writer is flushed. Writing tests the handle and appends
the line in two separate steps, releasing closes the handle and flushes in two separate steps, so
that other handles can act in between.
-/
namespace SimWorkbench

/-- A handle on the writer. -/
abbrev Handle := Nat

/-- The writer with the handles on it. -/
structure OutputSink where
  /-- For each handle whether it still accepts lines. -/
  accepting : List Bool
  /-- The lines written, newest first, each with the handle it came through. -/
  lines : List (Handle × String)
  /-- The number of lines that have been flushed. -/
  flushed : Nat
  flushes : Nat
  deriving DecidableEq, Repr, Inhabited

namespace OutputSink

/-- A writer with one handle, number 0. -/
def fresh : OutputSink := ⟨[true], [], 0, 0⟩

/-- Whether a handle accepts lines. -/
def isOpen (s : OutputSink) (h : Handle) : Bool := s.accepting.getD h false

/-- A new handle; it is open whatever became of the others. -/
def session (s : OutputSink) : OutputSink × Handle :=
  ({ s with accepting := s.accepting ++ [true] }, s.accepting.length)

/-- Appends a line; the second step of writing one. -/
def append (s : OutputSink) (h : Handle) (line : String) : OutputSink :=
  { s with lines := (h, line) :: s.lines }

/-- Writes a line through a handle that accepts it. -/
def writeLine (s : OutputSink) (h : Handle) (line : String) : OutputSink :=
  if s.isOpen h then s.append h line else s

/-- Closes a handle; the first step of releasing it. -/
def close (s : OutputSink) (h : Handle) : OutputSink :=
  { s with accepting := s.accepting.set h false }

/-- Flushes the writer; the second step of releasing a handle that was open. -/
def flush (s : OutputSink) : OutputSink :=
  { s with flushed := s.lines.length, flushes := s.flushes + 1 }

/-- Closes a handle for good and flushes, unless it was closed before. -/
def release (s : OutputSink) (h : Handle) : OutputSink :=
  if s.isOpen h then (s.close h).flush else s

/-- The text of the lines in order. -/
def text (lines : List (Handle × String)) : String :=
  String.join (lines.reverse.map fun l => l.2 ++ "\n")

@[simp] theorem isOpen_flush (s : OutputSink) (h : Handle) : s.flush.isOpen h = s.isOpen h := rfl

@[simp] theorem isOpen_append (s : OutputSink) (h h' : Handle) (line : String) :
    (s.append h' line).isOpen h = s.isOpen h := rfl

/-- Writing closes nothing and opens nothing. -/
@[simp] theorem isOpen_writeLine (s : OutputSink) (h h' : Handle) (line : String) :
    (s.writeLine h' line).isOpen h = s.isOpen h := by
  rw [writeLine]
  split <;> rfl

/-- A new handle is open. -/
@[simp] theorem isOpen_session_self (s : OutputSink) : s.session.1.isOpen s.session.2 = true := by
  simp [session, isOpen]

/-- A new handle changes no old one. -/
theorem isOpen_session_of_lt (s : OutputSink) {h : Handle} (old : h < s.accepting.length) :
    s.session.1.isOpen h = s.isOpen h := by
  simp [session, isOpen, List.getD_eq_getElem?_getD, List.getElem?_append_left old]

theorem isOpen_close_of_ne (s : OutputSink) {h h' : Handle} (other : h ≠ h') :
    (s.close h').isOpen h = s.isOpen h := by
  simp [close, isOpen, List.getD_eq_getElem?_getD, List.getElem?_set_ne (Ne.symm other)]

theorem isOpen_close_self (s : OutputSink) (h : Handle) : (s.close h).isOpen h = false := by
  simp only [close, isOpen, List.getD_eq_getElem?_getD, List.getElem?_set_self']
  cases s.accepting[h]? <;> simp

end OutputSink
end SimWorkbench
