import SimWorkbench.Bytes
import SimWorkbench.FileTree.Operations

/-!
# Programs that run to their end

A program is started by a name or a path, with arguments and an environment. It ends with a status
and leaves what it printed; it may have changed the files. Who starts programs is a parameter.
-/
namespace SimWorkbench

/-- How a process ended. -/
inductive ExitStatus where
  | code (number : Nat)
  | signal (number : Nat)
  deriving DecidableEq, Repr

namespace ExitStatus

def success (s : ExitStatus) : Bool := s == .code 0

/-- The names of the signals, from number 1 on. -/
def signalNames : List String :=
  ["SIGHUP", "SIGINT", "SIGQUIT", "SIGILL", "SIGTRAP", "SIGABRT", "SIGBUS", "SIGFPE", "SIGKILL",
   "SIGUSR1", "SIGSEGV", "SIGUSR2", "SIGPIPE", "SIGALRM", "SIGTERM", "SIGSTKFLT", "SIGCHLD",
   "SIGCONT", "SIGSTOP", "SIGTSTP", "SIGTTIN", "SIGTTOU", "SIGURG", "SIGXCPU", "SIGXFSZ",
   "SIGVTALRM", "SIGPROF", "SIGWINCH", "SIGIO", "SIGPWR", "SIGSYS"]

/-- The signals that leave an image of the process. -/
def dumping : List Nat := [3, 4, 5, 6, 7, 8, 11, 24, 25, 31]

def text : ExitStatus → String
  | code n => "exit status: " ++ toString n
  | signal n =>
    "signal: " ++ toString n ++
      (match if n = 0 then none else signalNames[n - 1]? with
       | some name => " (" ++ name ++ ")"
       | none => "") ++
      (if dumping.contains n then " (core dumped)" else "")

end ExitStatus

/-- A program to be run with an empty input. -/
structure ProgramCall where
  program : String
  arguments : List String
  deriving DecidableEq, Repr

/-- What a program left when it ended. -/
structure Completed where
  status : ExitStatus
  stdout : Bytes
  stderr : Bytes
  deriving DecidableEq, Repr

/-- Runs a program on the files, or says why it could not be started. -/
abbrev Launcher := FileTree → ProgramCall → FileTree × Except OsError Completed

end SimWorkbench
