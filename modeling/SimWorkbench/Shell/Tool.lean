import SimWorkbench.Process.Image
import SimWorkbench.Shell.Interpreter
import SimWorkbench.Utility.Copy
import SimWorkbench.Utility.Permission
import SimWorkbench.Utility.Search

/-!
# Programs

A program runs in place of the process that starts it: a tool of the system by its definition, the
interpreter of the command language as a script of its own.
-/
namespace SimWorkbench.Shell

/-- Runs a tool. -/
def runTool (r : Recursion) (image : Image) : Exec Unit :=
  match image.tool with
  | "sh" => interpret r image.words
  | "cat" => Utility.concatenate image.words
  | "chmod" => Utility.changeModes image.words
  | "cp" => Utility.copyFiles image.words
  | "false" => setStatus 1
  | "grep" => Utility.searchFiles image.words
  | _ => setStatus 0

/-- What the first of some paths means that can be executed; a file that names no interpreter is a
script of the command language. If none can be, the last refusal counts that says more than that
nothing is there. -/
def firstImage (s : State) (words : List Chars) :
    OsError → List Chars → Except OsError Image
  | e, [] => .error e
  | e, path :: rest =>
    let found := match Image.load s.files s.dir path words with
      | .error .notExecutable =>
        let shell := "/bin/sh".toList
        Image.load s.files s.dir shell (shell :: path :: words.tail)
      | found => found
    match found with
    | .ok image => .ok image
    | .error .notFound | .error .notDirectory => firstImage s words e rest
    | .error e' => firstImage s words e' rest

/-- The status of a program that could not be run. -/
def faultStatus : OsError → Nat
  | .loop | .nameTooLong | .notFound | .notDirectory => 127
  | _ => 126

/-- Becomes another program, which may be at one of some paths, and ends with it. -/
def becomeProgram (r : Recursion) (paths words : List Chars) : Exec Unit := do
  let s ← get
  match firstImage s words .notFound paths with
  | .ok image =>
    set { s with traps := s.traps.filter fun t => t.2.isEmpty }
    runTool r image
    throw (.exit (← get).status)
  | .error e =>
    complain (words.headD [] ++ ": ".toList ++ runFault e)
    throw (.exit (faultStatus e))

/-- Runs a program as a process of its own. -/
def runProgram (r : Recursion) (paths words : List Chars) : Exec Unit := do
  let signal ← forked (becomeProgram r paths words)
  noteEnd signal

end SimWorkbench.Shell
