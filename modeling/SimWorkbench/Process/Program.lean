import SimWorkbench.Process.Basic
import SimWorkbench.Shell.Machine

/-!
# Starting and following programs

A program is started from a name, arguments, variables and a directory. What it does is a function
of the input it has been given so far; it can be followed by giving it more and looking at what is
new.
-/
namespace SimWorkbench

open Shell

/-- What a program finds around itself. -/
structure Surroundings where
  vars : List (String × String)
  /-- The directory that the host works in. -/
  here : Location
  deriving Repr

namespace Surroundings

/-- The same with one more variable. -/
def set (s : Surroundings) (name value : String) : Surroundings :=
  { s with vars := s.vars.filter (fun v => v.1 ≠ name) ++ [(name, value)] }

/-- The directories in which programs are looked for. -/
def searched (s : Surroundings) : List Path := Path.splitList ((s.vars.lookup "PATH").getD "")

end Surroundings

/-- A program that has been started. -/
structure Program where
  /-- The files when it was started. -/
  files : FileTree
  directory : Location
  vars : List (String × String)
  image : Image
  deriving Repr

/-- How far a program has come. -/
inductive Ending where
  | waiting
  | ended (status : ExitStatus)
  deriving DecidableEq, Repr

/-- What a program has done so far. -/
structure Progress where
  actions : List Action
  ending : Ending
  deriving Repr

namespace Program

/-- The directory that a program is to work in. -/
def workPlace (files : FileTree) (here : Location) : Option Path → Except OsError Location
  | none => .ok here
  | some p =>
    match files.locate here p with
    | .ok (place, .directory) => .ok place
    | .ok _ => .error .notDirectory
    | .error e => .error e

/-- The program of that name in the first directory that has one which can be executed. -/
def search (files : FileTree) (dir : Location) (name : String) (words : List Chars) :
    List Path → Except OsError Image
  | [] => .error .notFound
  | d :: rest =>
    match Image.load files dir (ofText (d.child name).text) words with
    | .ok image => .ok image
    | .error .notFound | .error .notDirectory => search files dir name words rest
    | .error .permissionDenied =>
      match search files dir name words rest with
      | .error .notFound => .error .permissionDenied
      | found => found
    | .error e => .error e

/-- Starts a program. -/
def start (s : Surroundings) (files : FileTree) (directory : Option Path) (name : String)
    (arguments : List String) : Except OsError Program := do
  if (name :: arguments).any fun w => w.toList.contains '\x00' then throw .zeroInArgument
  let dir ← workPlace files s.here directory
  let words := (name :: arguments).map ofText
  let image ←
    if name.toList.contains '/' then Image.load files dir (ofText name) words
    else if name.isEmpty then throw .notFound
    else search files dir name words s.searched
  return ⟨files, dir, s.vars, image⟩

/-- The state in which a program begins. -/
def initial (p : Program) (input : Chars) (closed : Bool) : State :=
  State.start p.files p.directory (p.vars.map fun v => (ofText v.1, ofText v.2)) input closed

/-- What a program does when it has been given `input`, and nothing more will come if `closed`. -/
def progress (p : Program) (input : Chars) (closed : Bool) : Progress :=
  let run := do settleEnd (← attempt (runTool (machine maxDepth) p.image))
  let (result, s) := run.run.run (p.initial input closed)
  let ending := match result with
    | .error .waiting => Ending.waiting
    | .error (.killed signal) => .ended (.signal signal)
    | .error .overrun => .ended (.signal 11)
    | _ => .ended (.code (s.status % 256))
  ⟨s.actions.reverse, ending⟩

end Program

namespace Progress

/-- What was printed to the output. -/
def stdout (actions : List Action) : Chars :=
  actions.flatMap fun
    | .stdout text => text
    | _ => []

def stderr (actions : List Action) : Chars :=
  actions.flatMap fun
    | .stderr text => text
    | _ => []

/-- The files after some actions. -/
def apply (files : FileTree) (actions : List Action) : FileTree :=
  actions.foldl (fun t a => match a with
    | .put place entry => t.insert place entry
    | _ => t) files

end Progress

/-- Runs programs with an empty input to their end. -/
def Surroundings.launcher (s : Surroundings) : Launcher := fun files call =>
  match Program.start s files none call.program call.arguments with
  | .error e => (files, .error e)
  | .ok p =>
    let done := p.progress [] true
    let status := match done.ending with
      | .ended status => status
      | .waiting => .code 0
    (Progress.apply files done.actions,
      .ok ⟨status, toBytes (Progress.stdout done.actions), toBytes (Progress.stderr done.actions)⟩)

end SimWorkbench
