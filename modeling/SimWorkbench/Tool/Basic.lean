import SimWorkbench.CommandLine.Help
import SimWorkbench.CommandLine.Reader
import SimWorkbench.Tool.Run
import SimWorkbench.Tool.Upkeep

/-!
# The tool

One use of the tool takes a command line and the files, and gives the files, what was printed, and a
status: zero if all went well, one after a complaint, two for a command line that makes no request.
-/
namespace SimWorkbench.Tool
open Work

/-- What came of a use of the tool. The lines are in order. -/
structure Outcome where
  files : FileTree
  stdout : List Line
  stderr : List Line
  status : Nat
  deriving DecidableEq, Repr

/-- Builds a model if that is needed. -/
def compileModel (model : Path) (force : Bool) : Work Unit := do
  let o ← openProject
  let model ← modelPath model
  let (_, d) ← ensureArtifact o model force
  sayText d.artifact.text

/-- The work of a task. -/
def workOf (force : Bool) : CommandLine.Task → Work Unit
  | .compile model => compileModel model force
  | .run model replications stopTime verbose =>
    runModel model replications stopTime verbose force
  | .listCache => listCache
  | .invalidate model => invalidate model
  | .clearCache => clearCache
  | .collectGarbage => collectGarbage
  | .clean => clean

/-- Carries out a request. -/
def perform (around : Surroundings) (home : Option Path) (patience : Nat) (files : FileTree)
    (r : CommandLine.Request) : Outcome :=
  let setting : Setting := ⟨around, home, Verbosity.of r.quiet r.verbose, patience⟩
  let (result, desk) := (((workOf r.force r.task).run setting).run).run ⟨files, ⟨[], []⟩⟩
  let stdout := desk.console.stdout.reverse
  let stderr := desk.console.stderr.reverse
  match result with
  | .ok () => ⟨desk.files, stdout, stderr, 0⟩
  | .error complaint => ⟨desk.files, stdout, stderr ++ complaint.lines, 1⟩

/-- Uses the tool with the words of a command line. -/
def use (around : Surroundings) (home : Option Path) (patience : Nat) (files : FileTree)
    (words : List String) : Outcome :=
  match CommandLine.parse words with
  | .ok r => perform around home patience files r
  | .error refusal =>
    let lines := refusal.lines.map fun text => [Piece.text text]
    if refusal.isAnswer then ⟨files, lines, [], 0⟩ else ⟨files, [], lines, 2⟩

end SimWorkbench.Tool
