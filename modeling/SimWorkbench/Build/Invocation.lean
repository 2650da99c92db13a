import SimWorkbench.Build.Compiler
import SimWorkbench.Build.Failure
import SimWorkbench.Build.Layout

/-!
# One compile

A compile writes the source to its place, removes an old executable, calls the compiler and looks
whether an executable is there. It advances by stages, so that other things can happen between
them. A source that does not declare the expected unit is refused before any stage.
-/
namespace SimWorkbench

/-- An executable that was built. -/
structure CompiledArtifact where
  package : String
  typeName : String
  source : Path
  artifact : Path
  deriving DecidableEq, Repr

/-- What a compile needs to know about its project. -/
structure CompileSite where
  layout : Layout
  classpath : List Path
  compiler : Compiler
  here : Location

/-- How far a compile has come. -/
inductive Invocation where
  | writeSource (unit : SourceUnit) (text : String)
  | clearOutput (unit : SourceUnit)
  | callCompiler (unit : SourceUnit)
  | inspect (unit : SourceUnit) (answer : String)
  | finished (result : Except BuildFailure CompiledArtifact)

namespace Invocation

/-- The number of stages still to come, at most. -/
def rank : Invocation → Nat
  | writeSource .. => 4
  | clearOutput _ => 3
  | callCompiler _ => 2
  | inspect .. => 1
  | finished _ => 0

/-- A compile of a source that has to declare the given unit. -/
def start (text : String) (package typeName : String) : Invocation :=
  match SourceUnit.expect text.toList package typeName with
  | .ok unit => writeSource unit text
  | .error cause => finished (.error (.malformed cause))

/-- The effects that put a file into a directory which may be missing. -/
def placing (path : Path) (last : Effect) : List Effect :=
  path.parent?.toList.map Effect.makeDirs ++ [last]

/-- What the compiler is asked to do for a unit. -/
def job (site : CompileSite) (unit : SourceUnit) : CompileJob where
  package := unit.package
  typeName := unit.typeName
  source := site.layout.sourceFile unit.package unit.typeName
  output := site.layout.artifactFile unit.package unit.typeName
  classpath := site.classpath

/-- How a compile ends after the compiler's answer. -/
def verdict (site : CompileSite) (files : FileTree) (unit : SourceUnit) (answer : String) :
    Except BuildFailure CompiledArtifact :=
  let job := job site unit
  if answer ≠ compileSuccess then .error (.compile ⟨answer⟩)
  else if files.isFile site.here job.output then
    .ok ⟨unit.package, unit.typeName, job.source, job.output⟩
  else
    .error (.compile ⟨"compiler reported success but " ++ job.output.text ++ " was not produced"⟩)

/-- The files and the next stage after the effects of one, if no refusal ends the compile. -/
def proceed (r : FileTree × Option FileFault) (next : Invocation) : FileTree × Invocation :=
  match r with
  | (files, none) => (files, next)
  | (files, some fault) => (files, finished (.error (.io fault)))

/-- Advances a compile by one stage. -/
def step (site : CompileSite) (files : FileTree) : Invocation → FileTree × Invocation
  | writeSource unit text =>
    let path := (job site unit).source
    proceed (Effect.performAll files site.here
      (placing path (.write path (Bytes.ofString text)))) (clearOutput unit)
  | clearOutput unit =>
    let path := (job site unit).output
    proceed (Effect.performAll files site.here (placing path (.discard path))) (callCompiler unit)
  | callCompiler unit =>
    let (files, answer) := site.compiler.compile files (job site unit)
    (files, inspect unit answer)
  | inspect unit answer => (files, finished (verdict site files unit answer))
  | finished result => (files, finished result)

theorem rank_proceed_le (r : FileTree × Option FileFault) (next : Invocation) :
    (proceed r next).2.rank ≤ next.rank := by
  unfold proceed
  split <;> simp [rank]

theorem rank_step_le (site : CompileSite) (files : FileTree) (i : Invocation) :
    (i.step site files).2.rank ≤ i.rank - 1 := by
  cases i with
  | writeSource unit text => exact rank_proceed_le _ _
  | clearOutput unit => exact rank_proceed_le _ _
  | callCompiler unit => simp [step, rank]
  | inspect unit answer => simp [step, rank]
  | finished result => simp [step, rank]

/-- What a stage hands to the compiler. -/
def jobs (site : CompileSite) : Invocation → List CompileJob
  | callCompiler unit => [job site unit]
  | _ => []

/-- The files, the result and the compiler's jobs when a compile has ended. -/
structure Ended where
  files : FileTree
  result : Except BuildFailure CompiledArtifact
  jobs : List CompileJob

/-- Advances a compile to its end; `n` bounds the stages. -/
def advance (site : CompileSite) : (n : Nat) → FileTree → (i : Invocation) → i.rank ≤ n →
    List CompileJob → Ended
  | _, files, finished result, _, done => ⟨files, result, done⟩
  | n + 1, files, i, h, done =>
    advance site n (i.step site files).1 (i.step site files).2
      (Nat.le_trans (rank_step_le site files i) (by omega)) (done ++ i.jobs site)

/-- Advances a compile to its end. -/
def run (site : CompileSite) (files : FileTree) (i : Invocation) : Ended :=
  advance site i.rank files i (Nat.le_refl _) []

end Invocation
end SimWorkbench
