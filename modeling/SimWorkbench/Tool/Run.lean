import SimWorkbench.Control.Schedule
import SimWorkbench.Tool.Work

/-!
# Running a model

A model is built if that is needed, and run once. An executable that has vanished is built once
more. The lines of the run are printed as they come, and so are its properties if the tool is
verbose.
-/
namespace SimWorkbench

/-- Writes the changes of properties that a step announced to the output of the host. -/
def Scene.echo (text : PropertyChange → String) (before after : Scene) : Scene :=
  let new := after.notices.take (after.notices.length - before.notices.length)
  { after with sink := new.reverse.foldl (fun sink n => sink.append 0 (text n.2)) after.sink }

/-- Artifacts whose changes of properties are written to the output of the host. -/
def ArtifactKind.echoing {α : Type} (kind : ArtifactKind α) (text : PropertyChange → String) :
    ArtifactKind α :=
  { kind with
    advance := fun artifact scene =>
      match kind.advance artifact scene with
      | .blocked => .blocked
      | .went artifact after => .went artifact (scene.echo text after)
      | .ended artifact after ending => .ended artifact (scene.echo text after) ending }

namespace Tool
open Decimal Work

/-- How a change of a property is shown. -/
def changeText (c : PropertyChange) : String := "  " ++ c.name ++ ": " ++ c.old ++ " -> " ++ c.new

/-- The settings of a run: what the command line says goes before what the project says. -/
def runSettings (standard : RunSettings) (replications : Option UInt32)
    (stopTime : Option Binary64) (verbose : Bool) : Work RunSettings := do
  if replications = some 0 then giveUp "--replications must be at least 1" []
  return {
    verbose := standard.verbose || verbose
    stopTime := stopTime.or standard.stopTime
    replications := replications.getD standard.replications }

/-- A controller for the project. -/
def makeController (project : Project) (settings : RunSettings) :
    Work (Controller ProcessArtifact) := do
  let (files, refusal) := (← files).makeDirs (← here) project.reportsDir
  setFiles files
  if let some cause := refusal then refuse ("failed to create " ++ project.reportsDir.text) cause
  let fresh := Controller.fresh settings false (project.arena (← read).home) files
  return { fresh with observers := ["console"] }

/-- How the project's artifacts are run on this console. -/
def consoleKind (project : Project) : Work (ArtifactKind ProcessArtifact) := do
  let setting ← read
  let kind := project.artifactKind setting.around
  return if setting.verbosity = .verbose then kind.echoing changeText else kind

/-- Carries out a control call. -/
def control (kind : ArtifactKind ProcessArtifact) (c : Controller ProcessArtifact)
    (call : Controller.Call) : Work (Controller ProcessArtifact × Answer) := do
  let (c, answer) := ({ c with files := ← files }).perform kind (← here) call
  setFiles c.files
  return (c, answer)

/-- Gives up because of the controller. -/
def giveUpControl {α : Type} (fault : ControlFault) : Work α :=
  giveUp fault.message (controlCauses fault)

/-- Prepares a run of a model's executable; one that cannot be found is built again, once. -/
def prepare (kind : ArtifactKind ProcessArtifact) (c : Controller ProcessArtifact) (o : Opened)
    (model : Path) (d : Descriptor) : Work (Controller ProcessArtifact) := do
  match ← control kind c (.prepare d) with
  | (c, .failed (.resolution _)) =>
    let (bench, forgotten) := o.workshop.invalidate ⟨← files, o.cache⟩ model
    setFiles bench.files
    if let .error failure := forgotten then giveUp failure.message (buildCauses failure)
    let (_, d) ← ensureArtifact { o with cache := bench.cache } model false
    match ← control kind c (.prepare d) with
    | (_, .failed fault) => giveUpControl fault
    | (c, _) => return c
  | (_, .failed fault) => giveUpControl fault
  | (c, _) => return c

/-- Runs what was prepared to its end and prints its lines. -/
def runPrepared (kind : ArtifactKind ProcessArtifact) (c : Controller ProcessArtifact) :
    Work RunReport := do
  let (c, answer) ← control kind c .start
  match answer with
  | .failed fault => giveUpControl fault
  | .rejected => giveUp "a run is already in progress" []
  | _ =>
    let c := c.settle kind (← here) (← read).patience
    setFiles (c.arena.drop c.files (← here))
    for line in c.sink.lines.reverse do sayText line.2
    match c.delivered.head? with
    | some report => return report
    | none => giveUp "run ended without a report" []

/-- Prints what came of a run. -/
def showReport (r : RunReport) : Work Unit := do
  for p in r.properties do detail [.text ("  " ++ p.1 ++ " = " ++ p.2)]
  let run := toString r.run
  match r.outcome with
  | .error fault =>
    throw ⟨[.text ("run " ++ run ++ " failed after "), .elapsed, .text (": " ++ fault.message)], []⟩
  | .ok () =>
    say [.text ("Finished run " ++ run ++ " in "), .elapsed]
    if let some path := r.report then sayText ("Report: " ++ path.text)

/-- Builds a model if that is needed, and runs it. -/
def runModel (model : Path) (replications : Option UInt32) (stopTime : Option Binary64)
    (verbose force : Bool) : Work Unit := do
  let o ← openProject
  let model ← modelPath model
  let settings ← runSettings o.project.settings.run replications stopTime verbose
  let c ← makeController o.project settings
  let (o, d) ← ensureArtifact o model force
  let kind ← consoleKind o.project
  let c ← prepare kind c o model d
  tell ("   Running " ++ model.text)
  showReport (← runPrepared kind c)

end Tool
end SimWorkbench
