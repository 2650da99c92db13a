import SimWorkbench.Build.Failure
import SimWorkbench.CommandLine.Basic
import SimWorkbench.Control.Controller
import SimWorkbench.Project.Workplace
import SimWorkbench.Tool.Console

/-!
# Work of the tool

Work changes files and prints lines. It may give up with a complaint; what it changed and printed
before stays.
-/
namespace SimWorkbench.Tool

/-- What work finds around itself. -/
structure Setting where
  around : Surroundings
  /-- The directory of the tool itself, if it is known. -/
  home : Option Path
  verbosity : Verbosity
  /-- How many steps a run may take. -/
  patience : Nat

/-- What work changes. -/
structure Desk where
  files : FileTree
  console : Console
  deriving DecidableEq, Repr, Inhabited

/-- Work with a result. -/
abbrev Work := ReaderT Setting (ExceptT Complaint (StateM Desk))

namespace Work

def files : Work FileTree := return (← get).files

def setFiles (files : FileTree) : Work Unit := modify fun d => { d with files := files }

def here : Work Location := return (← read).around.here

/-- Prints a line. -/
def say (line : Line) : Work Unit :=
  modify fun d => { d with console := { d.console with stdout := line :: d.console.stdout } }

def sayText (text : String) : Work Unit := say [.text text]

/-- Prints a line unless the tool is to be quiet. -/
def tell (text : String) : Work Unit := do
  if (← read).verbosity ≠ .quiet then sayText text

/-- Prints a line if the tool is to be verbose. -/
def detail (line : Line) : Work Unit := do
  if (← read).verbosity = .verbose then say line

/-- Prints a line about a fault. -/
def warn (text : String) : Work Unit := modify fun d =>
  { d with console := { d.console with stderr := [.text text] :: d.console.stderr } }

/-- Gives up. -/
def giveUp {α : Type} (message : String) (causes : List String) : Work α :=
  throw (Complaint.ofText message causes)

/-- Gives up because of the operating system. -/
def refuse {α : Type} (message : String) (cause : OsError) : Work α := giveUp message [cause.message]

/-- Says how long some work took, whether or not it gave up. -/
def timed {α : Type} (label : String) (work : Work α) : Work α := do
  let note := detail [.text ("  " ++ label ++ ": "), .elapsed]
  let result ←
    try work
    catch complaint => do
      note
      throw complaint
  note
  return result

end Work

/-- What lies behind a build that failed. -/
def buildCauses : BuildFailure → List String
  | .malformed cause => [cause.message]
  | .cache fault | .io fault => [fault.cause.message]
  | .generation _ | .compile _ | .knownMiss _ | .classConflict .. => []

/-- What lies behind a run that could not be prepared. -/
def controlCauses : ControlFault → List String
  | .resolution (.snapshot _ cause) => [cause.message]
  | _ => []

/-- A project that is being worked on. -/
structure Opened where
  project : Project
  workshop : Workshop
  cache : Cache

open Work

/-- The nearest project from the current directory upwards. -/
def findProject : Work Project := do
  let around := (← read).around
  match Project.findRoot? (← files) around.here around.here.path with
  | none => giveUp Project.notFoundMessage []
  | some root =>
    let more := around.vars.lookup ProcessArtifact.classpathVariable
    match Project.load (← files) around.here root more with
    | .error fault => giveUp fault.message fault.cause?.toList
    | .ok project => return project

/-- Opens the project with its cache. -/
def openProject : Work Opened := do
  let project ← findProject
  let workshop := project.workshop (← read).around
  let (files, opened) := workshop.openBench (← files)
  setFiles files
  match opened with
  | .ok bench => return ⟨project, workshop, bench.cache⟩
  | .error failure =>
    throw (Complaint.within
      ("failed to open artifact cache " ++ project.layout.cacheIndex.text)
      failure.message (buildCauses failure))

/-- A path as it is seen from the root. -/
def absolutePath (p : Path) : Work Path := do
  match p.absolute? (← here).path with
  | some path => return path
  | none => giveUp ("failed to resolve " ++ p.text) ["cannot make an empty path absolute"]

/-- The path of a model, which has to be a file. -/
def modelPath (model : Path) : Work Path := do
  unless (← files).isFile (← here) model do
    giveUp ("model file not found: " ++ model.text) []
  absolutePath model

/-- An executable for a model. -/
def ensureArtifact (o : Opened) (model : Path) (force : Bool) : Work (Opened × Descriptor) :=
  timed "ensure artifact" do
    let done := o.workshop.ensure ⟨← files, o.cache⟩ model force
    setFiles done.bench.files
    let o := { o with cache := done.bench.cache }
    match done.result with
    | .ok (d, .cached) =>
      tell ("     Fresh " ++ model.text)
      detail [.text ("  fingerprint " ++ d.fingerprint.hex)]
      return (o, d)
    | .ok (d, .compiled) =>
      tell ("  Compiled " ++ model.text ++ " -> " ++ d.artifact.text)
      return (o, d)
    | .error (.compile diagnostic) =>
      warn (String.ofList (Text.trimEnd diagnostic.text.toList))
      giveUp (model.text ++ " failed to compile: " ++ diagnostic.headline) []
    | .error (.knownMiss known) =>
      throw (Complaint.within "use --force to retry the compile" (BuildFailure.knownMiss known).message
        [])
    | .error failure => giveUp failure.message (buildCauses failure)

end SimWorkbench.Tool
