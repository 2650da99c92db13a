import SimWorkbench.Process.Program
import SimWorkbench.Run.Heard
import SimWorkbench.Run.Host
import SimWorkbench.Run.Tail

/-!
# Artifacts that are programs

An artifact that is a program runs in a process of its own, once. The host tells it what to do by
lines and hears its lines; what it cannot read as text it replaces. The libraries that the run may
see are named in two variables. The threads that pass signals on and read the errors are always to be
had.
-/
namespace SimWorkbench
open Shell

/-- A program under way. -/
structure ProcessRun where
  program : Program
  host : Host
  heard : Heard
  /-- How far the program has come with the commands written so far. -/
  progress : Progress
  /-- How many of its actions have been taken notice of. -/
  noticed : Nat
  /-- Lines that have not been heard yet. -/
  pending : List Bytes
  /-- The beginning of a line that may go on. -/
  unfinished : Bytes
  errors : StreamTail

/-- Where an artifact is. -/
inductive ProcessStage where
  | ready
  | live (run : ProcessRun)
  | over

/-- An artifact that is a program. -/
structure ProcessArtifact where
  executable : Path
  searchPath : List Path
  /-- The directory in which it works; the host's if there is none. -/
  workDir : Option Path
  bindings : Bindings
  report : Option Path
  stage : ProcessStage

namespace ProcessRun

/-- Takes notice of what the program has done since. -/
def notice (r : ProcessRun) (files : FileTree) (progress : Progress) : ProcessRun × FileTree :=
  let new := progress.actions.drop r.noticed
  let text := r.unfinished ++ toBytes (Progress.stdout new)
  let lines := Heard.lines text
  let complete := lines.filter fun l => l.getLast? = some 10
  let rest := (lines.filter fun l => l.getLast? ≠ some 10).flatten
  let ended := progress.ending ≠ .waiting
  ({ r with
      progress := progress
      noticed := progress.actions.length
      pending := r.pending ++ complete ++ (if ended && !rest.isEmpty then [rest] else [])
      unfinished := if ended then [] else rest
      errors := r.errors.takeAll (toBytes (Progress.stderr new)) },
    Progress.apply files new)

/-- Whether the program still takes input. -/
def listening (r : ProcessRun) : Bool := r.progress.ending = .waiting

/-- Lets the program go on with what was written to it. -/
def proceed (r : ProcessRun) (files : FileTree) : ProcessRun × FileTree :=
  r.notice files (r.program.progress (ofText r.host.input) false)

end ProcessRun

namespace ProcessArtifact

/-- The variable that names the libraries a run may see. -/
def classpathVariable : String := "SIMFORGE_CLASSPATH"
def libraryVariable : String := "LD_LIBRARY_PATH"

/-- The surroundings of the process. Paths that cannot be joined are not told. -/
def surroundings (s : Surroundings) (searchPath : List Path) : Surroundings :=
  match Path.joinList? searchPath with
  | none => s
  | some joined =>
    let others := match s.vars.lookup libraryVariable with
      | some old => Path.splitList old
      | none => []
    let libraries := (Path.joinList? (searchPath ++ others)).getD ""
    (s.set classpathVariable joined).set libraryVariable libraries

/-- An artifact that has not been bound. -/
def fresh (executable : Path) (searchPath : List Path) (workDir : Option Path) : ProcessArtifact :=
  ⟨executable, searchPath, workDir, { handle := 0 }, none, .ready⟩

/-- The directory from which reports are seen. -/
def directory (a : ProcessArtifact) (s : Surroundings) : Path := a.workDir.getD s.here.path

/-- Starts the process. -/
def begin (a : ProcessArtifact) (s : Surroundings) (scene : Scene) : Advance ProcessArtifact :=
  match Program.start (surroundings s a.searchPath) scene.files a.workDir a.executable.text [] with
  | .error e =>
    .ended { a with stage := .over } scene
      (.returned (.error (.io ("failed to start " ++ a.executable.text) e.message)))
  | .ok program =>
    let host := Host.start a.bindings.settings a.bindings.singleStep
    .went { a with stage := .live ⟨program, host, {}, ⟨[], .waiting⟩, 0, [], [], {}⟩ } scene

/-- Passes on what a line asks for. -/
def pass (a : ProcessArtifact) (scene : Scene) : Option Passing → Scene
  | none => scene
  | some (.line text) => scene.print a.bindings text
  | some (.change c) => scene.notify a.bindings c

/-- The host's next step. The program goes on after each of them, so that it may have ended before all
of the opening is written. -/
def converse (a : ProcessArtifact) (r : ProcessRun) (scene : Scene) : Advance ProcessArtifact :=
  match r.host.step? scene.channel r.listening with
  | none => .blocked
  | some (host, channel) =>
    let r := { r with host := host }
    let (r, files) :=
      if r.listening then r.proceed scene.files else (r, scene.files)
    .went { a with stage := .live r } { scene with channel := channel, files := files }

/-- One step of a process under way: after the opening, lines are heard as long as there are any,
then the run ends if the program has, else the host goes on. -/
def goOn (a : ProcessArtifact) (s : Surroundings) (r : ProcessRun) (scene : Scene) :
    Advance ProcessArtifact :=
  if r.host.stage = .forwarding || r.host.stage = .silent then
    match r.pending, r.progress.ending with
    | line :: rest, _ =>
      let (heard, passing) := r.heard.hear (a.directory s) line
      let stage := ProcessStage.live { r with heard := heard, pending := rest }
      .went { a with stage := stage, report := heard.report.or a.report } (a.pass scene passing)
    | [], .ended status =>
      .ended { a with stage := .over } { scene with channel := scene.channel.finish }
        (.returned (r.heard.outcome status r.errors.text))
    | [], .waiting => a.converse r scene
  else a.converse r scene

/-- One step of an artifact. It runs once. -/
def advance (s : Surroundings) (a : ProcessArtifact) (scene : Scene) : Advance ProcessArtifact :=
  match a.stage with
  | .ready => a.begin s scene
  | .live r => a.goOn s r scene
  | .over => .ended a scene (.returned (.error (.protocol "artifact already executed")))

/-- Artifacts that are programs, working in a directory. -/
def kind (s : Surroundings) (workDir : Option Path) : ArtifactKind ProcessArtifact where
  load files loaded searchPath :=
    ([], if files.isFile s.here loaded.executable then
        .ok (fresh loaded.executable searchPath workDir)
      else .error ⟨loaded.executable, "snapshot is missing"⟩)
  bind bindings a := ([], { a with bindings := bindings })
  setSingleStep on a := ([], { a with bindings := { a.bindings with singleStep := on } })
  advance a scene := a.advance s scene
  report? a := a.report

end ProcessArtifact
end SimWorkbench
