import SimWorkbench.Build.Generator
import SimWorkbench.Build.Layout
import SimWorkbench.FileTree.Operations
import SimWorkbench.Project.Settings

/-!
# Projects

A project is found from any directory below it. Its settings name places as seen from its root; a
loaded project has them as seen from anywhere.
-/
namespace SimWorkbench

/-- A project with its settings. -/
structure Project where
  root : Path
  settings : ProjectSettings
  layout : Layout
  /-- Where compilers and runs search. -/
  classpath : List Path
  /-- Where runs work, and where their reports land. -/
  reportsDir : Path
  deriving DecidableEq, Repr

namespace Project

/-- What is said where no directory holds a project. -/
def notFoundMessage : String :=
  "could not find " ++ settingsFileName ++ " in any parent directory"

/-- The nearest directory from `start` upwards that has settings. -/
def findRoot? (files : FileTree) (here : Location) (start : Path) : Option Path :=
  start.ancestors.find? fun dir => files.exists? here (dir.child settingsFileName)

/-- Adds the places of a list that are not there yet. -/
def addPlaces (classpath : List Path) (list : String) : List Path :=
  (Path.splitList list).foldl (fun places place =>
    if place.text.isEmpty || places.any place.same then places else places ++ [place]) classpath

/-- The project at a root; `more` are places that the surroundings add to the classpath. -/
def resolve (root : Path) (settings : ProjectSettings) (more : Option String) : Project where
  root := root
  settings := settings
  layout :=
    { root := root
      sourceDir := root.join settings.paths.source
      classesDir := root.join settings.paths.classes
      cacheIndex := (Layout.ofRoot root).cacheIndex }
  classpath := addPlaces (settings.extraClasspath.map root.join) (more.getD "")
  reportsDir := root.join settings.paths.reports

/-- Loads the project at a root. -/
def load (files : FileTree) (here : Location) (root : Path) (more : Option String) :
    Except SettingsFault Project := do
  let file := root.child settingsFileName
  match files.readText here file with
  | .error cause => .error (.unreadable file cause)
  | .ok text => return resolve root (← ProjectSettings.parse text) more

/-- All that a cleaning removes but the executables. -/
def buildDir (p : Project) : Path := p.root.child "build"

/-- Where runs keep copies of what they use. -/
def runsDir (p : Project) : Path := p.buildDir.child "runs"

/-- The generator, if one is configured. -/
def generator? (p : Project) (launch : Launcher) : Option Generator :=
  p.settings.generator.map fun g => Generator.ofProgram launch g.command g.arguments

end Project
end SimWorkbench
