import SimWorkbench.Build.Pipeline
import SimWorkbench.Context.Arena
import SimWorkbench.Digest.Sha256
import SimWorkbench.Project.Basic
import SimWorkbench.Run.ProcessArtifact

/-!
# What a project works with

A project configures the workshop that builds its models, the loading contexts of its runs, and the
place where its runs work. Compilers and runs search the same classpath; compilers see the
executables of the project as well.
-/
namespace SimWorkbench.Project

/-- Where compilers search. -/
def compileClasspath (p : Project) : List Path := p.classpath ++ [p.layout.classesDir]

/-- The generator; without a configured one, every generation fails. -/
def generatorOrFailing (p : Project) (launch : Launcher) : Generator :=
  (p.generator? launch).getD
    (Generator.failing ("no [generator] command configured in " ++ settingsFileName))

/-- The workshop that builds the project's models. -/
def workshop (p : Project) (around : Surroundings) : Workshop where
  site :=
    { layout := p.layout
      classpath := p.compileClasspath
      compiler := p.settings.compiler.compiler around.launcher around.here
      here := around.here }
  generator := p.generatorOrFailing around.launcher
  digest := Sha256.hexDigest

/-- Where runs search: next to the tool, if that is known, and in the classpath. -/
def rootPlaces (p : Project) (home : Option Path) : List Path := home.toList ++ p.classpath

/-- The loading contexts of the project's runs. -/
def arena (p : Project) (home : Option Path) (naming : Naming := .counting) : Arena :=
  Arena.fresh (p.rootPlaces home) p.layout.classesDir p.runsDir naming

/-- How the project's artifacts are run. -/
def artifactKind (p : Project) (around : Surroundings) : ArtifactKind ProcessArtifact :=
  ProcessArtifact.kind around (some p.reportsDir)

end SimWorkbench.Project
