import SimWorkbench.Path.Basic

/-!
# Layout of a project

A package has a directory for its sources and one for its executables; the unit's type gives the
name of the file.
-/
namespace SimWorkbench

/-- Where a project keeps sources, executables and the cache's index. -/
structure Layout where
  root : Path
  sourceDir : Path
  classesDir : Path
  cacheIndex : Path
  deriving DecidableEq, Repr, Inhabited

/-- The name of an executable as seen from the directory of executables. -/
def artifactName? (classesDir artifact : Path) : Option Path := Path.below? classesDir artifact

namespace Layout

/-- The layout of a project that configures nothing. -/
def ofRoot (root : Path) : Layout where
  root := root
  sourceDir := root.child "src"
  classesDir := (root.child "build").child "classes"
  cacheIndex := (root.child "build").child "artifact-cache.json"

/-- The source file of a unit. -/
def sourceFile (l : Layout) (package typeName : String) : Path :=
  (l.sourceDir.child package).child (typeName ++ ".rs")

/-- The executable of a unit. -/
def artifactFile (l : Layout) (package typeName : String) : Path :=
  (l.classesDir.child package).child typeName

/-- The name of an executable in this layout. -/
def artifactName? (l : Layout) (artifact : Path) : Option Path :=
  SimWorkbench.artifactName? l.classesDir artifact

end Layout
end SimWorkbench
