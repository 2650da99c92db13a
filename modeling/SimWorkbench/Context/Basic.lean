import SimWorkbench.FileTree.Basic

/-!
# Loading contexts

Contexts form three layers: one root with the libraries of the tool, a stage above it with the
executables of the project, and one run context for each execution, which holds a private copy of
one executable. A context is known by a number that is never given again.
-/
namespace SimWorkbench

/-- The number of a context. -/
structure ContextId where
  number : Nat
  deriving DecidableEq, Repr, Inhabited

def ContextId.text (c : ContextId) : String := "ctx#" ++ toString c.number

/-- The layer of a context. -/
inductive Layer where
  | root
  | stage
  | run
  deriving DecidableEq, Repr

def Layer.text : Layer → String
  | root => "root"
  | stage => "stage"
  | run => "run"

/-- An executable loaded into a run context. -/
structure LoadedArtifact where
  context : ContextId
  /-- The name by which it was found. -/
  name : Path
  /-- Where it was found. -/
  origin : Path
  /-- The private copy. -/
  executable : Path
  deriving DecidableEq, Repr

/-- A context. -/
structure ContextNode where
  id : ContextId
  parent : Option ContextId
  layer : Layer
  /-- The places this context adds to those of its parent. -/
  paths : List Path
  loaded : Option LoadedArtifact
  /-- The directory of the private copy. -/
  snapshot : Option Path
  deriving DecidableEq, Repr

/-- Why something could not be found or loaded. -/
inductive ResolutionError where
  | unknownContext (id : ContextId)
  | notRunContext (id : ContextId) (layer : Layer)
  | alreadyLoaded (id : ContextId) (name : Path)
  | notFound (name : Path) (layer : Layer)
  | snapshot (path : Path) (cause : OsError)
  deriving DecidableEq, Repr

def ResolutionError.message : ResolutionError → String
  | unknownContext id => "unknown loading context " ++ id.text
  | notRunContext id layer =>
    "loading context " ++ id.text ++ " is a " ++ layer.text ++ " context, not a run context"
  | alreadyLoaded id name => "loading context " ++ id.text ++ " already loaded " ++ name.text
  | notFound name layer => name.text ++ " not found in the " ++ layer.text ++ " layer"
  | snapshot path cause =>
    "failed to snapshot artifact into " ++ path.text ++ ": " ++ cause.message

end SimWorkbench
