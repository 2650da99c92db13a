import SimWorkbench.Cache.Basic
import SimWorkbench.Source.Diagnostic
import SimWorkbench.Source.Unit

/-!
# Failures of a build

Why no executable could be had for a model.
-/
namespace SimWorkbench

/-- A model that could not be turned into a source. -/
structure GenerationFailure where
  model : Path
  message : String
  deriving DecidableEq, Repr

def GenerationFailure.text (f : GenerationFailure) : String :=
  "source generation failed for " ++ f.model.text ++ ": " ++ f.message

/-- Why a build gave no executable. -/
inductive BuildFailure where
  | generation (failure : GenerationFailure)
  | malformed (cause : MalformedSource)
  /-- The compiler rejected the source. -/
  | compile (diagnostic : Diagnostic)
  /-- The model did not compile before and has not changed. -/
  | knownMiss (model : Path)
  /-- The executable of the declared unit belongs to another model. -/
  | classConflict (model : Path) (unit : String) (owner : Path)
  | cache (fault : FileFault)
  | io (fault : FileFault)
  deriving DecidableEq, Repr

namespace BuildFailure

def message : BuildFailure → String
  | generation f => f.text
  | malformed cause => "malformed generated source: " ++ cause.message
  | compile d => "compilation failed: " ++ d.headline
  | knownMiss model => model.text ++ " failed to compile previously and is unchanged"
  | classConflict model unit owner =>
    model.text ++ " declares " ++ unit ++ ", which " ++ owner.text ++
      " already compiles to; invalidate one of them first"
  | cache fault => Cache.faultMessage fault
  | io fault => "I/O error on " ++ fault.path.text ++ ": " ++ fault.cause.message

end BuildFailure
end SimWorkbench
