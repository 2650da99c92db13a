import SimWorkbench.Context.Arena

/-!
# Calls of an arena

Whoever shares an arena works on it by calls, one at a time. A call names contexts by their numbers,
whether there are such contexts or not.
-/
namespace SimWorkbench

/-- A call of an arena. -/
inductive ArenaCall where
  | stage
  | resetStage
  | createRun
  | load (run : ContextId) (name : Path)
  | addPath (path : Path)
  | enter (context : ContextId)
  | restoreStage
  | resolve (context : ContextId) (name : Path)
  | dispose (context : ContextId)
  deriving DecidableEq, Repr

/-- What a call answers that is not refused. -/
inductive ArenaReply where
  | done
  | context (id : ContextId)
  | artifact (loaded : LoadedArtifact)
  | place (path : Path)
  deriving DecidableEq, Repr

/-- The files and the arena after a call, with its answer. -/
def Arena.perform (a : Arena) (files : FileTree) (here : Location) :
    ArenaCall → FileTree × Arena × Except ResolutionError ArenaReply
  | .stage => (files, a.stage.1, .ok (.context a.stage.2))
  | .resetStage => (files, a.resetStage, .ok .done)
  | .createRun => (files, a.createRun.1, .ok (.context a.createRun.2))
  | .load run name =>
    let (files, a, loaded) := a.load files here run name
    (files, a, loaded.map .artifact)
  | .addPath path => (files, a.addPath path, .ok .done)
  | .enter c => (files, (a.enter c).1, (a.enter c).2.map fun _ => .done)
  | .restoreStage => (files, a.restoreStage.1, .ok (.context a.restoreStage.2))
  | .resolve c name => (files, a, (a.resolve files here c name).map .place)
  | .dispose c =>
    let (files, a, disposed) := a.dispose files here c
    (files, a, disposed.map fun _ => .done)

end SimWorkbench
