import SimWorkbench.Context.Basic
import SimWorkbench.Context.Naming
import SimWorkbench.FileTree.Operations

/-!
# The arena of contexts

The arena owns the contexts of a session. A stage is made when it is first needed and retired when
a fresh one is wanted; a retired stage stays as long as a run context stands on it. A name is
looked for in the places of a context and then in those of its parents; an executable is loaded
from the stage alone.
-/
namespace SimWorkbench

/-- The contexts of a session. -/
structure Arena where
  /-- In the order of their numbers. -/
  nodes : List ContextNode
  /-- The number of the next context. -/
  next : Nat
  /-- The stage that new runs stand on. -/
  currentStage : Option ContextId
  current : ContextId
  classesDir : Path
  scratchDir : Path
  /-- How the names of private directories are drawn. -/
  naming : Naming

namespace Arena

/-- The number of the root. -/
def rootId : ContextId := ⟨0⟩

/-- An arena with nothing but its root. -/
def fresh (rootPaths : List Path) (classesDir scratchDir : Path) (naming : Naming := .counting) :
    Arena where
  nodes := [⟨rootId, none, .root, rootPaths, none, none⟩]
  next := 1
  currentStage := none
  current := rootId
  classesDir := classesDir
  scratchDir := scratchDir
  naming := naming

def node? (a : Arena) (c : ContextId) : Option ContextNode := a.nodes.find? fun n => n.id == c

/-- The context, or the refusal of a number that names none. -/
def live (a : Arena) (c : ContextId) : Except ResolutionError ContextNode :=
  match a.node? c with
  | some n => .ok n
  | none => .error (.unknownContext c)

def layer? (a : Arena) (c : ContextId) : Option Layer := (a.node? c).map ContextNode.layer

def loaded? (a : Arena) (c : ContextId) : Option LoadedArtifact :=
  (a.node? c).bind ContextNode.loaded

/-- The number of run contexts. -/
def liveRuns (a : Arena) : Nat := a.nodes.countP fun n => n.layer == .run

/-- Adds a context with the next number. -/
def add (a : Arena) (parent : Option ContextId) (layer : Layer) (paths : List Path) :
    Arena × ContextId :=
  ({ a with nodes := a.nodes ++ [⟨⟨a.next⟩, parent, layer, paths, none, none⟩], next := a.next + 1 },
    ⟨a.next⟩)

/-- Changes the context with a number. -/
def modify (a : Arena) (c : ContextId) (f : ContextNode → ContextNode) : Arena :=
  { a with nodes := a.nodes.map fun n => if n.id == c then f n else n }

/-- Takes the context with a number away. -/
def discard (a : Arena) (c : ContextId) : Arena :=
  { a with nodes := a.nodes.filter fun n => n.id != c }

/-- Adds a place to the root, unless it has it. -/
def addPath (a : Arena) (p : Path) : Arena :=
  a.modify rootId fun n =>
    if n.paths.any fun q => q.same p then n else { n with paths := n.paths ++ [p] }

/-- The current stage, made if there is none. -/
def stage (a : Arena) : Arena × ContextId :=
  match a.currentStage with
  | some c => (a, c)
  | none =>
    let (a', c) := a.add (some rootId) .stage [a.classesDir]
    ({ a' with currentStage := some c }, c)

/-- Takes a retired stage away when no context stands on it. -/
def collect (a : Arena) (c : ContextId) : Arena :=
  if a.currentStage = some c then a
  else if a.nodes.any fun n => n.parent == some c then a
  else a.discard c

/-- Retires the current stage. -/
def resetStage (a : Arena) : Arena :=
  match a.currentStage with
  | none => a
  | some c =>
    let current := if a.current = c then rootId else a.current
    { a with currentStage := none, current := current }.collect c

/-- A fresh run context on the current stage. -/
def createRun (a : Arena) : Arena × ContextId :=
  let (a', stage) := a.stage
  a'.add (some stage) .run []

/-- The places of a context and of those it stands on; the first argument bounds their number. -/
def searchFrom (a : Arena) : Nat → Option ContextId → List Path
  | 0, _ => []
  | _, none => []
  | depth + 1, some c =>
    match a.node? c with
    | none => []
    | some n => n.paths ++ searchFrom a depth n.parent

/-- Every place that is seen from a context, its own first and the root's last. -/
def searchPath (a : Arena) (c : ContextId) : List Path := a.searchFrom (a.nodes.length + 1) (some c)

/-- The first place seen from a context that has something with the name. -/
def resolve (a : Arena) (files : FileTree) (here : Location) (c : ContextId) (name : Path) :
    Except ResolutionError Path := do
  let n ← a.live c
  match ((a.searchPath c).map fun dir => dir.join name).find? fun p => files.exists? here p with
  | some p => .ok p
  | none => .error (.notFound name n.layer)

/-- Copies an executable into a directory of its own below the scratch directory, which is seen
from the current one and is that one if its path is empty. Gives the directory and the copy. -/
def takeSnapshot (a : Arena) (files : FileTree) (here : Location) (origin : Path) (c : ContextId) :
    FileTree × Except ResolutionError (Path × Path) :=
  match files.makeDirs here a.scratchDir with
  | (files, some cause) => (files, .error (.snapshot a.scratchDir cause))
  | (files, none) =>
    let scratch := here.path.join a.scratchDir
    match files.locate here scratch with
    | .error cause => (files, .error (.snapshot a.scratchDir cause))
    | .ok (l, _) =>
      let name := a.naming.name files l ("run-" ++ toString c.number ++ "-")
      let dir := scratch.child name
      match files.makeDir here dir with
      | .error cause => (files, .error (.snapshot a.scratchDir cause))
      | .ok made =>
        let executable := dir.child (origin.fileName?.getD origin.text)
        match made.copy here origin executable with
        | .error cause => (files, .error (.snapshot executable cause))
        | .ok copied => (copied, .ok (dir, executable))

/-- The run context that may load an executable, with the places of its stage. -/
def loadable (a : Arena) (c : ContextId) : Except ResolutionError (List Path) := do
  let n ← a.live c
  if n.layer ≠ .run then .error (.notRunContext c n.layer)
  else
    match n.loaded, n.parent with
    | some loaded, _ => .error (.alreadyLoaded c loaded.name)
    | none, none => .error (.unknownContext c)
    | none, some parent => return (← a.live parent).paths

/-- The file with the name in the places of a stage. -/
def findOrigin (files : FileTree) (here : Location) (places : List Path) (name : Path) :
    Except ResolutionError Path :=
  if name.isAbsolute then .error (.notFound name .stage)
  else
    match (places.map fun dir => dir.join name).find? fun p => files.isFile here p with
    | some p => .ok p
    | none => .error (.notFound name .stage)

/-- Loads the executable with the name from the stage into a run context, once. -/
def load (a : Arena) (files : FileTree) (here : Location) (c : ContextId) (name : Path) :
    FileTree × Arena × Except ResolutionError LoadedArtifact :=
  match a.loadable c with
  | .error e => (files, a, .error e)
  | .ok places =>
    match findOrigin files here places name with
    | .error e => (files, a, .error e)
    | .ok origin =>
      match a.takeSnapshot files here origin c with
      | (files, .error e) => (files, a, .error e)
      | (files, .ok (dir, executable)) =>
        let loaded : LoadedArtifact := ⟨c, name, origin, executable⟩
        (files, a.modify c fun n =>
          { n with paths := n.paths ++ [dir], loaded := some loaded, snapshot := some dir },
          .ok loaded)

/-- Takes a run context away, with its private copy. -/
def dispose (a : Arena) (files : FileTree) (here : Location) (c : ContextId) :
    FileTree × Arena × Except ResolutionError Unit :=
  match a.live c with
  | .error e => (files, a, .error e)
  | .ok n =>
    if n.layer ≠ .run then (files, a, .error (.notRunContext c n.layer))
    else
      let files := match n.snapshot with
        | some dir => (files.removeTree here dir).1
        | none => files
      let a := a.discard c
      let a := if a.current = c then { a with current := a.currentStage.getD rootId } else a
      (files, (n.parent.map a.collect).getD a, .ok ())

/-- Makes a context the current one. -/
def enter (a : Arena) (c : ContextId) : Arena × Except ResolutionError Unit :=
  match a.live c with
  | .ok _ => ({ a with current := c }, .ok ())
  | .error e => (a, .error e)

/-- Makes the current stage the current context. -/
def restoreStage (a : Arena) : Arena × ContextId :=
  let (a', c) := a.stage
  ({ a' with current := c }, c)

/-- The files when the arena is given up: no private copy is left. -/
def drop (a : Arena) (files : FileTree) (here : Location) : FileTree :=
  a.nodes.foldl (fun files n =>
    match n.snapshot with
    | some dir => (files.removeTree here dir).1
    | none => files) files

end Arena
end SimWorkbench
