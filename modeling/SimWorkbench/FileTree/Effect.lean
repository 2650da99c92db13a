import SimWorkbench.FileTree.Operations

/-!
# Sequences of file operations

What an operation of the library does to the files is a list of effects, performed in order. The
first refusal ends the sequence; what was done before it stays.
-/
namespace SimWorkbench

/-- One change of the files. -/
inductive Effect where
  /-- Make a directory and the missing ones above it. -/
  | makeDirs (path : Path)
  /-- Write a file. -/
  | write (path : Path) (content : Bytes)
  /-- Move a file to another name. -/
  | rename (old new : Path)
  /-- Remove a file, if there is one. -/
  | discard (path : Path)
  deriving DecidableEq, Repr

/-- A refusal and the path it is about. -/
structure FileFault where
  path : Path
  cause : OsError
  deriving DecidableEq, Repr

namespace Effect

/-- The path that a refusal of the effect is about. -/
def subject : Effect → Path
  | makeDirs p | write p _ | discard p => p
  | rename _ q => q

/-- The files after the effect, and its refusal if there was one. -/
def perform (t : FileTree) (here : Location) (e : Effect) : FileTree.Outcome :=
  let settle (r : Except OsError FileTree) : FileTree.Outcome :=
    match r with
    | .ok t' => (t', none)
    | .error cause => (t, some cause)
  match e with
  | makeDirs p => t.makeDirs here p
  | write p content => settle (t.write here p content)
  | rename p q => settle (t.rename here p q)
  | discard p =>
    match t.remove here p with
    | .error .notFound => (t, none)
    | r => settle r

/-- The files after a sequence of effects, and the refusal that ended it. -/
def performAll (t : FileTree) (here : Location) : List Effect → FileTree × Option FileFault
  | [] => (t, none)
  | e :: rest =>
    match e.perform t here with
    | (t', none) => performAll t' here rest
    | (t', some cause) => (t', some ⟨e.subject, cause⟩)

-- A sequence is opened by name only: comparing two of them must not run the operations.
attribute [irreducible] performAll

end Effect
end SimWorkbench
