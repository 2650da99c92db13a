import SimWorkbench.Build.Pipeline

/-!
# Collecting executables without an owner

Executables that no cache entry refers to are removed. The candidates are the files at or below the
directory of executables; a removal that is refused ends the collection.
-/
namespace SimWorkbench

/-- The files at a path or below it, as paths that begin with it. -/
def FileTree.filesFrom (t : FileTree) (here : Location) (p : Path) : List Path :=
  match t.locate here p with
  | .error _ => []
  | .ok (l, entry) =>
    if entry.isFile then [p]
    else ((t.below l).filter fun x => x.2.isFile).map fun x => p.child ("/".intercalate x.1)

/-- What a collection did. -/
structure Collected where
  files : FileTree
  /-- The files that were removed, in order. -/
  removed : List Path
  /-- The removal that was refused, if one was. -/
  fault : Option FileFault
  deriving DecidableEq, Repr

namespace Collected

/-- Removes files one after the other until a removal is refused. -/
def remove (files : FileTree) (here : Location) : List Path → Collected
  | [] => ⟨files, [], none⟩
  | p :: rest =>
    match files.remove here p with
    | .error cause => ⟨files, [], some ⟨p, cause⟩⟩
    | .ok files =>
      let done := remove files here rest
      { done with removed := p :: done.removed }

end Collected

namespace Workshop

/-- The files in the directory of executables that no entry refers to. -/
def orphans (w : Workshop) (b : Bench) : List Path :=
  w.unreferenced b (b.files.filesFrom w.here w.site.layout.classesDir)

/-- Removes all files in the directory of executables that no entry refers to. -/
def collect (w : Workshop) (b : Bench) : Collected :=
  Collected.remove b.files w.here (w.orphans b)

end Workshop
end SimWorkbench
