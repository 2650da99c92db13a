import SimWorkbench.Build.Collection
import SimWorkbench.Tool.Work

/-!
# Upkeep of a project

Looking into the cache, forgetting models, and removing what was built.
-/
namespace SimWorkbench.Tool
open Work

/-- Says whether the entries of the cache are still good, and which models are known not to
compile. -/
def listCache : Work Unit := do
  let o ← openProject
  let fingerprint (text : String) : Line := [.text ("        fingerprint " ++ text)]
  for d in o.cache.entries do
    let stale := o.cache.isStale o.workshop.digest (← files) (← here) d.source
    sayText ((if stale then " stale  " else " fresh  ") ++ d.source.text ++ " -> " ++
      d.artifact.text ++ " [" ++ d.package ++ "]")
    detail (fingerprint d.fingerprint.hex)
  for m in o.cache.misses do
    sayText ("  miss  " ++ m.source.text)
    detail (fingerprint m.fingerprint.hex)
  if o.cache.entries.isEmpty && o.cache.misses.isEmpty then sayText "Cache is empty."

/-- Forgets a model. -/
def invalidate (model : Path) : Work Unit := do
  let o ← openProject
  let model ← absolutePath model
  let (bench, had) := o.workshop.invalidate ⟨← files, o.cache⟩ model
  setFiles bench.files
  match had with
  | .error failure => giveUp failure.message (buildCauses failure)
  | .ok true => sayText ("Invalidated " ++ model.text)
  | .ok false => sayText (model.text ++ " is not cached.")

/-- Forgets all models. -/
def clearCache : Work Unit := do
  let o ← openProject
  let done := o.cache.clear (← files) (← here)
  setFiles done.files
  match done.answer with
  | .error fault => giveUp (Cache.faultMessage fault) [fault.cause.message]
  | .ok n => sayText ("Removed " ++ toString n ++ " cached artifact(s).")

/-- Removes the executables that no entry refers to. -/
def collectGarbage : Work Unit := do
  let o ← openProject
  if (← files).exists? (← here) o.project.layout.classesDir then
    let done := o.workshop.collect ⟨← files, o.cache⟩
    setFiles done.files
    for p in done.removed do detail [.text ("  removed " ++ p.text)]
    match done.fault with
    | some fault => refuse ("failed to remove " ++ fault.path.text) fault.cause
    | none => sayText ("Removed " ++ toString done.removed.length ++ " unreferenced artifact(s).")
  else sayText "Nothing to collect."

/-- Removes a directory; says whether it was there. -/
def removeDirectory (dir : Path) : Work Bool := do
  if (← files).exists? (← here) dir then
    let (files, refusal) := (← files).removeTree (← here) dir
    setFiles files
    if let some cause := refusal then refuse ("failed to remove " ++ dir.text) cause
    sayText ("Removed " ++ dir.text)
    return true
  else return false

/-- Removes all that was built, the cache included. -/
def clean : Work Unit := do
  let project ← findProject
  let first ← removeDirectory project.buildDir
  let second ← removeDirectory project.layout.classesDir
  unless first || second do sayText "Nothing to clean."

end SimWorkbench.Tool
