import SimWorkbench.Tool.Basic

/-!
# The program

The files of the project are read into memory, the tool is used on them, and what it changed is
written back. Programs that the tool starts are carried out as the command language has them; the
tools they may use are those found in the directories of `PATH`. A file may be executed if it names
an interpreter.
-/
namespace SimWorkbench.Disk

/-- The names in an absolute path. -/
def locationOf (path : String) : Location := (path.splitOn "/").filter (· ≠ "")

/-- What lies at and below an entry of a directory. -/
partial def load (entry : IO.FS.DirEntry) (place : Location) : IO (List (Location × Entry)) := do
  match (← entry.path.metadata).type with
  | .dir =>
    let inner ← entry.path.readDir
    let parts ← inner.toList.mapM fun e => load e (place ++ [e.fileName])
    return (place, .directory) :: parts.flatten
  | .file =>
    let content := (← IO.FS.readBinFile entry.path).toList
    return [(place, .file content (if content.take 2 == [35, 33] then .program else .plain))]
  | _ => return []

/-- What is found in one directory of programs. -/
def loadTools (directory : String) : IO (List (Location × Entry)) := do
  let place := locationOf directory
  let cwd ← IO.currentDir
  let found ← ["sh", "cat", "cp", "chmod", "grep", "true", "false"].filterM fun name =>
    (cwd / (directory ++ "/" ++ name)).pathExists
  return found.map fun name => (place ++ [name], .tool name)

/-- A location and all above it but the root, from the top down. -/
def way (place : Location) : List Location :=
  (List.range place.length).map fun n => place.take (n + 1)

/-- All directories on the way to a location. -/
def directoriesTo (place : Location) : List (Location × Entry) :=
  (way place).map fun l => (l, .directory)

/-- The project's directory, or the current one if there is no project. -/
def projectPlace (here : Location) : IO Location := do
  let cwd ← IO.currentDir
  let found ← (way here).reverse.filterM fun l =>
    (cwd / (l.path.child settingsFileName).text).pathExists
  return found.headD here

/-- Everything the tool may see. -/
def loadAll (here : Location) (searched : List String) : IO FileTree := do
  let place ← projectPlace here
  let cwd ← IO.currentDir
  let inner ← if place = here && !(← (cwd / settingsFileName).pathExists) then pure #[]
    else (cwd / place.path.text).readDir
  let parts ← inner.toList.mapM fun e => load e (place ++ [e.fileName])
  let tools ← searched.mapM loadTools
  let directories := directoriesTo here ++ searched.flatMap fun d => directoriesTo (locationOf d)
  return ⟨Keyed.ofList Prod.fst (directories ++ tools.flatten ++ parts.flatten ++
    [(["dev"], .directory), (["dev", "null"], .device .null)])⟩

/-- Writes one new entry. -/
def writeEntry (place : Location) (entry : Entry) : IO Unit := do
  match entry with
  | .directory => IO.FS.createDirAll place.path.text
  | .file content mode =>
    IO.FS.writeBinFile place.path.text ⟨content.toArray⟩
    let rights (shift : Nat) : IO.AccessRight :=
      { read := mode.testBit (shift + 2), write := mode.testBit (shift + 1),
        execution := mode.testBit shift }
    IO.setAccessRights place.path.text { user := rights 6, group := rights 3, other := rights 0 }
  | .tool _ | .device _ => pure ()

/-- Removes one old entry. -/
def removeEntry (place : Location) (entry : Entry) : IO Unit := do
  let cwd ← IO.currentDir
  let path := cwd / place.path.text
  if ← path.pathExists then
    if entry.isDirectory then IO.FS.removeDirAll path else IO.FS.removeFile path

/-- Writes back what changed: first removals, then new entries from the top down. -/
def store (before after : FileTree) : IO Unit := do
  for (place, entry) in before.entries do
    if (after.get? place).isNone then removeEntry place entry
  let new := after.entries.filter fun e => before.get? e.1 ≠ some e.2
  for (place, entry) in new.mergeSort fun a b => a.1.length ≤ b.1.length do
    writeEntry place entry

/-- What programs find around themselves. -/
def surroundings (here : Location) : IO Surroundings := do
  let names := ["PATH", "HOME", "LC_ALL", ProcessArtifact.classpathVariable,
    ProcessArtifact.libraryVariable]
  let found ← names.filterMapM fun name => return (← IO.getEnv name).map fun value => (name, value)
  return ⟨found, here⟩

/-- The number of steps after which a run counts as hanging. -/
def patience : Nat := 10000000

end SimWorkbench.Disk

open SimWorkbench in
/-- Uses the tool with the words of the command line. -/
def main (words : List String) : IO UInt32 := do
  let start ← IO.monoMsNow
  let here := Disk.locationOf (← IO.currentDir).toString
  let around ← Disk.surroundings here
  let files ← Disk.loadAll here (around.searched.map Path.text)
  let home := (← IO.appDir).toString
  let outcome := Tool.use around (some ⟨home⟩) Disk.patience files words
  Disk.store files outcome.files
  let elapsed := toString ((← IO.monoMsNow) - start) ++ ".0ms"
  (← IO.getStdout).putStr (Tool.textOf elapsed outcome.stdout)
  (← IO.getStderr).putStr (Tool.textOf elapsed outcome.stderr)
  return UInt32.ofNat outcome.status
