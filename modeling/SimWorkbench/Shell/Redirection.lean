import SimWorkbench.Shell.Lookup

/-!
# Redirections

A redirection lets a descriptor lead to a file, to what another descriptor leads to, or to a text of
the script. The words of all redirections are expanded before the first of them is carried out.
-/
namespace SimWorkbench.Shell

/-- A redirection whose word has been expanded. -/
structure Target where
  descriptor : Nat
  kind : RedirectKind
  text : Chars

/-- Expands the word of a redirection. A descriptor that is to be copied is a digit or a dash. -/
def expandTarget (r : Recursion) (redirect : Redirect) : Exec Target := do
  let .mk descriptor kind word := redirect
  match kind with
  | .document _ => return ⟨descriptor, kind, []⟩
  | _ =>
    let text ← expandText r .text word
    if kind = .duplicate && !(text = ['-'] || (text.length = 1 && text.all Char.isDigit)) then
      modify fun s => { s with line := s.reached }
      abort "Syntax error: Bad fd number".toList
    return ⟨descriptor, kind, text⟩

/-- Expands the words of redirections. -/
def expandTargets (r : Recursion) (redirects : List Redirect) : Exec (List Target) :=
  redirects.mapM (expandTarget r)

/-- Ends the script because a file could not be opened. -/
def abortOpen {α : Type} (name : Chars) (creates : Bool) (e : OsError) : Exec α :=
  let reason : Chars := match e with
    | .notFound | .notDirectory =>
      if creates then "Directory nonexistent".toList else "No such file".toList
    | _ => e.plain.toList
  abort ((if creates then "cannot create ".toList else "cannot open ".toList) ++ name ++
    ": ".toList ++ reason)

/-- What an open file leads to that is opened for some uses. -/
def channelOf (place : Location) : Entry → Channel
  | .directory => .directory
  | .file .. | .tool _ => .file place
  | .device .null => .nowhere
  | .device .full => .brimful
  | .device (.stream _) => .nowhere

/-- What a name leads to: a file that is open already, or a place and what is there. The name of a
descriptor leads to what that has open; a file is opened once more. -/
def resolveTarget (name : Chars) (creates : Bool) :
    Exec (Sum Nat (Location × Option Entry)) := do
  let s ← get
  let found : Except OsError (Location × Option Entry) :=
    if creates then s.files.writeTarget s.dir (toPath name)
    else (s.files.locate s.dir (toPath name)).map fun x => (x.1, some x.2)
  match found with
  | .error e => abortOpen name creates e
  | .ok (_, some (.device (.stream n))) =>
    match s.descriptors.lookup n with
    | none => abortOpen name creates .notFound
    | some file =>
      match (s.openFile? file).map OpenFile.channel with
      | some (.file place) => return .inr (place, s.files.get? place)
      | _ => return .inl file
  | .ok target => return .inr target

/-- Opens a file; one that is opened for writing is made if there is none. -/
def openFile (name : Chars) (kind : RedirectKind) : Exec Nat := do
  let creates := kind ≠ .input
  match ← resolveTarget name creates with
  | .inl file => return file
  | .inr (place, entry) =>
    let s ← get
    let isStored := (entry.map Entry.isFile).getD false
    if kind = .output && isStored && s.isOn .noclobber then abortOpen name creates .alreadyExists
    match entry with
    | none => putEntry place (.file [] (ModeChange.without 0o666 s.withheld))
    | some (.file content mode) =>
      if (kind = .output || kind = .overwrite) && !content.isEmpty then
        putEntry place (.file [] mode)
    | some _ => pure ()
    newFile ⟨(entry.map (channelOf place)).getD (.file place), 0, kind = .append,
      kind = .input || kind = .both, creates⟩

/-- Carries out a redirection. `returns` says whether the descriptor is to lead back later; then it is
closed before it is led elsewhere. -/
def redirectTo (r : Recursion) (returns : Bool) (target : Target) : Exec Unit := do
  match target.kind with
  | .duplicate =>
    if target.text = ['-'] then redirect target.descriptor none
    else
      let from' := digitsValue 10 target.text
      if from' ≠ target.descriptor then
        match (← get).descriptors.lookup from' with
        | some file => redirect target.descriptor (some file)
        | none =>
          if returns then redirect target.descriptor none
          abort (target.text ++ ": Bad file descriptor".toList)
  | .document n =>
    let pieces := ((← get).documents.lookup n).getD []
    let text := (← r.word .document pieces).chars
    redirect target.descriptor (some (← newFile (readEnd (← newPipe text true))))
  | _ => redirect target.descriptor (some (← openFile target.text target.kind))

/-- Carries out redirections in order; an error in one of them undoes them all and makes the status
2. Tells whether there was none. -/
def redirectAll (r : Recursion) (returns : Bool) (targets : List Target) : Exec Bool := do
  let before := (← get).descriptors
  match ← attempt (targets.forM (redirectTo r returns)) with
  | .ok () => return true
  | .error .failure =>
    modify fun s => { s with descriptors := before, status := 2 }
    return false
  | .error stop => throw stop

/-- Runs something and lets some descriptors lead where they did before. -/
def keepingDescriptors (descriptors : List Nat) (run : Exec Unit) : Exec Unit := do
  let before := (← get).descriptors
  let isOne (d : Nat × Nat) : Bool := descriptors.contains d.1
  unless descriptors.isEmpty do
    return ← andThen run (modify fun s =>
      { s with descriptors := before.filter isOne ++ s.descriptors.filter fun d => !isOne d })
  run

end SimWorkbench.Shell
