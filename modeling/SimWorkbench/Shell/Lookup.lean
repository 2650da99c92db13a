import SimWorkbench.Shell.Directory

/-!
# What the name of a command means

A command is a function, a command of the language or a program. Programs are looked for in the
directories that a variable lists; where one was found is remembered until that list changes.
-/
namespace SimWorkbench.Shell

/-- Other commands of the language; those whose name no function may have are listed elsewhere. -/
def ordinaryCommands : List String :=
  ["[", "alias", "bg", "cd", "chdir", "command", "echo", "false", "fg", "getopts", "hash", "jobs",
   "kill", "printf", "pwd", "read", "test", "true", "type", "ulimit", "umask", "unalias", "wait"]

/-- An error in a special command ends the script. -/
def isSpecialCommand (name : Chars) : Bool := specialCommands.contains (String.ofList name)

/-- Whether the language has a command of that name. -/
def isBuiltin (name : Chars) : Bool :=
  isSpecialCommand name || ordinaryCommands.contains (String.ofList name)

/-- Words of these commands can be assignments. -/
def takesAssignments (name : Chars) : Bool :=
  ["alias", "export", "local", "readonly"].contains (String.ofList name)

/-- Where programs are looked for if a command asks for the programs of the system. -/
def systemPath : Chars := "/usr/sbin:/usr/bin:/sbin:/bin".toList

/-- Where programs are looked for. -/
def searchPath (s : State) : Chars := (s.value? "PATH".toList).getD []

/-- The paths at which a program of some name may be. -/
def candidatePaths (path name : Chars) : List Chars :=
  (path.splitOn ':').map fun d => if d.isEmpty then name else d ++ '/' :: name

/-- Why a program could not be run: missing ones are only said to be so. -/
def runFault (e : OsError) : Chars :=
  match e with
  | .notFound | .notDirectory => "not found".toList
  | _ => e.plain.toList

/-- The first of some numbered paths at which there is a program, or the last refusal that says more
than that nothing is there. If a program was found before, absolute paths up to that place are not
looked at again. -/
def firstProgram (s : State) (known : Option Nat) :
    OsError → List (Chars × Nat) → Except OsError Nat
  | e, [] => .error e
  | e, (path, n) :: rest =>
    let isAbsolute := path.head? == some '/'
    if isAbsolute && known.any fun k => n < k then firstProgram s known e rest
    else if isAbsolute && known = some n then .ok n
    else
      match s.files.locate s.dir (toPath path) with
      | .error .notFound | .error .notDirectory => firstProgram s known e rest
      | .error e' => firstProgram s known e' rest
      | .ok (_, entry) =>
        if entry.isFile && entry.mode.isExecutable then .ok n
        else firstProgram s known .permissionDenied rest

/-- What a name means. -/
inductive Meaning where
  | builtin
  | function (body : Tree)
  /-- A program at the directory of that number, or at the path that the name is. -/
  | program (place : Option Nat)
  | nothing (e : OsError)

/-- What a name means as the name of a program in the directories of `path`. What is found in the
script's own directories is remembered. -/
def lookUpProgram (path name : Chars) : Exec Meaning := do
  let s ← get
  let isOwn : Bool := path == searchPath s
  let known := if isOwn then s.known.find? fun k => k.name = name else none
  if let some ⟨_, place, false⟩ := known then return .program (some place)
  match firstProgram s (known.map Known.place) .notFound (candidatePaths path name).zipIdx with
  | .ok place =>
    if isOwn then
      let entry : Known := ⟨name, place, false⟩
      let others := if known.isSome then
          s.known.map fun k => if k.name = name then entry else k
        else s.known ++ [entry]
      set { s with known := others }
    return .program (some place)
  | .error e =>
    if isOwn then set { s with known := s.known.filter fun k => k.name ≠ name }
    return .nothing e

/-- What a name means; functions do not count if that is asked for. -/
def lookUp (path name : Chars) (noFunctions : Bool) : Exec Meaning := do
  if name.contains '/' then return .program none
  let s ← get
  match if noFunctions then none else s.functions.find? fun f => f.name = name with
  | some f => return .function f.body
  | none => if isBuiltin name then return .builtin else lookUpProgram path name

/-- The path of a program that was looked up. -/
def placePath (path name : Chars) : Option Nat → Chars
  | none => name
  | some n => ((candidatePaths path name)[n]?).getD name

/-- Where an entry stands in the order in which names are listed: by a number made from the
characters. -/
def listingKey (size : Nat) (name : Chars) : Nat :=
  (name.foldl (fun n c => n + c.toNat) ((name.headD '\x00').toNat * 16)) % size

/-- An alias as it is listed. -/
def aliasLine (a : Chars × Chars) : Chars := a.1 ++ '=' :: singleQuoted a.2 ++ ['\n']

/-- Says what a name means; tells whether it means anything. -/
def describe (name : Chars) (path : Option Chars) (verbose : Bool) : Exec Bool := do
  let s ← get
  let say (text : Chars) : Exec Bool := do
    print ((if verbose then name ++ text else name) ++ ['\n'])
    return true
  if (Keyword.ofChars? name).isSome then return ← say " is a shell keyword".toList
  if let some value := s.aliases.lookup name then
    if verbose then return ← say (" is an alias for ".toList ++ value)
    print ("alias ".toList ++ aliasLine (name, value))
    return true
  let tracked := path.isNone && s.known.any fun k => k.name = name
  let directories := path.getD (searchPath s)
  let meaning ← match if tracked then s.known.find? fun k => k.name = name else none with
    | some k => pure (.program (some k.place))
    | none =>
      if name.contains '/' && !s.files.exists? s.dir (toPath name) then pure (.nothing .notFound)
      else lookUp directories name false
  match meaning with
  | .builtin =>
    say (if isSpecialCommand name then " is a special shell builtin"
      else " is a shell builtin").toList
  | .function _ => say " is a shell function".toList
  | .program place =>
    let found := placePath directories name place
    print ((if verbose then
        name ++ (if tracked then " is a tracked alias for ".toList else " is ".toList) ++ found
      else found) ++ ['\n'])
    return true
  | .nothing _ =>
    if verbose then print (name ++ ": not found\n".toList)
    return false

/-- The command that says what names mean. -/
def typeCommand (words : List Chars) : Exec Unit := do
  let known ← words.mapM fun word => describe word none true
  setStatus (if known.all id then 0 else 127)

/-- The command that says what a name means, or where the program is. -/
def describeCommand (words : List Chars) : Exec Unit := do
  let o ← readOptions [('p', false), ('v', false), ('V', false)] words
  setStatus 0
  if o.has 'v' || o.has 'V' then
    if let word :: _ := o.words then
      let path := if o.has 'p' then some systemPath else none
      unless ← describe word path (o.has 'V') do setStatus 127

/-- The command that remembers where programs are. -/
def hashCommand (words : List Chars) : Exec Unit := do
  let o ← readOptions [('r', false)] words
  let s ← get
  setStatus 0
  if o.has 'r' then set { s with known := [], status := 0 }
  else if o.words.isEmpty then
    let entries := s.known.mergeSort fun a b => listingKey 31 a.name ≤ listingKey 31 b.name
    print (entries.flatMap fun k =>
      placePath (searchPath s) k.name (some k.place) ++ (if k.stale then ['*'] else []) ++ ['\n'])
  else
    let mut missing := false
    for word in o.words do
      modify fun s => { s with known := s.known.filter fun k => k.name ≠ word }
      if let .nothing e ← lookUp (searchPath s) word false then
        complain (word ++ ": ".toList ++ runFault e)
        missing := true
    setStatus (if missing then 1 else 0)

/-- The command that gives names to texts, or lists them. -/
def aliasCommand (words : List Chars) : Exec Unit := do
  setStatus 0
  if words.isEmpty then
    let s ← get
    let listed := s.aliases.reverse.mergeSort fun a b => listingKey 39 a.1 ≤ listingKey 39 b.1
    print (listed.flatMap aliasLine)
  for word in words do
    let front := (word.drop 1).takeWhile (· ≠ '=')
    let name := word.take (1 + front.length)
    if name.length < word.length then
      let value := word.drop (name.length + 1)
      modify fun s =>
        if (s.aliases.lookup name).isSome then
          { s with aliases := s.aliases.map fun a => if a.1 = name then (name, value) else a }
        else { s with aliases := (name, value) :: s.aliases }
    else
      match (← get).aliases.lookup word with
      | some value => print (aliasLine (word, value))
      | none =>
        emit 2 ("alias: ".toList ++ word ++ " not found\n".toList)
        setStatus 1

/-- The command that takes names from texts. -/
def unaliasCommand (words : List Chars) : Exec Unit := do
  let o ← readOptions [('a', false)] words
  setStatus 0
  if o.has 'a' then modify fun s => { s with aliases := [] }
  else
    for word in o.words do
      if ((← get).aliases.lookup word).isSome then
        modify fun s => { s with aliases := s.aliases.filter fun a => a.1 ≠ word }
      else
        emit 2 ("unalias: ".toList ++ word ++ " not found\n".toList)
        setStatus 1

end SimWorkbench.Shell
