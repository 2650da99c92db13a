import SimWorkbench.Shell.Token

/-!
# Grammar

Commands are read one complete line at a time, so that what comes first can be carried out before
the rest is looked at. Lists hold lists, up to a depth that no script reaches.
-/
namespace SimWorkbench.Shell

open Reader

/-- Refuses the last token; says what was expected if only one thing was. -/
def unexpected {α : Type} (expected : Option Token) : Reader α := do
  let c ← get
  refuse (c.last.name ++ " unexpected" ++
    (match expected with
      | some token => " (expecting " ++ token.name ++ ")"
      | none => ""))

/-- A token that has to follow. -/
def expect (g : Readers) (notice : Notice) (token : Token) : Reader Unit := do
  unless (← nextToken g notice) = token do unexpected (some token)

/-- A list that may not be empty. At the end of the text it is, and what should follow is missing. -/
def fullList (g : Readers) : Reader Tree := return (← g.list false).getD default

/-- The word of a redirection whose operator has been read. -/
def readTarget (g : Readers) : Reader Redirect := do
  let (descriptor, kind) := (← get).redirect
  match kind with
  | .document _ =>
    let dropTabs ← accept '-'
    let token ← nextTokenFrom g .delimiter .none patience
    unless token = .word do unexpected none
    let c ← get
    let d : PendingDocument := ⟨c.nextDocument, literalText c.word, c.quoted, dropTabs⟩
    set { c with pending := c.pending ++ [d], nextDocument := c.nextDocument + 1 }
    return .mk descriptor (.document d.number) []
  | _ =>
    unless (← nextToken g .none) = .word do unexpected none
    return .mk descriptor kind (← get).word

/-- The redirections that follow a command. -/
def readRedirects (g : Readers) : Reader (List Redirect) := repeated do
  if (← nextToken g .command) = .redirection then return some (← readTarget g)
  pushBack
  return none

/-- The name in front of an assignment. -/
def assignmentName? (word : List Piece) : Option Chars :=
  match word with
  | .chars text false :: _ =>
    match text.dropWhile isNameChar with
    | '=' :: _ => if isNameStart (text.headD '=') then some (text.takeWhile isNameChar) else none
    | _ => none
  | _ => none

/-- What an assignment assigns. -/
def assignedWord (word : List Piece) (name : Chars) : List Piece :=
  match word with
  | .chars text quoted :: more =>
    let value := text.drop (name.length + 1)
    if value.isEmpty then more else .chars value quoted :: more
  | _ => word

/-- The parts of a simple command read so far, last first. -/
structure Parts where
  assignments : List (Chars × List Piece)
  words : List (List Piece)
  redirects : List Redirect

def Parts.command (p : Parts) (line : Nat) : Tree :=
  .simple p.assignments.reverse p.words.reverse p.redirects.reverse line

/-- Commands of the language whose name no function may have. -/
def specialCommands : List String :=
  [":", ".", "break", "continue", "eval", "exec", "exit", "export", "local", "readonly", "return",
   "set", "shift", "times", "trap", "unset"]

/-- A command of words, or the definition of a function. -/
def readSimple (g : Readers) (command : Reader Tree) (line : Nat) : Nat → Parts → Reader Tree
  | 0, _ => refuse "script too long"
  | n + 1, p => do
    match ← nextToken g ⟨false, false, p.words.isEmpty⟩ with
    | .word =>
      let word := (← get).word
      match if p.words.isEmpty then assignmentName? word else none with
      | some name =>
        readSimple g command line n
          { p with assignments := (name, assignedWord word name) :: p.assignments }
      | none => readSimple g command line n { p with words := word :: p.words }
    | .redirection =>
      let r ← readTarget g
      readSimple g command line n { p with redirects := r :: p.redirects }
    | .openBracket =>
      match p with
      | ⟨[], [name], []⟩ =>
        expect g .none .closeBracket
        match plainText? name with
        | some text =>
          if !isName text || specialCommands.contains (String.ofList text) then
            refuse "Bad function name"
          return .define text (← command)
        | none => refuse "Bad function name"
      | _ =>
        pushBack
        return p.command line
    | _ =>
      pushBack
      return p.command line

/-- A conditional behind its first word, up to the word that ends it. -/
def readConditional (g : Readers) : Nat → Reader Tree
  | 0 => refuse "script too long"
  | n + 1 => do
    let condition ← fullList g
    expect g .none (.keyword .then_)
    let body ← fullList g
    match ← nextToken g .none with
    | .keyword .elif => return .conditional condition body (some (← readConditional g n))
    | .keyword .else_ => return .conditional condition body (some (← fullList g))
    | _ =>
      pushBack
      return .conditional condition body none

/-- The words of a loop over words, up to what ends them. -/
def readEachWords (g : Readers) : Reader (List (List Piece)) := do
  let words ← repeated do
    if (← nextToken g .none) = .word then return some (← get).word else return none
  let last := (← get).last
  unless last = .newline || last = .semicolon do unexpected none
  return words

/-- A loop over words behind its first word. -/
def readEach (g : Readers) (line : Nat) : Reader Tree := do
  let token ← nextToken g .none
  let c ← get
  let name := ((if c.quoted then none else plainText? c.word)).getD []
  unless token = .word && isName name do refuse "Bad for loop variable"
  let words ← match ← nextToken g .behindLines with
    | .keyword .in_ => readEachWords g
    | .semicolon => pure [[.mark, .parameter ['@'] .value [], .mark]]
    | _ => do
      pushBack
      pure [[.mark, .parameter ['@'] .value [], .mark]]
  expect g .behindLines (.keyword .do_)
  return .each name words (← fullList g) line

/-- The patterns of a branch; the first token has been read. -/
def readPatterns (g : Readers) : Nat → Reader (List (List Piece))
  | 0 => refuse "script too long"
  | n + 1 => do
    let word := (← get).word
    if (← nextToken g .none) = .bar then
      discard (nextToken g .none)
      return word :: (← readPatterns g n)
    return [word]

/-- The branches of a choice. -/
def readBranches (g : Readers) : Nat → Reader (List (List (List Piece) × Option Tree))
  | 0 => refuse "script too long"
  | n + 1 => do
    let token ← nextToken g ⟨true, true, false⟩
    if token = .keyword .esac then return []
    if token = .openBracket then discard (nextToken g .none)
    let patterns ← readPatterns g patience
    unless (← get).last = .closeBracket do unexpected (some .closeBracket)
    let body ← g.list true
    match ← nextToken g ⟨true, true, false⟩ with
    | .keyword .esac => return [(patterns, body)]
    | .branchEnd => return (patterns, body) :: (← readBranches g n)
    | _ => unexpected (some .branchEnd)

/-- A choice behind its first word. -/
def readChoice (g : Readers) (line : Nat) : Reader Tree := do
  expect g .none .word
  let word := (← get).word
  expect g .behindLines (.keyword .in_)
  return .choice word (← readBranches g patience) line

/-- A command with its redirections. Those of a process take the place of earlier ones that stand
between braces. -/
def withRedirects (g : Readers) (line : Nat) (tree : Tree) : Reader Tree := do
  match ← readRedirects g, tree with
  | [], _ => return tree
  | redirects, .subshell body _ false line' => return .subshell body redirects false line'
  | redirects, _ => return .redirected tree redirects line

/-- A command whose first token is noticed as `notice` says; the number bounds the definitions in
front of it. -/
def readCommandFrom (g : Readers) : Nat → Notice → Reader Tree
  | 0, _ => refuse "script too long"
  | n + 1, notice => do
    let line := (← get).line
    match ← nextToken g notice with
    | .keyword .if_ =>
      let tree ← readConditional g patience
      expect g .none (.keyword .fi)
      withRedirects g line tree
    | .keyword .while_ => loop line true
    | .keyword .until_ => loop line false
    | .keyword .for_ =>
      let tree ← readEach g line
      expect g .none (.keyword .done)
      withRedirects g line tree
    | .keyword .case_ => withRedirects g line (← readChoice g line)
    | .openBracket =>
      let body ← fullList g
      expect g .none .closeBracket
      withRedirects g line (.subshell body [] false line)
    | .keyword .openBrace =>
      let body ← fullList g
      expect g .none (.keyword .closeBrace)
      withRedirects g line body
    | .word | .redirection =>
      pushBack
      readSimple g (readCommandFrom g n .behindLines) (← get).line patience ⟨[], [], []⟩
    | _ => unexpected none
where
  loop (line : Nat) (whileTrue : Bool) : Reader Tree := do
    let condition ← fullList g
    expect g .none (.keyword .do_)
    let body ← fullList g
    expect g .none (.keyword .done)
    withRedirects g line (.loop whileTrue condition body)

/-- A command. -/
def readCommandTree (g : Readers) (notice : Notice) : Reader Tree :=
  readCommandFrom g patience notice

/-- Commands joined by bars, perhaps negated. -/
def readPipeline (g : Readers) (notice : Notice) : Reader Tree := do
  let negated := (← nextToken g notice) = .keyword .bang
  unless negated do pushBack
  let first ← readCommandTree g (if negated then .command else .none)
  let others ← repeated do
    if (← nextToken g .none) = .bar then return some (← readCommandTree g .behindLines)
    pushBack
    return none
  let tree := if others.isEmpty then first else .pipeline (first :: others) false
  return if negated then .negation tree else tree

/-- Pipelines joined by "and" and "or", from left to right. -/
def readAndOr (g : Readers) : Reader Tree := do
  let first ← readPipeline g .none
  let others ← repeated do
    match ← nextToken g .none with
    | .both => return some (true, ← readPipeline g .behindLines)
    | .either => return some (false, ← readPipeline g .behindLines)
    | _ =>
      pushBack
      return none
  return others.foldl (fun t o => if o.1 then .both t o.2 else .either t o.2) first

/-- A command that runs beside the script. -/
def inBackground : Tree → Tree
  | .pipeline parts _ => .pipeline parts true
  | .redirected body redirects line => .subshell body redirects true line
  | tree => .subshell tree [] true 0

/-- One command behind another. -/
def appended (before : Option Tree) (tree : Tree) : Option Tree :=
  some (match before with
    | none => tree
    | some t => .sequence t tree)

/-- Commands up to what ends them; that is not consumed. -/
def readListFrom (g : Readers) (mayEnd : Bool) : Nat → Option Tree → Reader (Option Tree)
  | 0, _ => refuse "script too long"
  | n + 1, done => do
    let token ← nextToken g .behindLines
    pushBack
    if token = .endOfText then
      readDocuments g
      return done
    if (mayEnd || done.isSome) && token.endsList then return done
    let tree ← readAndOr g
    match ← nextToken g .none with
    | .background => readListFrom g mayEnd n (appended done (inBackground tree))
    | .semicolon => readListFrom g mayEnd n (appended done tree)
    | .newline =>
      pushBack
      readListFrom g mayEnd n (appended done tree)
    | .endOfText =>
      readDocuments g
      pushBack
      return appended done tree
    | _ =>
      pushBack
      return appended done tree

/-- Readers for a given depth of nesting. -/
def readers : Nat → Readers
  | 0 => ⟨fun _ => refuse "too deep", fun _ => refuse "too deep"⟩
  | n + 1 =>
    let g := readers n
    ⟨fun mayEnd => readListFrom g mayEnd patience none,
      readWord g (nextToken g .none)⟩

/-- How deep commands may be nested. -/
def maxNesting : Nat := 1000

/-- The commands of a line. -/
def readLineFrom (g : Readers) : Nat → Option Tree → Reader (Option (Option Tree))
  | 0, _ => refuse "script too long"
  | n + 1, done => do
    match ← nextToken g .command with
    | .newline =>
      readDocuments g
      return some done
    | .endOfText =>
      readDocuments g
      pushBack
      return done.map some
    | _ =>
      pushBack
      let tree ← readAndOr g
      match ← nextToken g .none with
      | .background => readLineFrom g n (appended done (inBackground tree))
      | .semicolon => readLineFrom g n (appended done tree)
      | .newline =>
        pushBack
        readLineFrom g n (appended done tree)
      | .endOfText =>
        readDocuments g
        pushBack
        return some (appended done tree)
      | _ => unexpected none

/-- The pieces of a text that is expanded as if it stood in quotes. -/
def readQuotedText : Reader (List Piece) := do
  let g := readers maxNesting
  let pieces ← repeated do
    if (← rest).isEmpty then return none else return some (← g.word .document)
  return joinPieces pieces.flatten

/-- The commands of the next line, which may be empty; none at the end of the script. -/
def readLine : Reader (Option (Option Tree)) := do
  modify fun c => { c with pushed := false, pending := [] }
  readLineFrom (readers maxNesting) patience none

end SimWorkbench.Shell
