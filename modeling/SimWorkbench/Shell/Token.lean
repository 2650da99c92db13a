import SimWorkbench.Shell.Syntax
import SimWorkbench.Text.Lines

/-!
# Tokens

A script is read from its front, as far as the commands that are to be carried out next. Its text
falls into operators and words. Words hold commands in turn, so the readers of lists and of words
need each other: each is written against an earlier pair of readers.
-/
namespace SimWorkbench.Shell

/-- Words that have a meaning in the grammar. -/
inductive Keyword where
  | bang | case_ | do_ | done | elif | else_ | esac | fi | for_ | if_ | in_ | then_ | until_
  | while_ | openBrace | closeBrace
  deriving DecidableEq, Repr

def Keyword.table : List (String × Keyword) :=
  [("!", bang), ("case", case_), ("do", do_), ("done", done), ("elif", elif), ("else", else_),
   ("esac", esac), ("fi", fi), ("for", for_), ("if", if_), ("in", in_), ("then", then_),
   ("until", until_), ("while", while_), ("\x7b", openBrace), ("\x7d", closeBrace)]

def Keyword.ofChars? (text : Chars) : Option Keyword :=
  (table.find? fun row => row.1.toList = text).map Prod.snd

/-- What a script consists of. -/
inductive Token where
  | newline | semicolon | background | both | either | bar | openBracket | closeBracket
  | branchEnd | redirection | word | endOfText
  | keyword (k : Keyword)
  deriving DecidableEq, Repr

/-- How a token is named where it must not stand. -/
def Token.name : Token → String
  | newline => "newline"
  | endOfText => "end of file"
  | redirection => "redirection"
  | word => "word"
  | semicolon => "\";\""
  | background => "\"&\""
  | both => "\"&&\""
  | either => "\"||\""
  | bar => "\"|\""
  | openBracket => "\"(\""
  | closeBracket => "\")\""
  | branchEnd => "\";;\""
  | keyword k =>
    "\"" ++ ((Keyword.table.find? fun row => row.2 = k).map Prod.fst).getD "" ++ "\""

/-- Whether a list of commands ends in front of a token. -/
def Token.endsList : Token → Bool
  | branchEnd | closeBracket | endOfText => true
  | keyword k =>
    [.do_, .done, .elif, .else_, .esac, .fi, .then_, .closeBrace].contains k
  | _ => false

/-- A text in the script: its number, the line that ends it, whether it is taken as it stands, and
whether tabs at the front of lines are dropped. -/
structure PendingDocument where
  number : Nat
  delimiter : Chars
  literal : Bool
  dropTabs : Bool

/-- The place of a reader in a script. -/
structure Cursor where
  rest : Chars
  line : Nat
  /-- Texts announced on this line, which follow it. -/
  pending : List PendingDocument
  /-- The texts read so far, by number. -/
  documents : List (Nat × List Piece)
  nextDocument : Nat
  /-- The last token, and whether it is to be read again. -/
  last : Token
  pushed : Bool
  /-- The last word, and whether it had quotes. -/
  word : List Piece
  quoted : Bool
  /-- The last redirection up to its word. -/
  redirect : Nat × RedirectKind
  /-- Words that stand for texts, and those of them whose text is being read, each with the length
  of what follows it. -/
  aliases : List (Chars × Chars)
  reading : List (Chars × Nat)

/-- The beginning of a script. -/
def Cursor.start (text : Chars) (documents : List (Nat × List Piece))
    (aliases : List (Chars × Chars)) : Cursor :=
  { rest := text, line := 1, pending := [], documents, nextDocument := documents.length,
    last := .newline, pushed := false, word := [], quoted := false, redirect := (0, .input),
    aliases, reading := [] }

/-- What no script may have: the line where it was found, and a text. -/
structure SyntaxFault where
  line : Nat
  text : String

abbrev Reader := StateT Cursor (Except SyntaxFault)

/-- Refuses the script at the current line. -/
def refuse {α : Type} (text : String) : Reader α := do throw ⟨(← get).line, text⟩

/-- Where a word ends. -/
inductive WordMode where
  /-- At a blank or an operator. -/
  | bare
  /-- At the same places; only quotes have a meaning. -/
  | delimiter
  /-- At a double quote. -/
  | quoted
  /-- At a closing brace; the text may be quoted, and part of a text in the script. -/
  | brace (quoted inDocument : Bool)
  /-- Behind two closing brackets. -/
  | arithmetic
  /-- After one piece. -/
  | document
  deriving DecidableEq

namespace WordMode

def isQuoted : WordMode → Bool
  | quoted | document | arithmetic | brace true _ => true
  | bare | delimiter | brace false _ => false

def inDocument : WordMode → Bool
  | document | brace _ true => true
  | _ => false

end WordMode

/-- Readers of lists and of words. A list may be empty if that is said. -/
structure Readers where
  list : Bool → Reader (Option Tree)
  word : WordMode → Reader (List Piece)

namespace Reader

def rest : Reader Chars := return (← get).rest

def setRest (rest : Chars) : Reader Unit := modify fun c => { c with rest := rest }

/-- How often anything can be repeated. -/
def patience : Nat := 1000000000

/-- Repeats a reader until it gives nothing. -/
def many {α : Type} (read : Reader (Option α)) : Nat → List α → Reader (List α)
  | 0, _ => refuse "script too long"
  | n + 1, found => do
    match ← read with
    | none => return found.reverse
    | some a => many read n (a :: found)

/-- Repeats a reader as long as it gives something. -/
def repeated {α : Type} (read : Reader (Option α)) : Reader (List α) := many read patience []

/-- Goes on behind line ends that a backslash hides. -/
def skipJoins : Reader Unit :=
  modify fun c =>
    let rec go : Chars → Nat → Chars × Nat
      | '\\' :: '\n' :: rest, line => go rest (line + 1)
      | rest, line => (rest, line)
    let (rest, line) := go c.rest c.line
    { c with rest := rest, line := line }

/-- The text that comes next, behind hidden line ends. -/
def upcoming : Reader Chars := do
  skipJoins
  rest

/-- The reader goes on behind a character if that comes next. -/
def accept (c : Char) : Reader Bool := do
  match ← upcoming with
  | d :: rest => if c == d then setRest rest; return true else return false
  | [] => return false

/-- The characters that satisfy a test. -/
def takeWhile (test : Char → Bool) : Reader Chars := do
  repeated do
    match ← upcoming with
    | c :: rest => if test c then setRest rest; return some c else return none
    | [] => return none

/-- Counts the lines of a text that was passed. -/
def countLines (text : Chars) : Reader Unit :=
  modify fun c => { c with line := c.line + text.count '\n' }

end Reader

open Reader

/-- Characters that end a bare word. -/
def isOperator (c : Char) : Bool := " \t\n;&|<>()".toList.contains c

def isNameStart (c : Char) : Bool := c.isAlpha || c == '_'
def isNameChar (c : Char) : Bool := c.isAlphanum || c == '_'

/-- Whether a text is the name of a variable. -/
def isName (text : Chars) : Bool := text.head?.any isNameStart && text.all isNameChar

/-- Parameters that are a single character. -/
def isSpecial (c : Char) : Bool := "@*#?-$!".toList.contains c || c.isDigit

/-- The use of a parameter and the mode of the word behind it, from the operator in braces. -/
def readUse (mode : WordMode) : Reader (ParameterUse × WordMode) := do
  let word := WordMode.brace mode.isQuoted mode.inDocument
  let pattern := WordMode.brace false mode.inDocument
  let colon ← accept ':'
  match ← upcoming with
  | '-' :: r => setRest r; return (.default colon, word)
  | '=' :: r => setRest r; return (.assign colon, word)
  | '+' :: r => setRest r; return (.alternative colon, word)
  | '?' :: r => setRest r; return (.demand colon, word)
  | '\x7d' :: r => setRest r; return (if colon then .value else .malformed, word)
  | c :: r =>
    if colon then setRest r; return (.malformed, word)
    else if c == '%' then
      setRest r
      return (.dropEnd (← accept '%'), pattern)
    else if c == '#' then
      setRest r
      return (.dropFront (← accept '#'), pattern)
    else setRest r; return (.malformed, word)
  | [] => return (.malformed, word)

/-- A parameter in braces, behind the opening one. -/
def readBraced (g : Readers) (mode : WordMode) : Reader Piece := do
  let close (name : Chars) (use : ParameterUse) (wordMode : WordMode) : Reader Piece := do
    let word ← g.word wordMode
    unless ← accept '\x7d' do refuse "Missing '\x7d'"
    return .parameter name use word
  let bad (mode : WordMode) : Reader Piece :=
    close [] .malformed (.brace mode.isQuoted mode.inDocument)
  let finish (name : Chars) : Reader Piece := do
    if ← accept '\x7d' then return .parameter name .value []
    let (use, wordMode) ← readUse mode
    close name use wordMode
  let nameOf (c : Char) : Reader Chars :=
    if isNameStart c then takeWhile isNameChar else takeWhile Char.isDigit
  match ← upcoming with
  | [] => bad mode
  | '\x7d' :: _ => bad mode
  | '#' :: r =>
    setRest r
    match ← upcoming with
    | c :: r' =>
      if c.isAlphanum || c == '_' then
        let name ← nameOf c
        if ← accept '\x7d' then return .parameter name .length []
        bad mode
      else if c == '\x7d' then finish ['#']
      else
        setRest r'
        if ← accept '\x7d' then
          if isSpecial c then return .parameter [c] .length []
          return ← bad mode
        setRest (c :: (← rest))
        finish ['#']
    | [] => finish ['#']
  | c :: r =>
    if isNameStart c || c.isDigit then finish (← nameOf c)
    else if isSpecial c then
      setRest r
      finish [c]
    else
      setRest r
      bad mode

/-- The text between back quotes, with its escapes undone, and what follows. -/
def splitBackquoted (quoted : Bool) : Chars → Chars → Option (Chars × Chars)
  | _, [] => none
  | done, '\x60' :: r => some (done.reverse, r)
  | done, '\\' :: '\n' :: r => splitBackquoted quoted done r
  | done, '\\' :: c :: r =>
    if c == '\x60' || c == '\\' || c == '$' || (quoted && c == '"') then
      splitBackquoted quoted (c :: done) r
    else splitBackquoted quoted (c :: '\\' :: done) r
  | done, c :: r => splitBackquoted quoted (c :: done) r

/-- Whether the line that comes next ends a text in the script; if so, what follows it. -/
def documentEnd? (d : PendingDocument) (text : Chars) : Option Chars :=
  match Text.dropPrefix? d.delimiter text with
  | some [] => some []
  | some ('\n' :: r) => some r
  | _ => none

/-- The pieces of a text in the script up to the line that ends it. -/
def documentPieces (g : Readers) (d : PendingDocument) :
    Nat → Bool → List (List Piece) → Reader (List Piece)
  | 0, _, _ => refuse "script too long"
  | n + 1, atStart, done => do
    let text ← rest
    let text := if atStart && d.dropTabs then text.dropWhile (· == '\t') else text
    setRest text
    match if atStart then documentEnd? d text else none with
    | some after =>
      modify fun c => { c with rest := after, line := c.line + 1 }
      return done.reverse.flatten
    | none =>
      match text with
      | [] => return done.reverse.flatten
      | '\n' :: r =>
        modify fun c => { c with rest := r, line := c.line + 1 }
        documentPieces g d n true ([.chars ['\n'] true] :: done)
      | c :: r =>
        if d.literal then
          setRest r
          documentPieces g d n false ([.chars [c] true] :: done)
        else if c == '\\' && r.head? == some '\n' then
          modify fun c => { c with rest := r.tail, line := c.line + 1 }
          documentPieces g d n false done
        else documentPieces g d n false ((← g.word .document) :: done)

/-- A piece in front of others; characters of one kind become one piece. -/
def joinPiece (others : List Piece) (piece : Piece) : List Piece :=
  match piece, others with
  | .chars text quoted, .chars more quoted' :: rest =>
    if quoted == quoted' then .chars (text ++ more) quoted :: rest else piece :: others
  | _, _ => piece :: others

/-- Adjacent characters of one kind as one piece. -/
def joinPieces (pieces : List Piece) : List Piece := pieces.reverse.foldl joinPiece []

/-- Reads the texts announced on the line that has ended. -/
def readDocuments (g : Readers) : Reader Unit := do
  let pending := (← get).pending
  modify fun c => { c with pending := [] }
  for d in pending do
    let pieces ← documentPieces g d patience true []
    modify fun c => { c with documents := (d.number, joinPieces pieces) :: c.documents }

/-- Reads another text with the same readers and comes back. -/
def within {α : Type} (text : Chars) (read : Reader α) : Reader α := do
  let c ← get
  set { c with rest := text, line := 1, pending := [], pushed := false }
  let a ← read
  modify fun c' =>
    { c' with rest := c.rest, line := c.line, pending := c.pending, pushed := false }
  return a

/-- A command in a word, behind the opening bracket. Texts announced on its last line are empty. -/
def readCommand (g : Readers) (nextToken : Reader Token) : Reader Piece := do
  let pending := (← get).pending
  modify fun c => { c with pending := [], pushed := false }
  let body ← g.list true
  let token ← nextToken
  unless token = .closeBracket do
    refuse (token.name ++ " unexpected (expecting \")\")")
  let c ← get
  set { c with rest := [] }
  readDocuments g
  modify fun c' => { c' with rest := c.rest, line := c.line, pending := pending, pushed := false }
  return .command body

/-- What follows a dollar sign. -/
def readDollar (g : Readers) (nextToken : Reader Token) (mode : WordMode) : Reader Piece := do
  match ← upcoming with
  | '(' :: r =>
    setRest r
    if ← accept '(' then return .arithmetic (← g.word .arithmetic)
    readCommand g nextToken
  | '\x7b' :: r => setRest r; readBraced g mode
  | c :: r =>
    if isNameStart c then return .parameter (← takeWhile isNameChar) .value []
    else if isSpecial c then
      setRest r
      return .parameter [c] .value []
    else return .chars ['$'] mode.isQuoted
  | [] => return .chars ['$'] mode.isQuoted

/-- What follows a backslash. -/
def readBackslash (mode : WordMode) : Reader (List Piece) := do
  match ← rest with
  | [] => return [.chars ['\\'] true]
  | c :: r =>
    setRest r
    let special : Bool := match mode with
      | .quoted | .arithmetic => "$\x60\"\\".toList.contains c
      | .document => "$\x60\\".toList.contains c
      | .brace true _ => "$\x60\"\\\x7d".toList.contains c
      | _ => true
    return [.chars (if special then [c] else ['\\', c]) true]

/-- What stands between single quotes, behind the first one. -/
def readSingleQuoted : Reader (List Piece) := do
  let r ← rest
  match Text.splitAt? ['\''] r with
  | none =>
    countLines r
    refuse "Unterminated quoted string"
  | some (text, after) =>
    setRest after
    countLines text
    return [.mark, .chars text true, .mark]

/-- What stands between double quotes, behind the first one. -/
def readDoubleQuoted (g : Readers) : Reader (List Piece) := do
  let inner ← g.word .quoted
  unless ← accept '"' do refuse "Unterminated quoted string"
  return .mark :: inner ++ [.mark]

/-- The next pieces of a word and whether they are the last ones; none where the word ends. The
number says how many brackets are open. -/
def readPieces (g : Readers) (nextToken : Reader Token) (mode : WordMode) (depth : Nat) :
    Reader (Option (List Piece × Nat)) := do
  let plain (c : Char) (r : Chars) : Reader (Option (List Piece × Nat)) := do
    setRest r
    if c == '\n' then countLines [c]
    return some ([.chars [c] mode.isQuoted], depth)
  let some' (pieces : List Piece) : Reader (Option (List Piece × Nat)) :=
    return some (pieces, depth)
  match ← upcoming with
  | [] =>
    match mode with
    | .brace quoted inDocument =>
      refuse (if quoted && !inDocument then "Unterminated quoted string" else "Missing '\x7d'")
    | .quoted => refuse "Unterminated quoted string"
    | .arithmetic => refuse "Missing '))'"
    | _ => return none
  | '$' :: r =>
    if mode = .delimiter then return ← plain '$' r
    setRest r
    some' [← readDollar g nextToken mode]
  | '\x60' :: r =>
    if mode = .delimiter then return ← plain '\x60' r
    match splitBackquoted mode.isQuoted [] r with
    | none =>
      countLines r
      refuse "EOF in backquote substitution"
    | some (text, after) =>
      setRest after
      countLines (r.take (r.length - after.length))
      let body ← within text do
        let body ← g.list true
        readDocuments g
        return body
      some' [.command body]
  | '\\' :: r =>
    setRest r
    some' (← readBackslash mode)
  | '\'' :: r =>
    if mode.isQuoted then return ← plain '\'' r
    setRest r
    some' (← readSingleQuoted)
  | '"' :: r =>
    match mode with
    | .quoted => return none
    | .document | .arithmetic => plain '"' r
    | _ =>
      setRest r
      some' (← readDoubleQuoted g)
  | '(' :: r =>
    if mode = .arithmetic then
      setRest r
      return some ([.chars ['('] true], depth + 1)
    if mode = .bare || mode = .delimiter then return none
    plain '(' r
  | ')' :: r =>
    if mode = .arithmetic then
      setRest r
      if 0 < depth then return some ([.chars [')'] true], depth - 1)
      if ← accept ')' then return none
      return some ([.chars [')'] true], depth)
    if mode = .bare || mode = .delimiter then return none
    plain ')' r
  | c :: r =>
    match mode with
    | .bare | .delimiter => if isOperator c then return none
    | .brace .. => if c == '\x7d' then return none
    | _ => pure ()
    plain c r

/-- The pieces of a word up to its end. -/
def readWordFrom (g : Readers) (nextToken : Reader Token) (mode : WordMode) :
    Nat → Nat → List (List Piece) → Reader (List Piece)
  | 0, _, _ => refuse "script too long"
  | n + 1, depth, done => do
    match ← readPieces g nextToken mode depth with
    | none => return done.reverse.flatten
    | some (pieces, depth) => readWordFrom g nextToken mode n depth (pieces :: done)

/-- A word, or one piece of a text in the script. -/
def readWord (g : Readers) (nextToken : Reader Token) (mode : WordMode) : Reader (List Piece) := do
  if mode = .document then
    return ((← readPieces g nextToken mode 0).map Prod.fst).getD []
  return joinPieces (← readWordFrom g nextToken mode patience 0 [])

/-- The text of a word if it has no quotes and nothing that is expanded. -/
def plainText? : List Piece → Option Chars
  | [] => some []
  | .chars text false :: more => (plainText? more).map fun after => text ++ after
  | _ => none

/-- The text of a word without its quotes. -/
def literalText (word : List Piece) : Chars :=
  word.flatMap fun
    | .chars text _ => text
    | _ => []

/-- Whether a part of a word is quoted. -/
def hasQuotes (word : List Piece) : Bool :=
  word.any fun
    | .chars _ quoted => quoted
    | .mark => true
    | _ => false

/-- Skips blanks and a comment. -/
def skipSpaces : Reader Unit := do
  let step : Reader (Option Unit) := do
    match ← upcoming with
    | ' ' :: r | '\t' :: r => setRest r; return some ()
    | '#' :: r => setRest (r.dropWhile (· != '\n')); return some ()
    | _ => return none
  discard (repeated step)

/-- The operator of a redirection: which descriptor it is about, and how. -/
def readRedirection (digits : Chars) : Reader Token := do
  let kind ← if ← accept '>' then
      if ← accept '>' then pure (1, RedirectKind.append)
      else if ← accept '|' then pure (1, .overwrite)
      else if ← accept '&' then pure (1, .duplicate)
      else pure (1, .output)
    else do
      discard (accept '<')
      if ← accept '<' then pure (0, .document 0)
      else if ← accept '&' then pure (0, .duplicate)
      else if ← accept '>' then pure (0, .both)
      else pure (0, .input)
  let descriptor := match digits with
    | c :: _ => c.toNat - 48
    | [] => kind.1
  modify fun c => { c with redirect := (descriptor, kind.2) }
  return .redirection

/-- The next token; words are read as `mode` says. -/
def scanToken (g : Readers) (mode : WordMode) : Reader Token := do
  skipSpaces
  let operator (r : Chars) (next : Char) (double single : Token) : Reader Token := do
    setRest r
    return if ← accept next then double else single
  match ← upcoming with
  | [] => return .endOfText
  | '\n' :: r =>
    setRest r
    countLines ['\n']
    return .newline
  | '&' :: r => operator r '&' .both .background
  | '|' :: r => operator r '|' .either .bar
  | ';' :: r => operator r ';' .branchEnd .semicolon
  | '(' :: r => setRest r; return .openBracket
  | ')' :: r => setRest r; return .closeBracket
  | _ =>
    let word ← g.word mode
    let digits := match word with
      | [] => some []
      | [.chars [c] false] => if c.isDigit then some [c] else none
      | _ => none
    match digits, ← rest with
    | some digits, '<' :: _ | some digits, '>' :: _ => readRedirection digits
    | _, _ =>
      modify fun c => { c with word := word, quoted := hasQuotes word }
      return .word

/-- What is to be noticed in the next token. -/
structure Notice where
  newlines : Bool
  keywords : Bool
  aliases : Bool

/-- Takes note of the words whose text has been read, and tells whether the text of one of them
asked for the next word to be looked up as well. -/
def leaveAliases (length : Nat) : Reader Bool := do
  let c ← get
  let isOver (a : Chars × Nat) : Bool := length ≤ a.2
  let goesOn (a : Chars × Nat) : Bool :=
    match ((c.aliases.lookup a.1).getD []).getLast? with
    | some ' ' | some '\t' => true
    | _ => false
  set { c with reading := c.reading.filter fun a => !(isOver a && goesOn a) }
  return c.reading.any fun a => isOver a && goesOn a

/-- The token that comes next. -/
def nextTokenFrom (g : Readers) (mode : WordMode) (notice : Notice) : Nat → Reader Token
  | 0 => refuse "script too long"
  | n + 1 => do
    let c ← get
    let mut token := c.last
    let mut looksUp := notice.aliases
    if c.pushed then set { c with pushed := false }
    else
      skipSpaces
      looksUp := (← leaveAliases (← rest).length) || looksUp
      token ← scanToken g mode
    modify fun c => { c with last := token }
    if notice.newlines && token = .newline then
      readDocuments g
      return ← nextTokenFrom g mode notice n
    let c ← get
    if token ≠ .word || c.quoted then return token
    match plainText? c.word with
    | none => return .word
    | some text =>
      match if notice.keywords then Keyword.ofChars? text else none with
      | some k =>
        set { c with last := .keyword k }
        return .keyword k
      | none =>
        let length := c.rest.length
        let reading := c.reading.filter fun a => a.2 ≤ length
        match if looksUp && (reading.lookup text).isNone then c.aliases.lookup text else none with
        | some value =>
          set { c with rest := value ++ c.rest, reading := (text, length) :: reading }
          nextTokenFrom g mode { notice with aliases := looksUp } n
        | none =>
          set { c with reading := reading }
          return .word

/-- The token that comes next, with what is to be noticed in it. -/
def nextToken (g : Readers) (notice : Notice) : Reader Token := nextTokenFrom g .bare notice patience

/-- Nothing to notice: reserved words are ordinary ones. -/
def Notice.none : Notice := ⟨false, false, false⟩

/-- Reserved words and other names for texts are noticed. -/
def Notice.command : Notice := ⟨false, true, true⟩

/-- So are line ends, which are skipped. -/
def Notice.behindLines : Notice := ⟨true, true, true⟩

/-- The last token is read again. -/
def pushBack : Reader Unit := modify fun c => { c with pushed := true }

end SimWorkbench.Shell
