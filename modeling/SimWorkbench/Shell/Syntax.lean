/-!
# Syntax of the command language

Programs are often scripts of the POSIX command language. A script is text of bytes, each held as
the character with that number. Words are made of pieces, some of which are expanded; commands are
trees.
-/
namespace SimWorkbench.Shell

/-- Bytes as characters, one for each. -/
abbrev Chars := List Char

/-- What is taken from a parameter. -/
inductive ParameterUse where
  | value
  | length
  /-- Another word if the parameter is unset, or also if it is empty. -/
  | default (alsoEmpty : Bool)
  /-- The same, and the parameter is set to it. -/
  | assign (alsoEmpty : Bool)
  /-- The script ends with a message if the parameter is unset, or also if it is empty. -/
  | demand (alsoEmpty : Bool)
  /-- Another word if the parameter is set. -/
  | alternative (alsoEmpty : Bool)
  /-- The value without the shortest or longest part at its end that matches a pattern. -/
  | dropEnd (longest : Bool)
  /-- The value without the shortest or longest part at its front that matches a pattern. -/
  | dropFront (longest : Bool)
  /-- What no rule allows; it is found out when it is expanded. -/
  | malformed
  deriving DecidableEq, Repr

/-- How a stream is made to lead elsewhere. -/
inductive RedirectKind where
  | input
  /-- A file is emptied, unless the script protects its files. -/
  | output
  /-- A file is emptied in any case. -/
  | overwrite
  | append
  /-- A file is read and written. -/
  | both
  /-- What another descriptor leads to. -/
  | duplicate
  /-- A text in the script itself, known by its number. -/
  | document (number : Nat)
  deriving DecidableEq, Repr

mutual

/-- A piece of a word. -/
inductive Piece where
  | chars (text : Chars) (quoted : Bool)
  /-- A quotation mark; what stands between two of them is quoted. -/
  | mark
  | parameter (name : Chars) (use : ParameterUse) (word : List Piece)
  | command (body : Option Tree)
  | arithmetic (word : List Piece)

/-- A descriptor that is made to lead elsewhere. -/
inductive Redirect where
  | mk (descriptor : Nat) (kind : RedirectKind) (word : List Piece)

/-- A command. Commands know the line they begin in. -/
inductive Tree where
  | simple (assignments : List (Chars × List Piece)) (words : List (List Piece))
      (redirects : List Redirect) (line : Nat)
  | pipeline (parts : List Tree) (background : Bool)
  | negation (body : Tree)
  | both (first second : Tree)
  | either (first second : Tree)
  | sequence (first second : Tree)
  | conditional (condition body : Tree) (otherwise : Option Tree)
  | loop (whileTrue : Bool) (condition body : Tree)
  | each (name : Chars) (words : List (List Piece)) (body : Tree) (line : Nat)
  | choice (word : List Piece) (branches : List (List (List Piece) × Option Tree)) (line : Nat)
  | subshell (body : Tree) (redirects : List Redirect) (background : Bool) (line : Nat)
  | define (name : Chars) (body : Tree)
  | redirected (body : Tree) (redirects : List Redirect) (line : Nat)

end

instance : Inhabited Tree := ⟨.simple [] [] [] 0⟩

def Redirect.descriptor : Redirect → Nat
  | mk n _ _ => n

def Redirect.kind : Redirect → RedirectKind
  | mk _ kind _ => kind

def Redirect.word : Redirect → List Piece
  | mk _ _ word => word

end SimWorkbench.Shell
