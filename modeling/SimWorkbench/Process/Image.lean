import SimWorkbench.Shell.State

/-!
# What executing a file means

A file that may be executed is a tool of the system, or its first line names a program and perhaps
one argument for it. That program is executed instead, with the argument and the path of the file in
front of the other words. Only the first 256 bytes of a file are looked at.

Scripts stand for programs of every kind, and a file in another format is refused. What is proved of
runs is not proved for scripts but for programs that act in any way at any time (`Conversation.Step`,
`Hearing.Reaches`, `ProcessArtifact.Turn`).
-/
namespace SimWorkbench

open Shell

/-- A tool and the words it is called with; the first one is the name that it goes by. -/
structure Image where
  tool : String
  words : List Chars
  deriving DecidableEq, Repr

namespace Image

/-- How much of a file is looked at. -/
def headSize : Nat := 256

/-- How many files may be executed for each other. -/
def maxFiles : Nat := 6

def isGap (c : Char) : Bool := c == ' ' || c == '\t'

/-- The program that a line names, and the argument for it. The name ends at a gap or at a NUL
character, behind which there is no argument. -/
def programOf (line : Chars) : Chars × Option Chars :=
  let name := line.takeWhile fun c => !(isGap c || c == '\x00')
  let rest := line.drop name.length
  let argument := (rest.dropWhile isGap).takeWhile (· ≠ '\x00')
  (name, if (rest.head?.map isGap).getD false && !argument.isEmpty then some argument else none)

/-- The program that a file names in its first line; none if there is no such line. A line without
an end must hold the whole name. -/
def interpreter? (content : Bytes) : Option (Chars × Option Chars) :=
  let head := ofBytes (content.take headSize)
  let padded := head ++ List.replicate (headSize - head.length) '\x00'
  match padded with
  | '#' :: '!' :: rest =>
    if rest.contains '\n' then
      let line := rest.takeWhile (· ≠ '\n')
      let trimmed := ((line.reverse.dropWhile isGap).reverse).dropWhile isGap
      if trimmed.isEmpty then none else some (programOf trimmed)
    else
      let body := rest.dropWhile isGap
      let isWhole := body.any fun c => isGap c || c == '\x00'
      if body.isEmpty || !isWhole then none
      else some (programOf ((rest.dropLast.reverse.dropWhile isGap).reverse.dropWhile isGap))
  | _ => none

/-- What executing a path with some words means. The number bounds how many files are executed for
each other. -/
def loadFrom (files : FileTree) (here : Location) :
    Nat → Chars → List Chars → Except OsError Image
  | 0, _, _ => .error .loop
  | n + 1, path, words => do
    -- An empty name in the line of a script is the current directory.
    match ← if path.isEmpty then .ok ([], .directory) else files.locate here (toPath path) with
    | (_, .tool name) => return ⟨name, words⟩
    | (_, .file content mode) =>
      if !mode.isExecutable then throw .permissionDenied
      match interpreter? content with
      | none => throw .notExecutable
      | some (name, argument) =>
        loadFrom files here n name (name :: argument.toList ++ path :: words.tail)
    | _ => throw .permissionDenied

/-- What executing a path with some words means. -/
def load (files : FileTree) (here : Location) (path : Chars) (words : List Chars) :
    Except OsError Image :=
  if path.isEmpty then .error .notFound else loadFrom files here maxFiles path words

end Image
end SimWorkbench
