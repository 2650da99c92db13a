import SimWorkbench.Cache.Record
import SimWorkbench.Decimal.Literal
import SimWorkbench.Json.Reader

/-!
# The index document

The cache is kept between sessions in a JSON document. The writer has one form; the reader takes
any document of the schema: members in any order, unknown members ignored, a record also as an
array of its values in order.
-/
namespace SimWorkbench

/-- What the index document holds. -/
structure Index where
  environment : String
  entries : List Descriptor
  misses : List Miss
  deriving DecidableEq, Repr, Inhabited

namespace Index

/-- The number of the format. -/
def version : Nat := 1

/-- Lines of a document, each with the depth of its indentation. -/
def indent (depth : Nat) (text : List Char) : List Char := List.replicate (2 * depth) ' ' ++ text

/-- A member of an object on a line of its own. -/
def member (depth : Nat) (name : String) (value : List Char) : List Char :=
  indent depth (Json.quote name.toList ++ ": ".toList ++ value)

/-- Items between brackets, one on a line; brackets alone if there are none. -/
def block (depth : Nat) (opening closing : Char) (items : List (List Char)) : List Char :=
  if items.isEmpty then [opening, closing]
  else
    [opening, '\n'] ++ [',', '\n'].intercalate items ++ ['\n'] ++ indent depth [closing]

/-- A text as a value of the document. -/
def textValue (text : String) : List Char := Json.quote text.toList

def writeDescriptor (d : Descriptor) : List Char :=
  indent 2 (block 2 '\x7b' '\x7d'
    [member 3 "xml" (textValue d.source.text), member 3 "class" (textValue d.artifact.text),
     member 3 "package" (textValue d.package), member 3 "digest" (textValue d.fingerprint.hex)])

def writeMiss (m : Miss) : List Char :=
  indent 2 (block 2 '\x7b' '\x7d'
    [member 3 "file" (textValue m.source.text), member 3 "digest" (textValue m.fingerprint.hex)])

/-- The document of an index. -/
def write (i : Index) : List Char :=
  block 0 '\x7b' '\x7d'
    [member 1 "version" (toString version).toList, member 1 "environment" (textValue i.environment),
     member 1 "entries" (block 1 '[' ']' (i.entries.map writeDescriptor)),
     member 1 "misses" (block 1 '[' ']' (i.misses.map writeMiss))]

/-- The values of the named fields of a record, in order: of an object whose keys all have texts
and repeat none of the names, or of an array that is no longer than the list of names. A field
that is left out has no value. -/
def fields? (names : List String) : Json.Value → Option (List (Option Json.Value))
  | .object members => do
    let keys ← members.mapM Prod.fst
    let named := keys.filter fun k => names.contains (String.ofList k)
    if named.eraseDups.length = named.length then
      some (names.map fun n => (members.find? fun m => m.1 == some n.toList).map Prod.snd)
    else none
  | .array elements =>
    if elements.length ≤ names.length then
      some ((elements.map some) ++ List.replicate (names.length - elements.length) none)
    else none
  | _ => none

def text? : Json.Value → Option String
  | .string (some text) => some (String.ofList text)
  | _ => none

def readDescriptor? (v : Json.Value) : Option Descriptor := do
  match ← fields? ["xml", "class", "package", "digest"] v with
  | [some xml, some cls, some package, some digest] =>
    return ⟨⟨← text? xml⟩, ⟨← text? cls⟩, ← text? package, ⟨← text? digest⟩⟩
  | _ => none

def readMiss? (v : Json.Value) : Option Miss := do
  match ← fields? ["file", "digest"] v with
  | [some file, some digest] => return ⟨⟨← text? file⟩, ⟨← text? digest⟩⟩
  | _ => none

/-- A list of records; an absent one is empty. -/
def records? {α : Type} (read : Json.Value → Option α) : Option Json.Value → Option (List α)
  | none => some []
  | some (.array elements) => elements.mapM read
  | some _ => none

/-- Whether a number is the format's own. -/
def isVersion : Json.Value → Bool
  | .number literal => literal == (toString version).toList
  | _ => false

/-- The index that a document of the current format holds. -/
def ofJson? (v : Json.Value) : Option Index := do
  match ← fields? ["version", "environment", "entries", "misses"] v with
  | [some v, some environment, entries, misses] =>
    if isVersion v then
      return ⟨← text? environment, ← records? readDescriptor? entries, ← records? readMiss? misses⟩
    else none
  | _ => none

/-- The index in a document; none if the text is no document of the current format. -/
def read? (text : List Char) : Option Index := (Json.read? text).bind ofJson?

/-- The index in the file `path`, if there is a good one. -/
def load? (files : FileTree) (here : Location) (path : Path) : Option Index :=
  match files.readText here path with
  | .ok text => read? text.toList
  | .error _ => none

end Index
end SimWorkbench
