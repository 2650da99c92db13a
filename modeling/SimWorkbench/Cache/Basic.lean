import SimWorkbench.Cache.Index
import SimWorkbench.FileTree.Effect
import SimWorkbench.Keyed

/-!
# The cache

The cache knows executables by the models they were built from and models that did not compile.
Every operation changes the lists in memory and saves them as the index document: first to a
temporary file, which then takes the index's name. An operation is a transaction that tells which
file effects precede the change in memory and which follow it.
-/
namespace SimWorkbench

/-- The cache of one project. -/
structure Cache where
  indexPath : Path
  /-- What the entries were built with. -/
  environment : String
  /-- In the order of their sources, one for each. -/
  entries : List Descriptor
  /-- In the order of their sources, one for each. -/
  misses : List Miss
  deriving DecidableEq, Repr, Inhabited

namespace Cache

/-- The key under which the cache knows a source. -/
def key (here : Location) (source : Path) : List (List Nat) :=
  (source.normalised here.path).sortKey

def entry? (c : Cache) (here : Location) (source : Path) : Option Descriptor :=
  Keyed.get? Descriptor.key (key here source) c.entries

def miss? (c : Cache) (here : Location) (source : Path) : Option Miss :=
  Keyed.get? Miss.key (key here source) c.misses

/-- The document that keeps the cache. -/
def index (c : Cache) : Index := ⟨c.environment, c.entries, c.misses⟩

/-- The name under which the document is written before it takes the index's name. -/
def temporary (c : Cache) : Path := ⟨c.indexPath.text ++ ".tmp"⟩

/-- The effects that save the cache. Paths are texts, so that there is a document of every cache. -/
def saving (c : Cache) : List Effect :=
  (c.indexPath.parent?.toList.map Effect.makeDirs) ++
    [.write c.temporary (Bytes.ofChars c.index.write), .rename c.temporary c.indexPath]

/-- A change of the cache: `before` happens while the old lists are in force, `after` with the new
ones. -/
structure Transaction where
  before : List Effect
  cache : Cache
  after : List Effect

/-- The files, the cache and the refusal when a transaction has ended. A refusal before the change
leaves the old cache; a later one leaves the new one. -/
def Transaction.run (x : Transaction) (old : Cache) (files : FileTree) (here : Location) :
    FileTree × Cache × Option FileFault :=
  match Effect.performAll files here x.before with
  | (files, some fault) => (files, old, some fault)
  | (files, none) =>
    let (files, fault) := Effect.performAll files here x.after
    (files, x.cache, fault)

/-- The cache without the entry for `source`; its executable goes first. -/
def removal (c : Cache) (here : Location) (entry : Descriptor) (source : Path) : Transaction :=
  let c' := { c with entries := Keyed.drop Descriptor.key (key here source) c.entries }
  ⟨[], c', .discard entry.artifact :: c'.saving⟩

/-- The empty cache; all executables go first. -/
def clearing (c : Cache) : Transaction :=
  let c' := { c with entries := [], misses := [] }
  ⟨c.entries.map fun d => .discard d.artifact, c', c'.saving⟩

/-- Whether the files of a descriptor are no longer those it was stored for. -/
def outdated (digest : Digest) (files : FileTree) (here : Location) (d : Descriptor) : Bool :=
  Fingerprint.now digest files here [d.source, d.artifact] ≠ d.fingerprint

/-- Whether `source` has an entry that is out of date. -/
def isStale (digest : Digest) (c : Cache) (files : FileTree) (here : Location) (source : Path) :
    Bool :=
  ((c.entry? here source).map (outdated digest files here)).getD false

/-- Whether `source` did not compile in the state it has now. -/
def isMiss (digest : Digest) (c : Cache) (files : FileTree) (here : Location) (source : Path) :
    Bool :=
  match c.miss? here source with
  | none => false
  | some m => m.fingerprint = Fingerprint.now digest files here [source.normalised here.path]

/-- The files and the cache after an operation, with its answer. -/
structure Answered (α : Type) where
  files : FileTree
  cache : Cache
  answer : α

/-- The entry for `source` if its files are those it was stored for. An entry that is out of date
is removed with its executable; a refusal on the way is not reported. -/
def lookup (digest : Digest) (c : Cache) (files : FileTree) (here : Location) (source : Path) :
    Answered (Option Descriptor) :=
  match c.entry? here source with
  | none => ⟨files, c, none⟩
  | some d =>
    if outdated digest files here d then
      let (files, c', _) := (c.removal here d source).run c files here
      ⟨files, c', none⟩
    else ⟨files, c, some d⟩

/-- What a transaction answers: its value, or the refusal. -/
def Transaction.answer {α : Type} (x : Transaction) (old : Cache) (files : FileTree)
    (here : Location) (value : α) : Answered (Except FileFault α) :=
  match x.run old files here with
  | (files, c, none) => ⟨files, c, .ok value⟩
  | (files, c, some fault) => ⟨files, c, .error fault⟩

/-- Remembers the executable built from `source`; a miss of it is forgotten. -/
def store (digest : Digest) (c : Cache) (files : FileTree) (here : Location)
    (source artifact : Path) (package : String) : Answered (Except FileFault Descriptor) :=
  let source' := source.normalised here.path
  let artifact' := artifact.normalised here.path
  let d : Descriptor :=
    ⟨source', artifact', package, Fingerprint.now digest files here [source', artifact']⟩
  let c' := { c with
    entries := Keyed.put Descriptor.key d c.entries
    misses := Keyed.drop Miss.key d.key c.misses }
  Transaction.answer ⟨[], c', c'.saving⟩ c files here d

/-- Remembers that `source` did not compile as it is now. -/
def recordMiss (digest : Digest) (c : Cache) (files : FileTree) (here : Location)
    (source : Path) : Answered (Except FileFault Miss) :=
  let source' := source.normalised here.path
  let m : Miss := ⟨source', Fingerprint.now digest files here [source']⟩
  let c' := { c with misses := Keyed.put Miss.key m c.misses }
  Transaction.answer ⟨[], c', c'.saving⟩ c files here m

/-- Forgets all about `source` and removes its executable; says whether there was anything. -/
def invalidate (c : Cache) (files : FileTree) (here : Location) (source : Path) :
    Answered (Except FileFault Bool) :=
  let c' := { c with misses := Keyed.drop Miss.key (key here source) c.misses }
  match c.entry? here source with
  | some d => (c'.removal here d source).answer c' files here true
  | none =>
    if (c.miss? here source).isSome then Transaction.answer ⟨[], c', c'.saving⟩ c files here true
    else ⟨files, c, .ok false⟩

/-- Forgets everything and removes the executables; says how many there were. -/
def clear (c : Cache) (files : FileTree) (here : Location) : Answered (Except FileFault Nat) :=
  c.clearing.answer c files here c.entries.length

/-- The cache that an index describes; the last record of a source counts. -/
def ofIndex (indexPath : Path) (environment : String) (i : Index) : Cache :=
  ⟨indexPath, environment, Keyed.ofList Descriptor.key i.entries, Keyed.ofList Miss.key i.misses⟩

/-- Opens the cache kept at `indexPath`. Without a good index it is empty. An index from another
environment is emptied, and its executables are removed. -/
def openAt (files : FileTree) (here : Location) (indexPath : Path) (environment : String) :
    FileTree × Except FileFault Cache :=
  match Index.load? files here indexPath with
  | none => (files, .ok ⟨indexPath, environment, [], []⟩)
  | some i =>
    let c := ofIndex indexPath environment i
    if i.environment = environment then (files, .ok c)
    else
      match c.clear files here with
      | ⟨files, c', .ok _⟩ => (files, .ok c')
      | ⟨files, _, .error fault⟩ => (files, .error fault)

/-- The text of a refusal. -/
def faultMessage (fault : FileFault) : String :=
  "cache I/O error on " ++ fault.path.text ++ ": " ++ fault.cause.message

end Cache
end SimWorkbench
