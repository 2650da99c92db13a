import SimWorkbench.Proofs.Cache.Saving

/-!
# The cache as two finite maps

A ledger is two finite maps from sources to their records. It answers every request from the maps
and from the files as they are, and never saves or loads anything. Over any run of requests, between
which other programs change files and the cache may be dropped and opened again, the cache answers
what the ledger answers and deletes the files that the ledger wants deleted.
-/
namespace SimWorkbench.Cache

open Keyed

/-- What the cache can be asked. -/
inductive Request where
  | lookup (source : Path)
  | isStale (source : Path)
  | store (source artifact : Path) (package : String)
  | recordMiss (source : Path)
  | isMiss (source : Path)
  | invalidate (source : Path)
  | clear
  /-- The records of the cache in their order. -/
  | list
  deriving DecidableEq, Repr

/-- What the cache answers. -/
inductive Answer where
  | found (entry : Option Descriptor)
  | truth (value : Bool)
  | stored (entry : Descriptor)
  | missed (record : Miss)
  | count (n : Nat)
  | listed (entries : List Descriptor) (misses : List Miss)
  | refused (fault : FileFault)
  deriving DecidableEq, Repr

/-- Whether a request was refused. -/
def Answer.isRefused : Answer → Bool
  | refused _ => true
  | _ => false

variable (digest : Digest) (here : Location)

/-- The answer of an operation that may be refused. -/
def settle {α : Type} (answer : α → Answer) (a : Answered (Except FileFault α)) : Answered Answer :=
  ⟨a.files, a.cache,
    match a.answer with
    | .ok value => answer value
    | .error fault => .refused fault⟩

/-- What the cache does with a request. -/
def serve (files : FileTree) (c : Cache) : Request → Answered Answer
  | .lookup source =>
    let done := c.lookup digest files here source
    ⟨done.files, done.cache, .found done.answer⟩
  | .isStale source => ⟨files, c, .truth (c.isStale digest files here source)⟩
  | .store source artifact package =>
    settle .stored (c.store digest files here source artifact package)
  | .recordMiss source => settle .missed (c.recordMiss digest files here source)
  | .isMiss source => ⟨files, c, .truth (c.isMiss digest files here source)⟩
  | .invalidate source => settle .truth (c.invalidate files here source)
  | .clear => settle .count (c.clear files here)
  | .list => ⟨files, c, .listed c.entries c.misses⟩

/-- Two finite maps from sources to their records. -/
structure Ledger where
  entries : PathMap Descriptor
  misses : PathMap Miss

/-- The ledger after a request, its answer, and the executables it wants deleted. -/
structure Reply where
  ledger : Ledger
  answer : Answer
  discarded : List Path

namespace Ledger

def empty : Ledger := ⟨∅, ∅⟩

/-- What a ledger does with a request, seeing the files as they are. -/
def reply (files : FileTree) (g : Ledger) : Request → Reply
  | .lookup source =>
    match g.entries.lookup (key here source) with
    | none => ⟨g, .found none, []⟩
    | some d =>
      if outdated digest files here d then
        ⟨{ g with entries := g.entries.erase (key here source) }, .found none, [d.artifact]⟩
      else ⟨g, .found (some d), []⟩
  | .isStale source =>
    ⟨g, .truth (((g.entries.lookup (key here source)).map (outdated digest files here)).getD false),
      []⟩
  | .store source artifact package =>
    let source' := source.normalised here.path
    let artifact' := artifact.normalised here.path
    let d : Descriptor :=
      ⟨source', artifact', package, Fingerprint.now digest files here [source', artifact']⟩
    ⟨⟨g.entries.insert (key here source) d, g.misses.erase (key here source)⟩, .stored d, []⟩
  | .recordMiss source =>
    let source' := source.normalised here.path
    let m : Miss := ⟨source', Fingerprint.now digest files here [source']⟩
    ⟨{ g with misses := g.misses.insert (key here source) m }, .missed m, []⟩
  | .isMiss source =>
    ⟨g, .truth (match g.misses.lookup (key here source) with
      | none => false
      | some m => m.fingerprint = Fingerprint.now digest files here [source.normalised here.path]), []⟩
  | .invalidate source =>
    ⟨⟨g.entries.erase (key here source), g.misses.erase (key here source)⟩,
      .truth ((g.entries.lookup (key here source)).isSome ||
        (g.misses.lookup (key here source)).isSome),
      ((g.entries.lookup (key here source)).map Descriptor.artifact).toList⟩
  | .clear => ⟨.empty, .count g.entries.keys.card, (listing g.entries).map Descriptor.artifact⟩
  | .list => ⟨g, .listed (listing g.entries) (listing g.misses), []⟩

end Ledger

/-- Whether a request meets no refusal. A lookup would not report one. -/
def Untroubled (files : FileTree) (c : Cache) : Request → Prop
  | .lookup source => ∀ d, c.entry? here source = some d → outdated digest files here d = true →
      ((c.removal here d source).run c files here).2.2 = none
  | request => (serve digest here files c request).answer.isRefused = false

/-- Whether a location is neither the index nor the name under which it is written first. -/
def Elsewhere (indexPath : Path) (l : Location) : Prop :=
  l ≠ indexPath.location here ∧ l ≠ (Path.mk (indexPath.text ++ ".tmp")).location here

/-- Whether no device stands where the document is written before it takes the index's name; one
would swallow it. -/
def Writable (indexPath : Path) (files : FileTree) : Prop :=
  ∀ d, files.get? ((Path.mk (indexPath.text ++ ".tmp")).location here) ≠ some (.device d)

/-- Whether a cache is a ledger, and whether its index would give it back. -/
structure Tracks (indexPath : Path) (environment : String) (files : FileTree) (c : Cache)
    (g : Ledger) : Prop where
  path : c.indexPath = indexPath
  built : c.environment = environment
  entries : Represents Descriptor.key c.entries g.entries
  misses : Represents Miss.key c.misses g.misses
  saved : Index.load? files here indexPath = some c.index ∨
    Index.load? files here indexPath = none ∧ c = ⟨indexPath, environment, [], []⟩

/-- Whether the cache did with a request what the ledger wanted. -/
structure Agrees (indexPath : Path) (environment : String) (files : FileTree)
    (done : Answered Answer) (wanted : Reply) : Prop where
  answer : done.answer = wanted.answer
  tracks : Tracks here indexPath environment done.files done.cache wanted.ledger
  deleted : ∀ l, Elsewhere here indexPath l →
    (HasFile done.files l ↔ HasFile files l ∧ ¬ Effect.Discards files here wanted.discarded l)
  wasFile : ∀ l, Effect.Discards files here wanted.discarded l → HasFile files l

section

variable {digest here} {files files' : FileTree} {c old : Cache} {g : Ledger} {indexPath : Path}
  {environment : String} {answer : Answer}

theorem load?_congr (same : (files'.read here indexPath).toOption =
      (files.read here indexPath).toOption) :
    Index.load? files' here indexPath = Index.load? files here indexPath := by
  have split : ∀ t : FileTree, Index.load? t here indexPath =
      ((t.read here indexPath).toOption.bind Text.Utf8.toString?).bind fun text =>
        Index.read? text.toList := by
    intro t
    simp only [Index.load?, FileTree.readText]
    cases t.read here indexPath with
    | error cause => rfl
    | ok content =>
      simp only [bind, Except.bind, Except.toOption, Option.bind_some]
      cases Text.Utf8.toString? content <;> rfl
  rw [split, split, same]

/-- Opening the index gives the cache that it was saved from, and changes nothing. -/
theorem Tracks.openAt (h : Tracks here indexPath environment files c g) :
    Cache.openAt files here indexPath environment = (files, .ok c) := by
  rcases h.saved with saved | ⟨absent, empty⟩
  · have whole : ofIndex indexPath environment c.index = c := by
      rw [ofIndex, index, ofList_ordered h.entries.ordered, ofList_ordered h.misses.ordered,
        ← h.path, ← h.built]
    simp only [Cache.openAt, saved, whole]
    rw [if_pos (show c.index.environment = environment from h.built)]
  · simp only [Cache.openAt, absent, empty]

theorem Tracks.entry? (h : Tracks here indexPath environment files c g) (source : Path) :
    c.entry? here source = g.entries.lookup (key here source) := h.entries.lookup _

theorem Tracks.miss? (h : Tracks here indexPath environment files c g) (source : Path) :
    c.miss? here source = g.misses.lookup (key here source) := h.misses.lookup _

/-- A request that changes nothing. -/
theorem Tracks.unchanged (h : Tracks here indexPath environment files c g) (answer : Answer) :
    Agrees here indexPath environment files ⟨files, c, answer⟩ ⟨g, answer, []⟩ where
  answer := rfl
  tracks := h
  deleted l _ := by simp [Effect.Discards]
  wasFile l discarded := by simp [Effect.Discards] at discarded

/-- A request that is a transaction. -/
theorem agrees_of_run {x : Transaction} (discarded : List Path)
    (writable : Writable here indexPath files) (path : x.cache.indexPath = indexPath)
    (built : x.cache.environment = environment)
    (effects : x.before ++ x.after = discarded.map .discard ++ x.cache.saving)
    (entries : Represents Descriptor.key x.cache.entries g.entries)
    (misses : Represents Miss.key x.cache.misses g.misses)
    (done : x.run old files here = (files', c, none)) :
    Agrees here indexPath environment files ⟨files', c, answer⟩ ⟨g, answer, discarded⟩ := by
  have noDevice : ∀ d, files.get? (x.cache.temporary.location here) ≠ some (.device d) := by
    rw [temporary, path]
    exact writable
  obtain ⟨rfl, load, deleted, wasFile⟩ := settled_of_run noDevice effects done
  rw [path] at load
  simp only [temporary, path] at deleted
  exact ⟨rfl, ⟨path, built, entries, misses, .inl load⟩, fun l ⟨notIndex, notTemporary⟩ =>
    deleted l notIndex notTemporary, wasFile⟩

/-- A transaction that is not refused answers its value. -/
theorem settle_answer {α : Type} {x : Transaction} {wrap : α → Answer} {value : α}
    (accepted : (settle wrap (x.answer old files here value)).answer.isRefused = false) :
    ∃ files' c, x.run old files here = (files', c, none) ∧
      settle wrap (x.answer old files here value) = ⟨files', c, wrap value⟩ := by
  unfold Transaction.answer at accepted ⊢
  rcases ran : x.run old files here with ⟨files', c, _ | fault⟩
  · exact ⟨files', c, rfl, rfl⟩
  · rw [ran] at accepted
    cases accepted

theorem agrees_lookup (h : Tracks here indexPath environment files c g)
    (writable : Writable here indexPath files) (source : Path)
    (untroubled : Untroubled digest here files c (.lookup source)) :
    Agrees here indexPath environment files (serve digest here files c (.lookup source))
      (g.reply digest here files (.lookup source)) := by
  simp only [serve, lookup, Ledger.reply, ← h.entry?]
  cases found : c.entry? here source with
  | none => exact h.unchanged _
  | some d =>
    by_cases stale : outdated digest files here d = true
    · have accepted := untroubled d found stale
      rcases ran : (c.removal here d source).run c files here with ⟨files', c', fault⟩
      rw [ran] at accepted
      cases accepted
      simp only [if_pos stale, ran]
      exact agrees_of_run [d.artifact] writable h.path h.built rfl
        (h.entries.drop _) h.misses ran
    · simp only [if_neg stale]
      exact h.unchanged _

theorem agrees_invalidate (h : Tracks here indexPath environment files c g)
    (writable : Writable here indexPath files) (source : Path)
    (untroubled : Untroubled digest here files c (.invalidate source)) :
    Agrees here indexPath environment files (serve digest here files c (.invalidate source))
      (g.reply digest here files (.invalidate source)) := by
  simp only [Untroubled, serve, invalidate] at untroubled
  simp only [serve, invalidate, Ledger.reply, ← h.entry?, ← h.miss?]
  cases found : c.entry? here source with
  | some d =>
    simp only [found] at untroubled
    obtain ⟨files', c', ran, settled⟩ := settle_answer untroubled
    simp only [settled]
    exact agrees_of_run [d.artifact] writable h.path h.built rfl
      (h.entries.drop _) (h.misses.drop _) ran
  | none =>
    simp only [found] at untroubled
    have entries := h.entries.erase_absent found
    cases missed : c.miss? here source with
    | some m =>
      simp only [missed, Option.isSome_some, if_true] at untroubled
      obtain ⟨files', c', ran, settled⟩ := settle_answer untroubled
      simp only [Option.isSome_some, if_true, settled]
      exact agrees_of_run [] writable h.path h.built rfl entries
        (h.misses.drop _) ran
    | none =>
      have tracks : Tracks here indexPath environment files c
          ⟨g.entries.erase (key here source), g.misses.erase (key here source)⟩ :=
        ⟨h.path, h.built, entries, h.misses.erase_absent missed, h.saved⟩
      exact tracks.unchanged _

/-- Whatever is asked, the cache does what the ledger wants. -/
theorem serve_agrees (h : Tracks here indexPath environment files c g)
    (writable : Writable here indexPath files) (request : Request)
    (untroubled : Untroubled digest here files c request) :
    Agrees here indexPath environment files (serve digest here files c request)
      (g.reply digest here files request) := by
  cases request with
  | lookup source => exact agrees_lookup h writable source untroubled
  | isStale source =>
    simp only [serve, isStale, Ledger.reply, ← h.entry?]
    exact h.unchanged _
  | store source artifact package =>
    simp only [Untroubled, serve, store] at untroubled
    obtain ⟨files', c', ran, settled⟩ := settle_answer untroubled
    simp only [serve, store, settled, Ledger.reply]
    exact agrees_of_run [] writable h.path h.built rfl (h.entries.put _)
      (h.misses.drop _) ran
  | recordMiss source =>
    simp only [Untroubled, serve, recordMiss] at untroubled
    obtain ⟨files', c', ran, settled⟩ := settle_answer untroubled
    simp only [serve, recordMiss, settled, Ledger.reply]
    exact agrees_of_run [] writable h.path h.built rfl h.entries (h.misses.put _) ran
  | isMiss source =>
    simp only [serve, isMiss, Ledger.reply, ← h.miss?]
    exact h.unchanged _
  | invalidate source => exact agrees_invalidate h writable source untroubled
  | clear =>
    simp only [Untroubled, serve, clear] at untroubled
    obtain ⟨files', c', ran, settled⟩ := settle_answer untroubled
    simp only [serve, clear, settled, Ledger.reply, h.entries.card_keys, h.entries.listing_eq]
    exact agrees_of_run _ writable h.path h.built (by simp [clearing, Function.comp_def]) (.nil _)
      (.nil _) ran
  | list =>
    simp only [serve, Ledger.reply, h.entries.listing_eq, h.misses.listing_eq]
    exact h.unchanged _

end

/-- One request as it was served. -/
structure Deed where
  before : FileTree
  request : Request
  answer : Answer
  after : FileTree

/-- The runs of a cache: it serves requests that meet no refusal, it is dropped and opened again, and
other programs change files that are not its index. -/
inductive Run (indexPath : Path) (environment : String) (files₀ : FileTree) :
    List Deed → FileTree → Cache → Prop where
  | opened {files c} (done : Cache.openAt files₀ here indexPath environment = (files, .ok c)) :
    Run indexPath environment files₀ [] files c
  | request {deeds files c} (run : Run indexPath environment files₀ deeds files c)
      (request : Request) (writable : Writable here indexPath files)
      (untroubled : Untroubled digest here files c request) :
    Run indexPath environment files₀
      (deeds ++ [⟨files, request, (serve digest here files c request).answer,
        (serve digest here files c request).files⟩])
      (serve digest here files c request).files (serve digest here files c request).cache
  | reopened {deeds files c files' c'} (run : Run indexPath environment files₀ deeds files c)
      (done : Cache.openAt files here indexPath environment = (files', .ok c')) :
    Run indexPath environment files₀ deeds files' c'
  | edited {deeds files c} (run : Run indexPath environment files₀ deeds files c)
      (files' : FileTree)
      (index : (files'.read here indexPath).toOption = (files.read here indexPath).toOption) :
    Run indexPath environment files₀ deeds files' c

/-- The files that were deleted by a request, the index and its temporary apart. -/
def Deed.deleted (indexPath : Path) (d : Deed) : Set Location :=
  {l | Elsewhere here indexPath l ∧ HasFile d.before l ∧ ¬ HasFile d.after l}

namespace Ledger

/-- The answers of a ledger to requests, each seeing its own files, and the files that it wants
deleted. -/
def replay (indexPath : Path) : Ledger → List (FileTree × Request) → List (Answer × Set Location)
  | _, [] => []
  | g, (files, request) :: rest =>
    let reply := g.reply digest here files request
    (reply.answer, {l | Elsewhere here indexPath l ∧ Effect.Discards files here reply.discarded l}) ::
      replay indexPath reply.ledger rest

/-- A ledger after requests. -/
def after : Ledger → List (FileTree × Request) → Ledger
  | g, [] => g
  | g, (files, request) :: rest => after (g.reply digest here files request).ledger rest

end Ledger

section

variable {digest here} {files₀ files : FileTree} {c : Cache} {indexPath : Path}
  {environment : String} {deeds deeds' : List Deed}

theorem replay_append (g : Ledger) (first rest : List (FileTree × Request)) :
    g.replay digest here indexPath (first ++ rest) =
      g.replay digest here indexPath first ++
        (g.after digest here first).replay digest here indexPath rest := by
  induction first generalizing g with
  | nil => rfl
  | cons x first ih =>
    obtain ⟨files, request⟩ := x
    simp only [List.cons_append, Ledger.replay, Ledger.after, ih]

theorem after_append (g : Ledger) (first rest : List (FileTree × Request)) :
    g.after digest here (first ++ rest) = (g.after digest here first).after digest here rest := by
  induction first generalizing g with
  | nil => rfl
  | cons x first ih =>
    obtain ⟨files, request⟩ := x
    simp only [List.cons_append, Ledger.after, ih]

/-- What was asked, with the files that the request saw. -/
def Deed.asked (d : Deed) : FileTree × Request := (d.before, d.request)

theorem Agrees.deleted_eq {done : Answered Answer} {wanted : Reply} (request : Request)
    (answer : Answer) (h : Agrees here indexPath environment files done wanted) :
    Deed.deleted here indexPath ⟨files, request, answer, done.files⟩ =
      {l | Elsewhere here indexPath l ∧ Effect.Discards files here wanted.discarded l} := by
  ext l
  constructor
  · rintro ⟨elsewhere, wasFile, gone⟩
    rw [h.deleted l elsewhere, not_and_not_right] at gone
    exact ⟨elsewhere, gone wasFile⟩
  · rintro ⟨elsewhere, discarded⟩
    refine ⟨elsewhere, h.wasFile l discarded, fun kept => ?_⟩
    exact ((h.deleted l elsewhere).mp kept).2 discarded

/-- Along every run the cache is the ledger after the requests, and its index would give it back. -/
theorem Run.tracks (absent : Index.load? files₀ here indexPath = none)
    (run : Run digest here indexPath environment files₀ deeds files c) :
    Tracks here indexPath environment files c
        (Ledger.empty.after digest here (deeds.map Deed.asked)) ∧
      deeds.map (fun d => (d.answer, d.deleted here indexPath)) =
        Ledger.empty.replay digest here indexPath (deeds.map Deed.asked) := by
  induction run with
  | opened done =>
    simp only [Cache.openAt, absent, Prod.mk.injEq, Except.ok.injEq] at done
    obtain ⟨rfl, rfl⟩ := done
    exact ⟨⟨rfl, rfl, .nil _, .nil _, .inr ⟨absent, rfl⟩⟩, rfl⟩
  | @request deeds files c run request writable untroubled ih =>
    obtain ⟨tracks, answers⟩ := ih
    have agrees := serve_agrees tracks writable request untroubled
    rw [List.map_append, after_append, List.map_append, replay_append, answers]
    refine ⟨agrees.tracks, ?_⟩
    simp only [List.map_cons, List.map_nil, Ledger.replay, Deed.asked, agrees.deleted_eq]
    rw [agrees.answer]
  | reopened run done ih =>
    obtain ⟨tracks, answers⟩ := ih
    rw [tracks.openAt, Prod.mk.injEq, Except.ok.injEq] at done
    obtain ⟨rfl, rfl⟩ := done
    exact ⟨tracks, answers⟩
  | edited run files' index ih =>
    obtain ⟨tracks, answers⟩ := ih
    refine ⟨{ tracks with saved := ?_ }, answers⟩
    rw [load?_congr index]
    exact tracks.saved

/-- Over every run from no index, the answers of the cache and the files that it deletes are those of
two finite maps that never save or load anything; opening the index at its end gives the cache. -/
theorem run_refines (absent : Index.load? files₀ here indexPath = none)
    (run : Run digest here indexPath environment files₀ deeds files c) :
    deeds.map (fun d => (d.answer, d.deleted here indexPath)) =
        Ledger.empty.replay digest here indexPath (deeds.map Deed.asked) ∧
      Cache.openAt files here indexPath environment = (files, .ok c) := by
  obtain ⟨tracks, answers⟩ := run.tracks absent
  exact ⟨answers, tracks.openAt⟩

/-- A model and its executable. -/
def stocked : FileTree := ⟨[(["m.xml"], .file [1] .plain), (["a"], .file [2] .program)]⟩

/-- The executable is stored in an empty cache. -/
def stockedStore : Answered Answer :=
  serve Bytes.toHex [] stocked ⟨⟨"/i"⟩, "x", [], []⟩ (.store ⟨"/m.xml"⟩ ⟨"/a"⟩ "p")

/-- The executable is replaced by other bytes. -/
def stockedEdit : FileTree := stockedStore.files.insert ["a"] (.file [3] .program)

/-- A run in which a stored executable is changed, and the cache opened again before it is asked. -/
theorem run_refines_changed :
    ∃ deeds files c, Run Bytes.toHex [] ⟨"/i"⟩ "x" stocked deeds files c ∧
      deeds.map Deed.answer = [.stored ⟨⟨"/m.xml"⟩, ⟨"/a"⟩, "p",
        ⟨"010000000000000001010000000000000002"⟩⟩, .found none] ∧
      deeds.map (fun d => (d.answer, d.deleted [] ⟨"/i"⟩)) =
        Ledger.empty.replay Bytes.toHex [] ⟨"/i"⟩ (deeds.map Deed.asked) ∧
      Cache.openAt files [] ⟨"/i"⟩ "x" = (files, .ok c) := by
  have absent : Index.load? stocked [] ⟨"/i"⟩ = none := by decide +kernel
  have opened : Run Bytes.toHex [] ⟨"/i"⟩ "x" stocked [] stocked ⟨⟨"/i"⟩, "x", [], []⟩ :=
    .opened (by decide +kernel)
  have stored := opened.request (.store ⟨"/m.xml"⟩ ⟨"/a"⟩ "p")
    (fun d => by rw [show stocked.get? _ = none by decide +kernel]; simp)
    (show stockedStore.answer.isRefused = false by decide +kernel)
  have edited := stored.edited stockedEdit (by decide +kernel)
  have reopened := edited.reopened (edited.tracks absent).1.openAt
  have asked := reopened.request (.lookup ⟨"/m.xml"⟩)
    (fun d => by rw [show stockedEdit.get? _ = none by decide +kernel]; simp) (by
      intro d found _
      have entry : stockedStore.cache.entry? [] ⟨"/m.xml"⟩ = some ⟨⟨"/m.xml"⟩, ⟨"/a"⟩, "p",
        ⟨"010000000000000001010000000000000002"⟩⟩ := by decide +kernel
      obtain rfl := Option.some.inj (entry.symm.trans found)
      decide +kernel)
  exact ⟨_, _, _, asked, by decide +kernel, run_refines absent asked⟩

/-- A miss is recorded in an empty cache. -/
def recording (files : FileTree) (indexPath : Path) : Answered Answer :=
  serve Bytes.toHex [] files ⟨indexPath, "x", [], []⟩ (.recordMiss ⟨"/m.xml"⟩)

/-- Whether an empty cache forgets a miss that it has recorded, when others leave its index as it is
and it is opened again. -/
structure Forgets (files changed : FileTree) (indexPath : Path) : Prop where
  empty : Cache.openAt files [] indexPath "x" = (files, .ok ⟨indexPath, "x", [], []⟩)
  recorded : ∃ m, (recording files indexPath).answer = .missed m ∧
    (recording files indexPath).cache.misses = [m]
  index : changed.get? ["i"] = (recording files indexPath).files.get? ["i"]
  again : Cache.openAt changed [] indexPath "x" = (changed, .ok ⟨indexPath, "x", [], []⟩)

/-- A cache forgets when a directory on the way to its index is taken away, and when a null device
stands where the document is written first. -/
theorem run_forgets :
    Forgets stocked ((recording stocked ⟨"/b/../i"⟩).files.erase ["b"]) ⟨"/b/../i"⟩ ∧
      Forgets (stocked.insert ["i.tmp"] (.device .null))
        (recording (stocked.insert ["i.tmp"] (.device .null)) ⟨"/i"⟩).files ⟨"/i"⟩ := by
  let m : Miss := ⟨⟨"/m.xml"⟩, Fingerprint.now Bytes.toHex stocked [] [⟨"/m.xml"⟩]⟩
  exact ⟨⟨by decide +kernel, ⟨m, by decide +kernel, by decide +kernel⟩, by decide +kernel,
      by decide +kernel⟩,
    ⟨by decide +kernel, ⟨m, by decide +kernel, by decide +kernel⟩, by decide +kernel,
      by decide +kernel⟩⟩

end

end SimWorkbench.Cache
