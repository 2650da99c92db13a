import SimWorkbench.Proofs.Cache.Ledger
import SimWorkbench.Proofs.Cache.Outcome

/-!
# What a request changes

A request either leaves the cache and the files alone or it discards executables and then saves a
cache. The lists in memory change first, except that a cache is cleared only when all executables
are gone.
-/
namespace SimWorkbench.Cache

variable {digest : Digest} {here : Location} {files : FileTree} {c : Cache} {request : Request}

/-- The cache that knows nothing. -/
def emptied (c : Cache) : Cache := { c with entries := [], misses := [] }

/-- What a request changes. -/
structure Change where
  /-- The executables that are discarded before the index is written. -/
  discarded : List Path
  /-- The cache that is saved. -/
  cache : Cache
  /-- Whether the lists in memory wait for the executables to be gone. -/
  waits : Bool

namespace Change

/-- The deletions of a change. -/
def deletions (x : Change) : List Effect := x.discarded.map .discard

/-- What a change does to the files. -/
def effects (x : Change) : List Effect := x.deletions ++ x.cache.saving

/-- Whether an executable cannot be deleted. -/
def Hindered (x : Change) (here : Location) (files : FileTree) : Prop :=
  (Effect.performAll files here x.deletions).2 ≠ none

instance (x : Change) (here : Location) (files : FileTree) : Decidable (x.Hindered here files) :=
  inferInstanceAs (Decidable (_ ≠ none))

/-- The cache in memory after a change. -/
def live (x : Change) (old : Cache) (here : Location) (files : FileTree) : Cache :=
  if x.waits ∧ x.Hindered here files then old else x.cache

end Change

/-- What a request changes, if it changes anything. -/
def change? (digest : Digest) (here : Location) (files : FileTree) (c : Cache) :
    Request → Option Change
  | .lookup source =>
    match c.entry? here source with
    | none => none
    | some d =>
      if outdated digest files here d then some ⟨[d.artifact], c.withoutEntry here source, false⟩
      else none
  | .store source artifact package =>
    some ⟨[], c.withEntry (entryOf digest files here source artifact package), false⟩
  | .recordMiss source => some ⟨[], c.withMiss (missOf digest files here source), false⟩
  | .invalidate source =>
    match c.entry? here source with
    | some d => some ⟨[d.artifact], (c.withoutMiss here source).withoutEntry here source, false⟩
    | none =>
      if (c.miss? here source).isSome then some ⟨[], c.withoutMiss here source, false⟩ else none
  | .clear => some ⟨c.entries.map Descriptor.artifact, c.emptied, true⟩
  | .isStale _ | .isMiss _ | .list => none

theorem serve_of_unchanged (unchanged : change? digest here files c request = none) :
    (serve digest here files c request).files = files ∧
      (serve digest here files c request).cache = c := by
  cases request with
  | lookup source =>
    cases found : c.entry? here source with
    | none => simp only [serve, lookup, found, and_self]
    | some d =>
      by_cases stale : outdated digest files here d = true
      · simp [change?, found, stale] at unchanged
      · simp [serve, lookup, found, stale]
  | invalidate source =>
    cases found : c.entry? here source with
    | some d => simp [change?, found] at unchanged
    | none =>
      cases missed : c.miss? here source with
      | some m => simp [change?, found, missed] at unchanged
      | none => simp [serve, settle, invalidate, found, missed]
  | store | recordMiss | clear => simp [change?] at unchanged
  | isStale | isMiss | list => exact ⟨rfl, rfl⟩

/-- A request whose lists change first. -/
theorem serve_eager {α : Type} {done : Answered (Except FileFault α)} {x : Change} (wrap : α → Answer)
    (eager : x.waits = false) (left : done.files = x.cache.swept here x.discarded files)
    (kept : done.cache = x.cache) :
    (settle wrap done).files = (Effect.performAll files here x.effects).1 ∧
      (settle wrap done).cache = x.live c here files := by
  refine ⟨left, ?_⟩
  rw [Change.live, if_neg (by simp [eager])]
  exact kept

/-- The lists of a cache that is cleared wait for the executables to be gone. -/
theorem clear_outcome (c : Cache) (here : Location) (files : FileTree) :
    let x : Change := ⟨c.entries.map Descriptor.artifact, c.emptied, true⟩
    (c.clear files here).files = (Effect.performAll files here x.effects).1 ∧
      (c.clear files here).cache = x.live c here files := by
  intro x
  have before : c.clearing.before = x.deletions := by
    simp [clearing, x, Change.deletions, Function.comp_def]
  have ran : (c.clear files here).files = (c.clearing.run c files here).1 ∧
      (c.clear files here).cache = (c.clearing.run c files here).2.1 := answer_eq ..
  refine ⟨ran.1.trans ?_, ran.2.trans ?_⟩
  · rw [files_run, before]
    rfl
  · rw [Transaction.run, before, Change.live]
    rcases deleted : Effect.performAll files here x.deletions with ⟨bare, _ | fault⟩
    · rw [if_neg (by simp [Change.Hindered, deleted])]
      rfl
    · rw [if_pos ⟨rfl, by simp [Change.Hindered, deleted]⟩]

/-- What is left of a request is left by its change, whether it is refused on the way or not. -/
theorem serve_of_change {x : Change} (changed : change? digest here files c request = some x) :
    (serve digest here files c request).files = (Effect.performAll files here x.effects).1 ∧
      (serve digest here files c request).cache = x.live c here files := by
  cases request with
  | lookup source =>
    cases found : c.entry? here source with
    | none => simp [change?, found] at changed
    | some d =>
      by_cases stale : outdated digest files here d = true
      · simp only [change?, found, stale, if_true, Option.some.injEq] at changed
        subst changed
        simp only [serve, lookup_of_outdated found stale]
        exact ⟨rfl, rfl⟩
      · simp [change?, found, stale] at changed
  | store source artifact package =>
    obtain ⟨left, kept, -⟩ := store_outcome c digest files here source artifact package
    simp only [change?, Option.some.injEq] at changed
    subst changed
    exact serve_eager _ rfl left kept
  | recordMiss source =>
    obtain ⟨left, kept, -⟩ := recordMiss_outcome c digest files here source
    simp only [change?, Option.some.injEq] at changed
    subst changed
    exact serve_eager _ rfl left kept
  | invalidate source =>
    cases found : c.entry? here source with
    | some d =>
      obtain ⟨left, kept⟩ := invalidate_of_found files found
      simp only [change?, found, Option.some.injEq] at changed
      subst changed
      exact serve_eager _ rfl left kept
    | none =>
      cases missed : c.miss? here source with
      | none => simp [change?, found, missed] at changed
      | some m =>
        have ran : (c.invalidate files here source).files =
              (c.withoutMiss here source).swept here [] files ∧
            (c.invalidate files here source).cache = c.withoutMiss here source := by
          simp only [invalidate, found, missed, Option.isSome_some, if_true]
          obtain ⟨left, kept, -⟩ := @answer_of_nil c files here Bool
            ⟨[], c.withoutMiss here source, (c.withoutMiss here source).saving⟩ rfl true
          exact ⟨left, kept⟩
        simp only [change?, found, missed, Option.isSome_some, if_true, Option.some.injEq] at changed
        subst changed
        exact serve_eager _ rfl ran.1 ran.2
  | clear =>
    simp only [change?, Option.some.injEq] at changed
    subst changed
    exact clear_outcome c here files
  | isStale | isMiss | list => cases changed

/-- Whether the records stand in the order of their sources, one for each. -/
structure InOrder (c : Cache) : Prop where
  entries : Keyed.Ordered Descriptor.key c.entries
  misses : Keyed.Ordered Miss.key c.misses

theorem InOrder.empty (indexPath : Path) (environment : String) :
    InOrder ⟨indexPath, environment, [], []⟩ := ⟨.nil, .nil⟩

theorem InOrder.ofIndex (indexPath : Path) (environment : String) (i : Index) :
    (Cache.ofIndex indexPath environment i).InOrder :=
  ⟨Keyed.ordered_ofList _ _, Keyed.ordered_ofList _ _⟩

/-- A change stays at the index of its cache and in its environment, and keeps the order. -/
theorem change?_spec {x : Change} (changed : change? digest here files c request = some x) :
    x.cache.indexPath = c.indexPath ∧ x.cache.environment = c.environment ∧
      (c.InOrder → x.cache.InOrder) := by
  cases request with
  | lookup source =>
    simp only [change?] at changed
    split at changed
    · cases changed
    · split at changed <;> cases changed
      exact ⟨rfl, rfl, fun h => ⟨h.entries.drop _, h.misses⟩⟩
  | store source artifact package =>
    cases changed
    exact ⟨rfl, rfl, fun h => ⟨h.entries.put _, h.misses.drop _⟩⟩
  | recordMiss source =>
    cases changed
    exact ⟨rfl, rfl, fun h => ⟨h.entries, h.misses.put _⟩⟩
  | invalidate source =>
    simp only [change?] at changed
    split at changed
    · cases changed
      exact ⟨rfl, rfl, fun h => ⟨h.entries.drop _, h.misses.drop _⟩⟩
    · split at changed <;> cases changed
      exact ⟨rfl, rfl, fun h => ⟨h.entries, h.misses.drop _⟩⟩
  | clear =>
    cases changed
    exact ⟨rfl, rfl, fun _ => .empty _ _⟩
  | isStale | isMiss | list => cases changed

/-- An index that holds the document of a cache opens as that cache. -/
theorem openAt_of_load? (inOrder : c.InOrder)
    (saved : Index.load? files here c.indexPath = some c.index) :
    Cache.openAt files here c.indexPath c.environment = (files, .ok c) := by
  have whole : ofIndex c.indexPath c.environment c.index = c := by
    rw [ofIndex, index, Keyed.ofList_ordered inOrder.entries, Keyed.ofList_ordered inOrder.misses]
  simp only [Cache.openAt, saved, whole]
  rw [if_pos (show c.index.environment = c.environment from rfl)]

/-- An index with the document of a cache is loaded as it was written. -/
theorem load?_of_document
    (document : files.read here c.indexPath = .ok (Bytes.ofChars c.index.write)) :
    Index.load? files here c.indexPath = some c.index := by
  simp only [Index.load?, FileTree.readText, document, bind, Except.bind,
    Text.Utf8.toString?_ofChars, String.toList_ofList, Index.read?_write]

/-- A cache that was opened is in order. -/
theorem InOrder.of_openAt {indexPath : Path} {environment : String}
    (opened : (Cache.openAt files here indexPath environment).2 = .ok c) : c.InOrder := by
  unfold Cache.openAt at opened
  cases loaded : Index.load? files here indexPath with
  | none =>
    rw [loaded] at opened
    cases opened
    exact .empty _ _
  | some i =>
    simp only [loaded] at opened
    split at opened
    · cases opened
      exact .ofIndex _ _ i
    · unfold Cache.clear Transaction.answer at opened
      rcases ran : (Cache.ofIndex indexPath environment i).clearing.run
        (Cache.ofIndex indexPath environment i) files here with ⟨files', c', _ | fault⟩
      · simp only [ran] at opened
        cases opened
        obtain ⟨rfl, -⟩ := Transaction.run_ok ran
        exact .empty _ _
      · simp only [ran] at opened
        cases opened

/-- A change that meets no refusal leaves an index that is loaded as its cache. -/
theorem load?_of_performed {x : Change} {files' : FileTree}
    (writable : Writable here x.cache.indexPath files)
    (performed : Effect.performAll files here x.effects = (files', none)) :
    Index.load? files' here x.cache.indexPath = some x.cache.index := by
  let done : Transaction := ⟨[], x.cache, x.effects⟩
  have ran : done.run x.cache files here = (files', x.cache, none) := by
    rw [run_of_nil rfl, performed]
  have effects : done.before ++ done.after = x.discarded.map .discard ++ done.cache.saving := rfl
  have noDevice : ∀ d, files.get? (done.cache.temporary.location here) ≠ some (.device d) := by
    rw [temporary]
    exact writable
  obtain ⟨-, settled⟩ := settled_of_run noDevice effects ran
  exact settled.load

/-- A change that meets no refusal leaves an index that opens as its cache. -/
theorem openAt_of_performed {x : Change} {files' : FileTree} (inOrder : x.cache.InOrder)
    (writable : Writable here x.cache.indexPath files)
    (performed : Effect.performAll files here x.effects = (files', none)) :
    Cache.openAt files' here x.cache.indexPath x.cache.environment = (files', .ok x.cache) :=
  openAt_of_load? inOrder (load?_of_performed writable performed)

end SimWorkbench.Cache
