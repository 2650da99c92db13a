import SimWorkbench.Proofs.Cache.Persistence
import SimWorkbench.Proofs.Keyed

/-!
# Laws that caches keep

A law is a demand on the records of a cache. A lasting law survives that records are forgotten and
that an index is loaded. Whatever the cache does and wherever it is refused, its records and the
document in its index then obey the law, if what is recorded anew does.
-/
namespace SimWorkbench

namespace Cache

/-- What is demanded of the environment, the entries and the misses of a cache. -/
abbrev Law := String → List Descriptor → List Miss → Prop

/-- Whether a law survives that records are forgotten and that an index is loaded. -/
structure Law.Lasting (law : Law) : Prop where
  empty : ∀ environment, law environment [] []
  dropEntry : ∀ {environment entries misses}, law environment entries misses → ∀ key,
    law environment (Keyed.drop Descriptor.key key entries) misses
  dropMiss : ∀ {environment entries misses}, law environment entries misses → ∀ key,
    law environment entries (Keyed.drop Miss.key key misses)
  loaded : ∀ {environment entries misses}, law environment entries misses →
    law environment (Keyed.ofList Descriptor.key entries) (Keyed.ofList Miss.key misses)

/-- Whether every document that an index can hold obeys a law. -/
def Law.OfIndex (law : Law) (here : Location) (path : Path) (files : FileTree) : Prop :=
  ∀ i, Index.StoredAt files (path.location here) i → law i.environment i.entries i.misses

/-- Whether a cache and its index obey a law. -/
structure Obeys (law : Law) (here : Location) (path : Path) (environment : String)
    (files : FileTree) (c : Cache) : Prop where
  keeps : c.indexPath = path
  built : c.environment = environment
  records : law environment c.entries c.misses
  index : law.OfIndex here path files

variable {law law' : Law} {here : Location} {path : Path} {environment : String}
  {files files' : FileTree} {c old : Cache}

theorem Law.OfIndex.imp (obeys : law.OfIndex here path files)
    (weaker : ∀ {environment entries misses}, law environment entries misses →
      law' environment entries misses) : law'.OfIndex here path files :=
  fun i stored => weaker (obeys i stored)

theorem Obeys.imp (obeys : Obeys law here path environment files c)
    (weaker : ∀ {environment entries misses}, law environment entries misses →
      law' environment entries misses) : Obeys law' here path environment files c where
  keeps := obeys.keeps
  built := obeys.built
  records := weaker obeys.records
  index := obeys.index.imp weaker

theorem Law.OfIndex.leaves (obeys : law.OfIndex here path files)
    (leaves : FileTree.NothingNewAt files files' (path.location here)) :
    law.OfIndex here path files' :=
  fun i stored => obeys i (stored.before leaves)

theorem Obeys.leaves (obeys : Obeys law here path environment files c)
    (leaves : FileTree.NothingNewAt files files' (path.location here)) :
    Obeys law here path environment files' c :=
  { obeys with index := obeys.index.leaves leaves }

section Transactions

variable {x : Transaction} (discarded : List Path)

/-- A transaction to records that obey leaves an index that obeys. -/
theorem Law.OfIndex.run (obeys : law.OfIndex here path files) (isPath : x.cache.indexPath = path)
    (effects : x.before ++ x.after = discarded.map .discard ++ x.cache.saving)
    (records : law x.cache.environment x.cache.entries x.cache.misses) :
    law.OfIndex here path (x.run old files here).1 := by
  intro i stored
  rw [← isPath] at stored
  rcases storedAt_run effects stored with before | rfl
  · rw [isPath] at before
    exact obeys i before
  · exact records

/-- A transaction from a cache that obeys to another leaves one that obeys. -/
theorem Obeys.run (obeys : Obeys law here path environment files old)
    (isPath : x.cache.indexPath = old.indexPath)
    (built : x.cache.environment = old.environment)
    (effects : x.before ++ x.after = discarded.map .discard ++ x.cache.saving)
    (records : law environment x.cache.entries x.cache.misses) :
    Obeys law here path environment (x.run old files here).1 (x.run old files here).2.1 := by
  have index : law.OfIndex here path (x.run old files here).1 :=
    obeys.index.run discarded (isPath.trans obeys.keeps) effects (by rwa [built, obeys.built])
  rcases cache_run x old files here with same | same
  · rw [same]
    exact { obeys with index := index }
  · rw [same]
    exact ⟨isPath.trans obeys.keeps, built.trans obeys.built, records, index⟩

end Transactions

theorem mem_of_found {source : Path} {d : Descriptor} (found : c.entry? here source = some d) :
    d ∈ c.entries ∧ d.key = key here source := Keyed.get?_mem found

theorem Obeys.lookup (obeys : Obeys law here path environment files c) (lasting : law.Lasting)
    (digest : Digest) (source : Path) :
    Obeys law here path environment (c.lookup digest files here source).files
      (c.lookup digest files here source).cache := by
  unfold Cache.lookup
  cases found : c.entry? here source with
  | none => exact obeys
  | some d =>
    by_cases stale : outdated digest files here d = true
    · simp only [if_pos stale]
      exact obeys.run [d.artifact] rfl rfl rfl (lasting.dropEntry obeys.records _)
    · simp only [if_neg stale]
      exact obeys

theorem Obeys.invalidate (obeys : Obeys law here path environment files c) (lasting : law.Lasting)
    (source : Path) :
    Obeys law here path environment (c.invalidate files here source).files
      (c.invalidate files here source).cache := by
  unfold Cache.invalidate
  have forgotten : Obeys law here path environment files
      { c with misses := Keyed.drop Miss.key (key here source) c.misses } :=
    { obeys with records := lasting.dropMiss obeys.records _ }
  cases found : c.entry? here source with
  | some d =>
    simp only [answer_eq]
    exact forgotten.run [d.artifact] rfl rfl rfl (lasting.dropEntry forgotten.records _)
  | none =>
    by_cases missed : (c.miss? here source).isSome = true
    · simp only [if_pos missed, answer_eq]
      exact obeys.run [] rfl rfl rfl forgotten.records
    · simp only [if_neg missed]
      exact obeys

theorem Obeys.clear (obeys : Obeys law here path environment files c) (lasting : law.Lasting) :
    Obeys law here path environment (c.clear files here).files (c.clear files here).cache := by
  unfold Cache.clear
  simp only [answer_eq]
  exact obeys.run (c.entries.map Descriptor.artifact) rfl rfl
    (by simp [clearing, Function.comp_def]) (lasting.empty _)

/-- The miss that is recorded for a source. -/
def missOf (digest : Digest) (files : FileTree) (here : Location) (source : Path) : Miss :=
  ⟨source.normalised here.path, Fingerprint.now digest files here [source.normalised here.path]⟩

/-- The entry that is stored for a source and its executable. -/
def entryOf (digest : Digest) (files : FileTree) (here : Location) (source artifact : Path)
    (package : String) : Descriptor :=
  ⟨source.normalised here.path, artifact.normalised here.path, package,
    Fingerprint.now digest files here [source.normalised here.path, artifact.normalised here.path]⟩

theorem Obeys.recordMiss (obeys : Obeys law here path environment files c) {digest : Digest}
    {source : Path}
    (records : law environment c.entries
      (Keyed.put Miss.key (missOf digest files here source) c.misses)) :
    Obeys law here path environment (c.recordMiss digest files here source).files
      (c.recordMiss digest files here source).cache := by
  unfold Cache.recordMiss
  simp only [answer_eq]
  exact obeys.run [] rfl rfl rfl records

theorem Obeys.store (obeys : Obeys law here path environment files c) {digest : Digest}
    {source artifact : Path} {package : String}
    (records : law environment
      (Keyed.put Descriptor.key (entryOf digest files here source artifact package) c.entries)
      (Keyed.drop Miss.key (key here source) c.misses)) :
    Obeys law here path environment (c.store digest files here source artifact package).files
      (c.store digest files here source artifact package).cache := by
  unfold Cache.store
  simp only [answer_eq]
  exact obeys.run [] rfl rfl rfl records

/-- A cache that is opened over an index that obeys obeys in the present environment. -/
theorem Law.OfIndex.openAt (obeys : law.OfIndex here path files) (lasting : law.Lasting)
    (environment : String) :
    law.OfIndex here path (Cache.openAt files here path environment).1 ∧
      ∀ c, (Cache.openAt files here path environment).2 = .ok c →
        Obeys law here path environment (Cache.openAt files here path environment).1 c := by
  unfold Cache.openAt
  cases loaded : Index.load? files here path with
  | none =>
    refine ⟨obeys, fun c opened => ?_⟩
    cases opened
    exact ⟨rfl, rfl, lasting.empty _, obeys⟩
  | some i =>
    have records : law i.environment (Keyed.ofList Descriptor.key i.entries)
        (Keyed.ofList Miss.key i.misses) :=
      lasting.loaded (obeys i (Index.storedAt_of_load? loaded))
    by_cases same : i.environment = environment
    · simp only [if_pos same]
      refine ⟨obeys, fun c opened => ?_⟩
      cases opened
      exact ⟨rfl, rfl, same ▸ records, obeys⟩
    · simp only [if_neg same]
      set c := Cache.ofIndex path environment i
      have index : law.OfIndex here path (c.clearing.run c files here).1 :=
        obeys.run (c.entries.map Descriptor.artifact) rfl
          (by simp [clearing, Function.comp_def]) (lasting.empty _)
      unfold Cache.clear Transaction.answer
      rcases ran : c.clearing.run c files here with ⟨files', c', _ | fault⟩
      · rw [ran] at index
        refine ⟨index, fun c'' opened => ?_⟩
        cases opened
        obtain ⟨rfl, -⟩ := Transaction.run_ok ran
        exact ⟨rfl, rfl, lasting.empty _, index⟩
      · rw [ran] at index
        exact ⟨index, fun c'' opened => by cases opened⟩

end Cache
end SimWorkbench
