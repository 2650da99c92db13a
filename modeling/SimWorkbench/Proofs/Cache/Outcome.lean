import SimWorkbench.Proofs.Cache.Law

/-!
# What the operations of a cache leave

An operation changes the records in memory even if the index cannot be saved then. Besides the index
and its temporary it changes a file only where it discards an executable, however far it comes.
-/
namespace SimWorkbench.Cache

variable {c old : Cache} {files : FileTree} {here l : Location} {digest : Digest}
  {source artifact : Path} {package : String} {d : Descriptor}

/-- The cache without the entry for a source. -/
def withoutEntry (c : Cache) (here : Location) (source : Path) : Cache :=
  { c with entries := Keyed.drop Descriptor.key (key here source) c.entries }

/-- The cache without the miss of a source. -/
def withoutMiss (c : Cache) (here : Location) (source : Path) : Cache :=
  { c with misses := Keyed.drop Miss.key (key here source) c.misses }

/-- The cache with an entry, instead of what it knew of the entry's source. -/
def withEntry (c : Cache) (d : Descriptor) : Cache :=
  { c with
    entries := Keyed.put Descriptor.key d c.entries
    misses := Keyed.drop Miss.key d.key c.misses }

/-- The cache with a miss, instead of an older one of its source. -/
def withMiss (c : Cache) (m : Miss) : Cache :=
  { c with misses := Keyed.put Miss.key m c.misses }

/-- The files after executables were discarded and the cache was saved, however far that came. -/
def swept (c : Cache) (here : Location) (discarded : List Path) (files : FileTree) : FileTree :=
  (Effect.performAll files here (discarded.map .discard ++ c.saving)).1

/-- A transaction that changes the cache first reaches its cache. -/
theorem run_of_nil {x : Transaction} (first : x.before = []) :
    x.run old files here =
      ((Effect.performAll files here x.after).1, x.cache,
        (Effect.performAll files here x.after).2) := by
  unfold Transaction.run
  rw [first, Effect.performAll]

theorem answer_of_nil {α : Type} {x : Transaction} (first : x.before = []) (value : α) :
    (x.answer old files here value).files = (Effect.performAll files here x.after).1 ∧
      (x.answer old files here value).cache = x.cache ∧
      ((x.answer old files here value).answer = .ok value ∨
        ∃ fault, (x.answer old files here value).answer = .error fault) := by
  unfold Transaction.answer
  rw [run_of_nil first]
  rcases Effect.performAll files here x.after with ⟨after, _ | fault⟩
  · exact ⟨rfl, rfl, .inl rfl⟩
  · exact ⟨rfl, rfl, .inr ⟨fault, rfl⟩⟩

/-- A transaction whose effects are all done answers with its value. -/
theorem answer_of_saved {α : Type} {x : Transaction} (first : x.before = []) (value : α)
    (saved : (Effect.performAll files here x.after).2 = none) :
    (x.answer old files here value).answer = .ok value := by
  unfold Transaction.answer
  rw [run_of_nil first, saved]

theorem entry?_withEntry (c : Cache) (d : Descriptor) :
    Cache.entry? (c.withEntry d) here source =
      if d.key = key here source then some d else c.entry? here source :=
  Keyed.get?_put Descriptor.key d _ _

/-- What was stored for a source is found under it. -/
theorem entry?_stored (c : Cache) (digest : Digest) (files : FileTree) (here : Location)
    (source artifact : Path) (package : String) :
    Cache.entry? (c.withEntry (entryOf digest files here source artifact package)) here source =
      some (entryOf digest files here source artifact package) := by
  rw [entry?_withEntry]
  exact if_pos rfl

theorem lookup_of_none (missing : c.entry? here source = none) :
    c.lookup digest files here source = ⟨files, c, none⟩ := by
  simp only [lookup, missing]

theorem lookup_of_current (found : c.entry? here source = some d)
    (current : outdated digest files here d = false) :
    c.lookup digest files here source = ⟨files, c, some d⟩ := by
  simp only [lookup, found, current, Bool.false_eq_true, if_false]

theorem lookup_of_outdated (found : c.entry? here source = some d)
    (stale : outdated digest files here d = true) :
    c.lookup digest files here source =
      ⟨(c.withoutEntry here source).swept here [d.artifact] files, c.withoutEntry here source,
        none⟩ := by
  simp only [lookup, found, stale, if_true]
  rw [run_of_nil rfl]
  rfl

theorem invalidate_of_found (files : FileTree) (found : c.entry? here source = some d) :
    (c.invalidate files here source).files =
        ((c.withoutMiss here source).withoutEntry here source).swept here [d.artifact] files ∧
      (c.invalidate files here source).cache =
        (c.withoutMiss here source).withoutEntry here source := by
  simp only [invalidate, found]
  obtain ⟨isFiles, isCache, -⟩ := @answer_of_nil (c.withoutMiss here source) files here Bool
    ((c.withoutMiss here source).removal here d source) rfl true
  exact ⟨isFiles, isCache⟩

theorem invalidate_of_none (files : FileTree) (missing : c.entry? here source = none) :
    (c.invalidate files here source).files = files ∧ (c.invalidate files here source).cache = c ∨
      (c.invalidate files here source).files =
          (c.withoutMiss here source).swept here [] files ∧
        (c.invalidate files here source).cache = c.withoutMiss here source := by
  simp only [invalidate, missing]
  split
  · obtain ⟨isFiles, isCache, -⟩ := @answer_of_nil c files here Bool
      ⟨[], c.withoutMiss here source, (c.withoutMiss here source).saving⟩ rfl true
    exact .inr ⟨isFiles, isCache⟩
  · exact .inl ⟨rfl, rfl⟩

theorem store_outcome (c : Cache) (digest : Digest) (files : FileTree) (here : Location)
    (source artifact : Path) (package : String) :
    let d := entryOf digest files here source artifact package
    let done := c.store digest files here source artifact package
    done.files = (c.withEntry d).swept here [] files ∧ done.cache = c.withEntry d ∧
      (done.answer = .ok d ∨ ∃ fault, done.answer = .error fault) := by
  intro d done
  exact @answer_of_nil c files here Descriptor ⟨[], c.withEntry d, (c.withEntry d).saving⟩ rfl d

theorem recordMiss_outcome (c : Cache) (digest : Digest) (files : FileTree) (here : Location)
    (source : Path) :
    let m := missOf digest files here source
    let done := c.recordMiss digest files here source
    done.files = (c.withMiss m).swept here [] files ∧ done.cache = c.withMiss m ∧
      (done.answer = .ok m ∨ ∃ fault, done.answer = .error fault) := by
  intro m done
  exact @answer_of_nil c files here Miss ⟨[], c.withMiss m, (c.withMiss m).saving⟩ rfl m

/-- Sweeping changes files at the discarded paths, at the index and at its temporary alone. -/
theorem swept_frame (c : Cache) (here : Location) (discarded : List Path) (files : FileTree) :
    FileTree.KeepsDirectories files (c.swept here discarded files) ∧
      ∀ l, l ≠ c.indexPath.location here → l ≠ c.temporary.location here →
        (∀ p ∈ discarded, l ≠ p.location here) →
          FileTree.GrowsAt files (c.swept here discarded files) l := by
  obtain ⟨kept, grows⟩ := Effect.performAll_frame (discarded.map .discard ++ c.saving) files here
  refine ⟨kept, fun l notIndex notTemporary notDiscarded => grows l fun e member => ?_⟩
  rcases List.mem_append.mp member with discard | saving
  · obtain ⟨p, isDiscarded, rfl⟩ := List.mem_map.mp discard
    simpa [Effect.touches] using notDiscarded p isDiscarded
  · exact not_touched_saving saving notIndex notTemporary

/-- Where the new records obey a law, so do cache and index when it was saved, however far that
came. -/
theorem Obeys.swept {law : Law} {path : Path} {environment : String}
    (obeys : Obeys law here path environment files c) (c' : Cache) (keeps : c'.indexPath = c.indexPath)
    (built : c'.environment = c.environment)
    (records : law environment c'.entries c'.misses) (discarded : List Path) :
    Obeys law here path environment (c'.swept here discarded files) c' := by
  let x : Transaction := ⟨[], c', discarded.map .discard ++ c'.saving⟩
  have ran : Obeys law here path environment (x.run c files here).1 (x.run c files here).2.1 :=
    obeys.run discarded keeps built rfl records
  rwa [run_of_nil rfl] at ran

end SimWorkbench.Cache
