import SimWorkbench.Proofs.Build.Stages
import SimWorkbench.Proofs.Build.History

/-!
# Which files a request may touch

The executables of the entries are in different places, each the place of a unit that some source
declares. From the check of the owners to the storing of the executable no entry of another model
holds the place that a request builds at. So a request leaves the records and the executables of
other models alone, and all files outside of what the build writes.
-/
namespace SimWorkbench

open FileTree (KeepsDirectories GrowsAt)

namespace Grounds

variable (g : Grounds)

/-- A pipeline of the project whose generator changes no file and whose compiler writes the output
it is asked for alone. -/
structure Orderly (w : Workshop) : Prop extends g.Site w where
  generatorSilent : ∀ files model l, (w.generator files model).1.get? l = files.get? l
  compilerWrites : ∀ files job l, (w.site.compiler.compile files job).1.get? l = files.get? l ∨
    l = job.output.location g.here ∧ files.get? l ≠ some .directory

/-- Where the executable of a unit is. -/
def place (u : SourceUnit) : Location :=
  (g.layout.artifactFile u.package u.typeName).location g.here

/-- Whether each entry has a place of its own, which is that of a declared unit. -/
structure Owned (entries : List Descriptor) (misses : List Miss) : Prop where
  ordered : Keyed.Ordered Descriptor.key entries
  orderedMisses : Keyed.Ordered Miss.key misses
  placed : ∀ d ∈ entries, ∃ u : SourceUnit, u.Declared ∧
    d.artifact = (g.layout.artifactFile u.package u.typeName).normalised g.here.path
  unique : ∀ d ∈ entries, ∀ e ∈ entries,
    d.artifact.location g.here = e.artifact.location g.here → d = e

/-- The law that entries do not share places. -/
def ownership : Cache.Law := fun _ entries misses => g.Owned entries misses

/-- Whether no entry of another model holds the place of a unit. -/
def Free (c : Cache) (model : Path) (u : SourceUnit) : Prop :=
  ∀ d ∈ c.entries, d.artifact.location g.here = g.place u → d.key = Cache.key g.here model

/-- What is known of a request once it has passed the check of the owners. -/
def Claimed (c : Cache) (model : Path) : Request → Prop
  | .invoking (.writeSource u _) | .invoking (.clearOutput u) | .invoking (.callCompiler u)
  | .invoking (.inspect u _) => u.Declared ∧ g.Free c model u
  | .invoking (.finished result) => ∃ cause, result = .error (.malformed cause)
  | .store built => ∃ u : SourceUnit, u.Declared ∧ g.Free c model u ∧
      built.artifact = g.layout.artifactFile u.package u.typeName
  | _ => True

/-- Whether requests for a model may not touch a location: it is no place that the build writes,
or the place of another model's executable. -/
structure Sheltered (c : Cache) (model : Path) (l : Location) : Prop where
  notIndex : l ≠ g.index
  notTemporary : l ≠ g.layout.temporary.location g.here
  notSource : ∀ u : SourceUnit, u.Declared →
    l ≠ (g.layout.sourceFile u.package u.typeName).location g.here
  owned : ∀ u : SourceUnit, u.Declared → l = g.place u →
    ∃ d ∈ c.entries, d.key ≠ Cache.key g.here model ∧ d.artifact.location g.here = l

/-- Whether all that belongs to other models than the given one is as it was. -/
structure Spares (model : Path) (b b' : Bench) : Prop where
  entries : ∀ k ≠ Cache.key g.here model,
    Keyed.get? Descriptor.key k b'.cache.entries = Keyed.get? Descriptor.key k b.cache.entries
  misses : ∀ k ≠ Cache.key g.here model,
    Keyed.get? Miss.key k b'.cache.misses = Keyed.get? Miss.key k b.cache.misses
  directories : KeepsDirectories b.files b'.files
  files : ∀ l, g.Sheltered b.cache model l → GrowsAt b.files b'.files l

variable {g} {w : Workshop} {model : Path} {b b' b'' : Bench} {c : Cache} {environment : String}
  {files : FileTree} {u v : SourceUnit} {l : Location}

theorem place_eq (g : Grounds) (declared : u.Declared) :
    g.place u = g.layout.classesDir.location g.here ++ [u.package, u.typeName] :=
  Layout.location_artifactFile g.here declared

/-- The place of an executable tells its unit. -/
theorem place_injective (declaredU : u.Declared) (declaredV : v.Declared)
    (same : g.place u = g.place v) : u = v :=
  Layout.artifactFile_injective declaredU declaredV same

/-- No source is in the place of an executable. -/
theorem place_ne_source (g : Grounds) (declaredU : u.Declared) (declaredV : v.Declared) :
    g.place u ≠ (g.layout.sourceFile v.package v.typeName).location g.here :=
  Layout.artifactFile_ne_sourceFile declaredU declaredV

theorem Owned.place_of_mem {entries : List Descriptor} {misses : List Miss}
    (owned : g.Owned entries misses) {d : Descriptor} (member : d ∈ entries) :
    ∃ u : SourceUnit, u.Declared ∧ d.artifact.location g.here = g.place u ∧
      d.artifact = (g.layout.artifactFile u.package u.typeName).normalised g.here.path := by
  obtain ⟨u, declared, artifact⟩ := owned.placed d member
  refine ⟨u, declared, ?_, artifact⟩
  rw [artifact, Path.location_normalised _ g.proper, place]

theorem Owned.dropEntry {entries : List Descriptor} {misses : List Miss}
    (owned : g.Owned entries misses) (key : List (List Nat)) :
    g.Owned (Keyed.drop Descriptor.key key entries) misses where
  ordered := owned.ordered.drop key
  orderedMisses := owned.orderedMisses
  placed d kept := owned.placed d (Keyed.mem_drop.mp kept).1
  unique d keptD e keptE := owned.unique d (Keyed.mem_drop.mp keptD).1 e (Keyed.mem_drop.mp keptE).1

theorem Owned.dropMiss {entries : List Descriptor} {misses : List Miss}
    (owned : g.Owned entries misses) (key : List (List Nat)) :
    g.Owned entries (Keyed.drop Miss.key key misses) :=
  { owned with orderedMisses := owned.orderedMisses.drop key }

theorem ownership_lasting (g : Grounds) : g.ownership.Lasting where
  empty _ := ⟨.nil, .nil, by simp, by simp⟩
  dropEntry owned key := owned.dropEntry key
  dropMiss owned key := owned.dropMiss key
  loaded owned := by
    rwa [Keyed.ofList_ordered owned.ordered, Keyed.ofList_ordered owned.orderedMisses]

/-- Whoever stores an executable at a place that is free for its model owns it alone. -/
theorem Owned.withEntry (owned : g.Owned c.entries c.misses) (declared : u.Declared)
    (free : g.Free c model u) (digest : Digest) (package : String) :
    let d := Cache.entryOf digest files g.here model (g.layout.artifactFile u.package u.typeName)
      package
    g.Owned (c.withEntry d).entries (c.withEntry d).misses := by
  intro d
  have ordered : Keyed.Ordered Descriptor.key (c.withEntry d).entries := owned.ordered.put d
  have isPlace : d.artifact.location g.here = g.place u := by
    have artifact : d.artifact =
      (g.layout.artifactFile u.package u.typeName).normalised g.here.path := rfl
    rw [artifact, Path.location_normalised _ g.proper, place]
  have rivals : ∀ e ∈ (c.withEntry d).entries,
      e.artifact.location g.here = d.artifact.location g.here → e = d := by
    intro e member same
    rcases Keyed.mem_put member with rfl | before
    · rfl
    · have key : e.key = d.key := free e before (same.trans isPlace)
      have found := ordered.get?_of_mem member
      rw [key, Cache.withEntry, Keyed.get?_put, if_pos rfl, Option.some.injEq] at found
      exact found.symm
  refine ⟨ordered, owned.orderedMisses.drop _, fun e member => ?_, fun e memberE f memberF same => ?_⟩
  · rcases Keyed.mem_put member with rfl | before
    · exact ⟨u, declared, rfl⟩
    · exact owned.placed e before
  · rcases Keyed.mem_put memberE with rfl | beforeE
    · exact (rivals f memberF same.symm).symm
    · rcases Keyed.mem_put memberF with rfl | beforeF
      · exact rivals e memberE same
      · exact owned.unique e beforeE f beforeF same

theorem Spares.refl (g : Grounds) (model : Path) (b : Bench) : g.Spares model b b :=
  ⟨fun _ _ => rfl, fun _ _ => rfl, .refl _, fun _ _ => .inl rfl⟩

theorem Sheltered.spared (sheltered : g.Sheltered b.cache model l)
    (owned : g.Owned b.cache.entries b.cache.misses) (spares : g.Spares model b b') :
    g.Sheltered b'.cache model l := by
  refine { sheltered with owned := fun u declared isPlace => ?_ }
  obtain ⟨d, member, other, same⟩ := sheltered.owned u declared isPlace
  have found : Keyed.get? Descriptor.key d.key b'.cache.entries = some d := by
    rw [spares.entries d.key other]
    exact owned.ordered.get?_of_mem member
  exact ⟨d, (Keyed.get?_mem found).1, other, same⟩

theorem Spares.trans (owned : g.Owned b.cache.entries b.cache.misses) (first : g.Spares model b b')
    (second : g.Spares model b' b'') : g.Spares model b b'' where
  entries k other := (second.entries k other).trans (first.entries k other)
  misses k other := (second.misses k other).trans (first.misses k other)
  directories := first.directories.trans second.directories
  files l sheltered :=
    (first.files l sheltered).trans (second.files l (sheltered.spared owned first))

/-- Discarding executables of the model and saving the cache touches nothing that is sheltered. -/
theorem sheltered_swept (owned : g.Owned c.entries c.misses) (c' : Cache)
    (keeps : c'.indexPath = g.layout.cacheIndex) (model : Path) (discarded : List Path)
    (files : FileTree)
    (own : ∀ p ∈ discarded, ∃ d ∈ c.entries, d.key = Cache.key g.here model ∧ p = d.artifact) :
    KeepsDirectories files (c'.swept g.here discarded files) ∧
      ∀ l, g.Sheltered c model l → GrowsAt files (c'.swept g.here discarded files) l := by
  obtain ⟨kept, grows⟩ := Cache.swept_frame c' g.here discarded files
  refine ⟨kept, fun l sheltered => grows l ?_ ?_ fun p isDiscarded => ?_⟩
  · rw [keeps]
    exact sheltered.notIndex
  · rw [Cache.temporary, keeps]
    exact sheltered.notTemporary
  · obtain ⟨d, member, isOwn, rfl⟩ := own p isDiscarded
    rintro rfl
    obtain ⟨u, declared, isPlace, -⟩ := owned.place_of_mem member
    obtain ⟨e, member', other, same⟩ := sheltered.owned u declared isPlace
    exact other (owned.unique e member' d member same ▸ isOwn)

/-- The refreshed bench obeys, and nothing of other models changed. -/
theorem spares_refreshed (site : g.Site w)
    (obeys : g.Obeys g.ownership environment b.files b.cache) :
    g.Obeys g.ownership environment (w.refreshed b model).files (w.refreshed b model).cache ∧
      g.Spares model b (w.refreshed b model) := by
  have owned : g.Owned b.cache.entries b.cache.misses := obeys.records
  have here := site.here
  cases found : b.cache.entry? w.here model with
  | none =>
    rw [Workshop.refreshed_of_none found]
    exact ⟨obeys, .refl g model b⟩
  | some d =>
    cases stale : Cache.outdated w.digest b.files w.here d with
    | false =>
      have same : w.refreshed b model = b := by
        simp only [Workshop.refreshed, Cache.lookup_of_current found stale]
      rw [same]
      exact ⟨obeys, .refl g model b⟩
    | true =>
      rw [Workshop.refreshed_of_outdated found stale, here]
      rw [here] at found
      obtain ⟨member, key⟩ := Cache.mem_of_found found
      have own : ∀ p ∈ [d.artifact], ∃ e ∈ b.cache.entries,
          e.key = Cache.key g.here model ∧ p = e.artifact := by
        simpa using ⟨d, member, key, rfl⟩
      obtain ⟨kept, grows⟩ := sheltered_swept owned (b.cache.withoutEntry g.here model) obeys.keeps
        model [d.artifact] b.files own
      refine ⟨obeys.swept (b.cache.withoutEntry g.here model) rfl rfl (owned.dropEntry _) _,
        fun k other => ?_, fun k other => rfl, kept, grows⟩
      exact (Keyed.get?_drop _ _ _ _).trans (if_neg other)

/-- Forgetting a model leaves a bench that obeys, and nothing of other models changed. -/
theorem spares_invalidate (site : g.Site w)
    (obeys : g.Obeys g.ownership environment b.files b.cache) (model : Path) :
    g.Obeys g.ownership environment (w.invalidate b model).1.files (w.invalidate b model).1.cache ∧
      g.Spares model b (w.invalidate b model).1 := by
  have owned : g.Owned b.cache.entries b.cache.misses := obeys.records
  simp only [Workshop.invalidate, site.here]
  have forgotten : ∀ k ≠ Cache.key g.here model,
      Keyed.get? Miss.key k (b.cache.withoutMiss g.here model).misses =
        Keyed.get? Miss.key k b.cache.misses :=
    fun k other => (Keyed.get?_drop _ _ _ _).trans (if_neg other)
  cases found : b.cache.entry? g.here model with
  | none =>
    rcases Cache.invalidate_of_none b.files found with ⟨files, cache⟩ | ⟨files, cache⟩
    · rw [files, cache]
      exact ⟨obeys, .refl g model b⟩
    · rw [files, cache]
      obtain ⟨kept, grows⟩ := sheltered_swept owned (b.cache.withoutMiss g.here model) obeys.keeps
        model [] b.files (by simp)
      exact ⟨obeys.swept (b.cache.withoutMiss g.here model) rfl rfl (owned.dropMiss _) _,
        fun k _ => rfl, forgotten, kept, grows⟩
  | some d =>
    obtain ⟨files, cache⟩ := Cache.invalidate_of_found b.files found
    rw [files, cache]
    obtain ⟨member, key⟩ := Cache.mem_of_found found
    have own : ∀ p ∈ [d.artifact], ∃ e ∈ b.cache.entries,
        e.key = Cache.key g.here model ∧ p = e.artifact := by
      simpa using ⟨d, member, key, rfl⟩
    obtain ⟨kept, grows⟩ := sheltered_swept owned
      ((b.cache.withoutMiss g.here model).withoutEntry g.here model) obeys.keeps model [d.artifact]
      b.files own
    refine ⟨obeys.swept ((b.cache.withoutMiss g.here model).withoutEntry g.here model) rfl rfl
      ((owned.dropMiss _).dropEntry _) _, fun k other => ?_, forgotten, kept, grows⟩
    exact (Keyed.get?_drop _ _ _ _).trans (if_neg other)

/-- A change of files at a location that is neither the index nor sheltered. -/
theorem spares_change {target : Location}
    (obeys : g.Obeys g.ownership environment b.files b.cache)
    (kept : KeepsDirectories b.files files) (grows : ∀ l ≠ target, GrowsAt b.files files l)
    (notIndex : g.index ≠ target) (exposed : ¬ g.Sheltered b.cache model target) :
    g.Obeys g.ownership environment files b.cache ∧ g.Spares model b ⟨files, b.cache⟩ := by
  refine ⟨obeys.leaves (grows g.index notIndex).nothingNewAt, fun _ _ => rfl, fun _ _ => rfl, kept,
    fun l sheltered => grows l ?_⟩
  rintro rfl
  exact exposed sheltered

theorem exposed_source (declared : u.Declared) :
    ¬ g.Sheltered c model ((g.layout.sourceFile u.package u.typeName).location g.here) :=
  fun sheltered => sheltered.notSource u declared rfl

theorem exposed_place (declared : u.Declared) (free : g.Free c model u) :
    ¬ g.Sheltered c model (g.place u) := by
  intro sheltered
  obtain ⟨d, member, other, isPlace⟩ := sheltered.owned u declared rfl
  exact other (free d member isPlace)

/-- A place that has no owner is free. -/
theorem free_of_unowned (site : g.Site w) (owned : g.Owned c.entries c.misses)
    (declared : u.Declared) (unowned : w.owner? c model u = none) : g.Free c model u := by
  intro d member isPlace
  obtain ⟨v, declaredV, isPlaceV, artifact⟩ := owned.place_of_mem member
  obtain rfl : v = u := place_injective declaredV declared (isPlaceV.symm.trans isPlace)
  have noOwner := List.find?_eq_none.mp unowned d member
  simp only [site.here, site.layout, ← artifact, Path.same, beq_self_eq_true, Bool.true_and,
    Bool.not_eq_true, Bool.not_eq_false', beq_iff_eq] at noOwner
  exact noOwner

end Grounds
end SimWorkbench
