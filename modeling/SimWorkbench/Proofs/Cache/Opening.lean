import SimWorkbench.Proofs.Cache.Change
import SimWorkbench.Proofs.Cache.Schema
import SimWorkbench.Proofs.FileTree.Parent

/-!
# What opening a cache does

The cache is opened over any bytes or none. Only a document of the present version is taken over, and
only in its own environment; of records for one source the last one counts. A document of another
environment is replaced by an empty one, after the executables it counts are gone. Opening is refused
only where one of them cannot be deleted or the empty document cannot be saved.
-/
namespace SimWorkbench

/-- Whether bytes are a well-formed index document of the present version, and of which index. -/
def Index.Describes (content : Bytes) (i : Index) : Prop :=
  ∃ text v, Text.Utf8.toString? content = some text ∧ Json.read? text.toList = some v ∧ Encodes v i

theorem Index.load?_eq_some_iff {files : FileTree} {here : Location} {path : Path} {i : Index} :
    load? files here path = some i ↔
      ∃ content, files.read here path = .ok content ∧ Describes content i := by
  unfold load? FileTree.readText Describes
  cases read : files.read here path with
  | error cause => simp [bind, Except.bind]
  | ok content =>
    cases decoded : Text.Utf8.toString? content with
    | none => simp [bind, Except.bind, decoded]
    | some text =>
      simp [bind, Except.bind, decoded, read?, Option.bind_eq_some_iff, ofJson?_eq_some_iff]

theorem Index.load?_eq_none_iff {files : FileTree} {here : Location} {path : Path} :
    load? files here path = none ↔
      ∀ content, files.read here path = .ok content → ∀ i, ¬ Describes content i := by
  rw [Option.eq_none_iff_forall_ne_some]
  simp only [ne_eq, load?_eq_some_iff, not_exists, not_and]
  exact ⟨fun h content read i => h i content read, fun h i content read => h content read i⟩

namespace Cache

variable {here : Location} {path : Path} {environment : String} {files after : FileTree}
  {c : Cache} {i : Index} {fault : FileFault} {d : Descriptor}

/-- Whether a cache has the records of an index, where the last one of a source counts. -/
structure TakenOver (path : Path) (i : Index) (c : Cache) : Prop where
  indexPath : c.indexPath = path
  environment : c.environment = i.environment
  entries : ∀ k, Keyed.get? Descriptor.key k c.entries = i.entries.reverse.find? (·.key == k)
  misses : ∀ k, Keyed.get? Miss.key k c.misses = i.misses.reverse.find? (·.key == k)
  inOrder : c.InOrder

theorem takenOver_ofIndex (path : Path) (i : Index) :
    TakenOver path i (ofIndex path i.environment i) where
  indexPath := rfl
  environment := rfl
  entries k := Keyed.get?_ofList _ k _
  misses k := Keyed.get?_ofList _ k _
  inOrder := .ofIndex ..

/-- Whether an entry counts: it is the last one of its source. -/
def Counts (i : Index) (d : Descriptor) : Prop := i.entries.reverse.find? (·.key == d.key) = some d

theorem counts_iff : Counts i d ↔ d ∈ (ofIndex path environment i).entries := by
  rw [Counts, ← Keyed.get?_ofList]
  exact ⟨fun found => (Keyed.get?_mem found).1, (Keyed.ordered_ofList _ _).get?_of_mem⟩

/-- The deletions of a cache that is cleared. -/
def disposals (c : Cache) : List Effect := (c.entries.map Descriptor.artifact).map .discard

/-- Whether clearing a cache is refused: an executable cannot be deleted, or all are gone and the
empty index cannot be saved. -/
def ClearRefused (here : Location) (files : FileTree) (c : Cache) (fault : FileFault) : Prop :=
  (Effect.performAll files here c.disposals).2 = some fault ∨
    ∃ bare, Effect.performAll files here c.disposals = (bare, none) ∧
      (Effect.performAll bare here c.emptied.saving).2 = some fault

/-- Whether a cache is cleared: all executables are gone, and the empty index is saved. -/
def Cleared (here : Location) (files : FileTree) (c : Cache) (after : FileTree) : Prop :=
  ∃ bare, Effect.performAll files here c.disposals = (bare, none) ∧
    Effect.performAll bare here c.emptied.saving = (after, none)

theorem clear_cases (c : Cache) (here : Location) (files : FileTree) :
    (Cleared here files c (c.clear files here).files ∧ (c.clear files here).cache = c.emptied ∧
        ∃ n, (c.clear files here).answer = .ok n) ∨
      ∃ fault, ClearRefused here files c fault ∧ (c.clear files here).answer = .error fault := by
  have deletions : c.clearing.before = c.disposals := by simp [clearing, disposals]
  unfold clear Transaction.answer Transaction.run
  rw [deletions]
  rcases deleted : Effect.performAll files here c.disposals with ⟨bare, _ | fault⟩
  · dsimp only
    rcases saved : Effect.performAll bare here c.clearing.after with ⟨after, _ | fault⟩
    · exact .inl ⟨⟨bare, deleted, saved⟩, rfl, _, rfl⟩
    · exact .inr ⟨fault, .inr ⟨bare, deleted, congrArg Prod.snd saved⟩, rfl⟩
  · exact .inr ⟨fault, .inl (congrArg Prod.snd deleted), rfl⟩

theorem ClearRefused.not_cleared (refused : ClearRefused here files c fault) :
    ¬ Cleared here files c after := by
  rintro ⟨bare, deleted, saved⟩
  rcases refused with stuck | ⟨bare', deleted', stuck⟩
  · simp [deleted] at stuck
  · cases deleted.symm.trans deleted'
    simp [saved] at stuck

theorem ClearRefused.unique {fault' : FileFault} (refused : ClearRefused here files c fault)
    (refused' : ClearRefused here files c fault') : fault = fault' := by
  rcases refused with stuck | ⟨bare, deleted, stuck⟩ <;>
    rcases refused' with stuck' | ⟨bare', deleted', stuck'⟩
  · exact Option.some.inj (stuck.symm.trans stuck')
  · simp [deleted'] at stuck
  · simp [deleted] at stuck'
  · cases deleted.symm.trans deleted'
    exact Option.some.inj (stuck.symm.trans stuck')

/-- Saving a cache whose index is in a directory that is there makes no directories. It leaves a
file at the index, and what else it leaves was there before. -/
theorem saved_entries (named : FileTree.CanNameFile c.indexPath)
    (reached : files.Reached here c.indexPath)
    (saved : Effect.performAll files here c.saving = (after, none)) :
    after.get? (c.indexPath.location here) ≠ some .directory ∧
      ∀ l e, l ≠ c.indexPath.location here → after.get? l = some e → files.get? l = some e := by
  obtain ⟨made, makeDirs, rest⟩ := Effect.performAll_append_ok saved
  have unchanged : made = files := by
    cases parent : c.indexPath.parent? with
    | none =>
      rw [parent, Option.toList_none, List.map_nil, Effect.performAll] at makeDirs
      exact (congrArg Prod.fst makeDirs).symm
    | some above =>
      have kept := FileTree.makeDirs_parent named reached parent
      rw [parent] at makeDirs
      simp only [Option.toList_some, List.map_cons, List.map_nil, Effect.performAll,
        Effect.perform] at makeDirs
      split at makeDirs
      · rename_i performed
        cases makeDirs
        rw [performed] at kept
        exact kept
      · cases makeDirs
  subst unchanged
  simp only [Effect.performAll, Effect.perform] at rest
  cases wrote : made.write here c.temporary (Bytes.ofChars c.index.write) with
  | error cause => simp [wrote] at rest
  | ok written =>
    simp only [wrote] at rest
    cases moved : written.rename here c.temporary c.indexPath with
    | error cause => simp [moved] at rest
    | ok final =>
      simp only [moved, Prod.mk.injEq, and_true] at rest
      subst rest
      obtain ⟨names, -, unwritten⟩ := FileTree.write_ok wrote
      obtain ⟨namesIndex, -, document, -, isFile, rfl⟩ := FileTree.rename_ok moved
      refine ⟨?_, fun l e notIndex found => ?_⟩
      · rw [FileTree.get?_insert_self _ _ namesIndex.notRoot]
        simpa using isFile
      · rw [FileTree.get?_insert_ne notIndex] at found
        by_cases temporary : l = c.temporary.location here
        · rw [temporary, FileTree.get?_erase_self names.notRoot] at found
          cases found
        · rw [FileTree.get?_erase_ne temporary] at found
          rcases unwritten with ⟨-, rfl⟩ | ⟨mode, rfl⟩
          · exact found
          · rwa [FileTree.get?_insert_ne temporary] at found

/-- Where a cache was cleared, the path of an executable leads to nothing but the index. -/
theorem Cleared.gone (cleared : Cleared here files c after)
    (named : FileTree.CanNameFile c.indexPath) (reached : files.Reached here c.indexPath)
    (member : d ∈ c.entries) (apart : d.artifact.location here ≠ c.indexPath.location here)
    (l : Location) (e : Entry) : after.locate here d.artifact ≠ .ok (l, e) := by
  obtain ⟨bare, deleted, saved⟩ := cleared
  intro located
  obtain ⟨removed, kept⟩ := Effect.performAll_discards deleted
  have directories : FileTree.KeepsDirectories files bare := by
    have frame := (Effect.performAll_frame c.disposals files here).1
    rwa [deleted] at frame
  obtain ⟨indexFile, before⟩ := saved_entries (c := c.emptied) named (reached.mono directories) saved
  -- what is found now was found before the document was saved
  have isLocation := FileTree.locate_location located
  have inBare : bare.locate here d.artifact = .ok (l, e) := by
    refine FileTree.locate_mono (fun m directory => ?_) located
      (before l e (isLocation ▸ apart) (FileTree.locate_get? located))
    exact before m _ (fun isIndex => indexFile (isIndex ▸ directory)) directory
  -- and before the executables were deleted
  have same : ∀ m e', bare.get? m = some e' → files.get? m = some e' := by
    intro m e' found
    by_cases discarded : Effect.Discards files here (c.entries.map Descriptor.artifact) m
    · rw [(removed m discarded).2.2] at found
      cases found
    · rw [← kept m discarded, found]
  have inFiles := FileTree.locate_mono (fun m => same m _) inBare
    (same l e (FileTree.locate_get? inBare))
  have gone := (removed l ⟨_, List.mem_map_of_mem member, e, inFiles⟩).2.2
  rw [FileTree.locate_get? inBare] at gone
  cases gone

/-- The document of a cache that was cleared is empty. -/
theorem Cleared.load? (cleared : Cleared here files c after)
    (writable : Writable here c.indexPath files) :
    Index.load? after here c.indexPath = some ⟨c.environment, [], []⟩ := by
  obtain ⟨bare, deleted, saved⟩ := cleared
  let x : Change := ⟨c.entries.map Descriptor.artifact, c.emptied, true⟩
  have performed : Effect.performAll files here x.effects = (after, none) := by
    have first : Effect.performAll files here x.deletions = _ := deleted
    rw [Change.effects, Effect.performAll_append, first]
    exact saved
  exact load?_of_performed (x := x) writable performed

/-- Whether an index lists nothing. -/
def listsNothing : Law := fun _ entries misses => entries = [] ∧ misses = []

theorem listsNothing_lasting : listsNothing.Lasting where
  empty _ := ⟨rfl, rfl⟩
  dropEntry := fun ⟨noEntries, noMisses⟩ _ => ⟨by rw [noEntries]; rfl, noMisses⟩
  dropMiss := fun ⟨noEntries, noMisses⟩ _ => ⟨noEntries, by rw [noMisses]; rfl⟩
  loaded := fun ⟨noEntries, noMisses⟩ => ⟨by rw [noEntries]; rfl, by rw [noMisses]; rfl⟩

/-- Where the index is empty, every cache is opened empty until a document comes to the index. -/
theorem openAt_of_listsNothing {later : FileTree} {environment' : String}
    (loaded : Index.load? after here path = some ⟨environment, [], []⟩)
    (leaves : FileTree.NothingNewAt after later (path.location here))
    (opened : (openAt later here path environment').2 = .ok c) :
    c = ⟨path, environment', [], []⟩ := by
  have obeys : listsNothing.OfIndex here path after := by
    rintro i ⟨e, content, text, found, readable, decoded, document⟩
    obtain ⟨content', read, text', v, decoded', value, encodes⟩ :=
      Index.load?_eq_some_iff.mp loaded
    obtain ⟨l, e', located, readable'⟩ := FileTree.read_ok_iff.mp read
    have found' := FileTree.locate_get? located
    rw [FileTree.locate_location located, found] at found'
    cases found'
    cases readable.symm.trans readable'
    cases decoded.symm.trans decoded'
    rw [Index.read?, value, Option.bind_some, Index.ofJson?_eq_some_iff.mpr encodes] at document
    cases document
    exact ⟨rfl, rfl⟩
  obtain ⟨keeps, built, ⟨noEntries, noMisses⟩, -⟩ :=
    ((obeys.leaves leaves).openAt listsNothing_lasting environment').2 c opened
  cases c
  cases keeps
  cases built
  cases noEntries
  cases noMisses
  rfl

/-- What opening a cache does to files that lie as `files` did. -/
structure Opening (here : Location) (path : Path) (environment : String) (files after : FileTree)
    (answer : Except FileFault Cache) : Prop where
  /-- It is refused exactly where a document of another environment cannot be discarded. -/
  refused : ∀ fault, answer = .error fault ↔
    ∃ content i, files.read here path = .ok content ∧ Index.Describes content i ∧
      i.environment ≠ environment ∧ ClearRefused here files (ofIndex path environment i) fault
  /-- A document of the environment is taken over. -/
  same : ∀ content i, files.read here path = .ok content → Index.Describes content i →
    i.environment = environment →
      after = files ∧ ∃ c, answer = .ok c ∧ TakenOver path i c
  /-- Without a document the cache is empty. -/
  blank : (∀ content, files.read here path = .ok content → ∀ i, ¬ Index.Describes content i) →
    after = files ∧ answer = .ok ⟨path, environment, [], []⟩
  /-- A document of another environment is replaced by an empty one. -/
  other : ∀ content i c, files.read here path = .ok content → Index.Describes content i →
    i.environment ≠ environment → answer = .ok c →
      c = ⟨path, environment, [], []⟩ ∧
      (∀ d, Counts i d → d.artifact.location here ≠ path.location here →
        ∀ l e, after.locate here d.artifact ≠ .ok (l, e)) ∧
      (Writable here path files →
        (∃ document, after.read here path = .ok document ∧
          Index.Describes document ⟨environment, [], []⟩) ∧
        ∀ later, FileTree.NothingNewAt after later (path.location here) →
          ∀ environment' c', (openAt later here path environment').2 = .ok c' →
            c' = ⟨path, environment', [], []⟩)

/-- Over bytes that are no document the cache is empty. -/
theorem opening_of_none (loaded : Index.load? files here path = none) :
    Opening here path environment files (openAt files here path environment).1
      (openAt files here path environment).2 := by
  have nothing := Index.load?_eq_none_iff.mp loaded
  have opened : openAt files here path environment = (files, .ok ⟨path, environment, [], []⟩) := by
    simp only [openAt, loaded]
  rw [opened]
  refine ⟨fun fault => ⟨(by intro failed; cases failed), ?_⟩, ?_, fun _ => ⟨rfl, rfl⟩, ?_⟩
  · rintro ⟨content, i, read, describes, -⟩
    exact absurd describes (nothing content read i)
  · exact fun content i read describes => absurd describes (nothing content read i)
  · exact fun content i _ read describes => absurd describes (nothing content read i)

/-- The bytes of an index that is loaded describe that index alone. -/
theorem describes_unique (loaded : Index.load? files here path = some i) {content : Bytes}
    {j : Index} (read : files.read here path = .ok content) (describes : Index.Describes content j) :
    j = i :=
  Option.some.inj ((Index.load?_eq_some_iff.mpr ⟨content, read, describes⟩).symm.trans loaded)

/-- The document of the environment itself is taken over. -/
theorem opening_of_same (loaded : Index.load? files here path = some i)
    (same : i.environment = environment) :
    Opening here path environment files (openAt files here path environment).1
      (openAt files here path environment).2 := by
  obtain ⟨content, read, describes⟩ := Index.load?_eq_some_iff.mp loaded
  have opened : openAt files here path environment = (files, .ok (ofIndex path environment i)) := by
    simp only [openAt, loaded, if_pos same]
  rw [opened]
  refine ⟨fun fault => ⟨(by intro failed; cases failed), ?_⟩,
    fun _ j read' describes' _ => ⟨rfl, _, rfl, ?_⟩, ?_, ?_⟩
  · rintro ⟨_, j, read', describes', other, -⟩
    cases describes_unique loaded read' describes'
    exact absurd same other
  · cases describes_unique loaded read' describes'
    exact same ▸ takenOver_ofIndex path i
  · exact fun nothing => absurd describes (nothing content read i)
  · intro _ j _ read' describes' other
    cases describes_unique loaded read' describes'
    exact absurd same other

/-- The cache of another environment's document is cleared. -/
theorem openAt_of_other (loaded : Index.load? files here path = some i)
    (other : i.environment ≠ environment) :
    openAt files here path environment =
      (((ofIndex path environment i).clear files here).files,
        ((ofIndex path environment i).clear files here).answer.map fun _ =>
          ((ofIndex path environment i).clear files here).cache) := by
  simp only [openAt, loaded, if_neg other]
  rcases (ofIndex path environment i).clear files here with ⟨after, c, _ | n⟩ <;> rfl

/-- The document of another environment is cleared away. -/
theorem opening_of_other (loaded : Index.load? files here path = some i)
    (other : i.environment ≠ environment) :
    Opening here path environment files (openAt files here path environment).1
      (openAt files here path environment).2 := by
  obtain ⟨content, read, describes⟩ := Index.load?_eq_some_iff.mp loaded
  obtain ⟨named, reached, -⟩ := FileTree.read_iff.mp read
  have isClear := openAt_of_other loaded other
  rcases clear_cases (ofIndex path environment i) here files with
    ⟨cleared, isEmptied, n, answer⟩ | ⟨fault, refused, answer⟩
  · rw [isClear, answer, isEmptied]
    refine ⟨fun fault => ⟨(by intro failed; cases failed), ?_⟩, ?_,
      fun nothing => absurd describes (nothing content read i), ?_⟩
    · rintro ⟨_, j, read', describes', -, refused⟩
      cases describes_unique loaded read' describes'
      exact absurd cleared refused.not_cleared
    · intro _ j read' describes' same
      cases describes_unique loaded read' describes'
      exact absurd same other
    · intro _ j c read' describes' _ opened
      cases describes_unique loaded read' describes'
      cases opened
      refine ⟨rfl, fun d counts apart => ?_, fun writable => ?_⟩
      · exact cleared.gone named reached (counts_iff.mp counts) apart
      · have loaded' := cleared.load? writable
        exact ⟨Index.load?_eq_some_iff.mp loaded',
          fun _ leaves _ _ => openAt_of_listsNothing loaded' leaves⟩
  · rw [isClear, answer]
    refine ⟨fun fault' => ⟨fun isFault => ?_, ?_⟩, ?_,
      fun nothing => absurd describes (nothing content read i), nofun⟩
    · cases isFault
      exact ⟨content, i, read, describes, other, refused⟩
    · rintro ⟨_, j, read', describes', -, refused'⟩
      cases describes_unique loaded read' describes'
      exact congrArg Except.error (refused.unique refused')
    · intro _ j read' describes' same
      cases describes_unique loaded read' describes'
      exact absurd same other

theorem opening (here : Location) (path : Path) (environment : String) (files : FileTree) :
    Opening here path environment files (openAt files here path environment).1
      (openAt files here path environment).2 := by
  cases loaded : Index.load? files here path with
  | none => exact opening_of_none loaded
  | some i =>
    by_cases same : i.environment = environment
    · exact opening_of_same loaded same
    · exact opening_of_other loaded same

end Cache
end SimWorkbench
