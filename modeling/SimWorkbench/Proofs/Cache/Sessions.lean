import SimWorkbench.Proofs.Cache.Opening

/-!
# Caches of several environments at one index

Caches may be opened at one index one after another, or several at a time, in any environments. What
one of them answers was recorded in its own environment: an entry was stored in it by a cache of that
environment, or the document there was at first was of that environment and listed it.
-/
namespace SimWorkbench.Cache

variable {digest : Digest} {here : Location} {path : Path} {environment : String}
  {files₀ files files' : FileTree} {c : Cache} {stored fresh : List (String × Descriptor)}
  {caches : List Cache} {d : Descriptor} {source : Path}

/-- The entry that a request stores. -/
def storedBy (digest : Digest) (here : Location) (files : FileTree) : Request → Option Descriptor
  | .store source artifact package => some (entryOf digest files here source artifact package)
  | _ => none

/-- The environment and the entry that a request records. -/
def recordedBy (digest : Digest) (here : Location) (files : FileTree) (c : Cache)
    (request : Request) : List (String × Descriptor) :=
  (storedBy digest here files request).toList.map fun d => (c.environment, d)

/-- What happens at one index: from `files₀` on, caches are opened, serve requests and are dropped, in
any order, and other programs put no document at the index. The list keeps all that was stored, with
the environment of the cache that stored it. -/
inductive Sessions (digest : Digest) (here : Location) (path : Path) (files₀ : FileTree) :
    List (String × Descriptor) → FileTree → List Cache → Prop where
  | start : Sessions digest here path files₀ [] files₀ []
  | opened {s : List (String × Descriptor)} {t : FileTree} {cs : List Cache}
      (run : Sessions digest here path files₀ s t cs) (environment : String) :
    Sessions digest here path files₀ s (openAt t here path environment).1
      (cs ++ (openAt t here path environment).2.toOption.toList)
  | served {s : List (String × Descriptor)} {t : FileTree} {before after : List Cache} {c : Cache}
      (run : Sessions digest here path files₀ s t (before ++ c :: after)) (request : Request) :
    Sessions digest here path files₀ (s ++ recordedBy digest here t c request)
      (serve digest here t c request).files
      (before ++ (serve digest here t c request).cache :: after)
  | dropped {s : List (String × Descriptor)} {t : FileTree} {before after : List Cache} {c : Cache}
      (run : Sessions digest here path files₀ s t (before ++ c :: after)) :
    Sessions digest here path files₀ s t (before ++ after)
  | changed {s : List (String × Descriptor)} {t : FileTree} {cs : List Cache}
      (run : Sessions digest here path files₀ s t cs) (t' : FileTree)
      (leaves : FileTree.NothingNewAt t t' (path.location here)) :
    Sessions digest here path files₀ s t' cs

/-- Whether an entry comes from an environment: it was stored in it, or listed at first. -/
def ComesFrom (here : Location) (path : Path) (files₀ : FileTree)
    (stored : List (String × Descriptor)) (environment : String) (d : Descriptor) : Prop :=
  (environment, d) ∈ stored ∨
    ∃ i, Index.StoredAt files₀ (path.location here) i ∧ i.environment = environment ∧
      d ∈ i.entries

/-- All entries come from the environment they are listed in. -/
def ofOrigin (here : Location) (path : Path) (files₀ : FileTree)
    (stored : List (String × Descriptor)) : Law :=
  fun environment entries _ => ∀ d ∈ entries, ComesFrom here path files₀ stored environment d

theorem ofOrigin_lasting : (ofOrigin here path files₀ stored).Lasting where
  empty _ _ member := nomatch member
  dropEntry obeys _ d member := obeys d (List.mem_of_mem_filter member)
  dropMiss obeys _ := obeys
  loaded obeys d member := obeys d (Keyed.mem_ofList member)

theorem ComesFrom.more (comes : ComesFrom here path files₀ stored environment d)
    (fresh : List (String × Descriptor)) :
    ComesFrom here path files₀ (stored ++ fresh) environment d :=
  comes.imp_left (List.mem_append_left fresh)

theorem Obeys.more (obeys : Obeys (ofOrigin here path files₀ stored) here path environment files c)
    (fresh : List (String × Descriptor)) :
    Obeys (ofOrigin here path files₀ (stored ++ fresh)) here path environment files c :=
  obeys.imp fun listed d member => (listed d member).more fresh

theorem settle_files {α : Type} (wrap : α → Answer) (done : Answered (Except FileFault α)) :
    (settle wrap done).files = done.files ∧ (settle wrap done).cache = done.cache := by
  rcases done with ⟨files, c, _ | _⟩ <;> exact ⟨rfl, rfl⟩

/-- One request keeps the origins of a cache's entries and of its index, with what it stores. -/
theorem Obeys.serve (obeys : Obeys (ofOrigin here path files₀ stored) here path c.environment files c)
    (request : Request) :
    Obeys (ofOrigin here path files₀ (stored ++ recordedBy digest here files c request)) here path
      c.environment (serve digest here files c request).files
      (serve digest here files c request).cache := by
  have kept := obeys.more (recordedBy digest here files c request)
  cases request with
  | lookup source => exact kept.lookup ofOrigin_lasting digest source
  | isStale source => exact kept
  | isMiss source => exact kept
  | list => exact kept
  | clear =>
    obtain ⟨filesEq, cacheEq⟩ := settle_files .count (c.clear files here)
    rw [Cache.serve, filesEq, cacheEq]
    exact kept.clear ofOrigin_lasting
  | invalidate source =>
    obtain ⟨filesEq, cacheEq⟩ := settle_files .truth (c.invalidate files here source)
    rw [Cache.serve, filesEq, cacheEq]
    exact kept.invalidate ofOrigin_lasting source
  | recordMiss source =>
    obtain ⟨filesEq, cacheEq⟩ := settle_files .missed (c.recordMiss digest files here source)
    rw [Cache.serve, filesEq, cacheEq]
    exact kept.recordMiss kept.records
  | store source artifact package =>
    obtain ⟨filesEq, cacheEq⟩ := settle_files .stored
      (c.store digest files here source artifact package)
    rw [Cache.serve, filesEq, cacheEq]
    refine kept.store fun d member => ?_
    rcases Keyed.mem_put member with rfl | old
    · exact .inl (by simp [recordedBy, storedBy])
    · exact kept.records d old

/-- What holds of all caches at an index and of its document. -/
structure Separate (here : Location) (path : Path) (files₀ : FileTree)
    (stored : List (String × Descriptor)) (files : FileTree) (caches : List Cache) : Prop where
  index : (ofOrigin here path files₀ stored).OfIndex here path files
  caches : ∀ c ∈ caches, Obeys (ofOrigin here path files₀ stored) here path c.environment files c

/-- Another cache at the index obeys the law of its own records, and the document the index then
holds. -/
theorem Obeys.beside {other : Cache} {law : Law}
    (obeys : Obeys law here path other.environment files other)
    (index : law.OfIndex here path files') :
    Obeys law here path other.environment files' other :=
  { obeys with index := index }

/-- Along all that happens at an index, entries come from the environment they are listed in. -/
theorem Sessions.separate (run : Sessions digest here path files₀ stored files caches) :
    Separate here path files₀ stored files caches := by
  induction run with
  | start => exact ⟨fun i found d member => .inr ⟨i, found, rfl, member⟩, nofun⟩
  | @opened stored files caches run environment ih =>
    obtain ⟨index, new⟩ := ih.index.openAt ofOrigin_lasting environment
    refine ⟨index, fun c member => ?_⟩
    rcases List.mem_append.mp member with old | opened
    · exact (ih.caches c old).beside index
    · rcases answer : (openAt files here path environment).2 with fault | c'
      · simp [answer, Except.toOption] at opened
      · obtain rfl : c = c' := by simpa [answer, Except.toOption] using opened
        have obeys := new c answer
        exact obeys.built ▸ obeys
  | @served stored files before after c run request ih =>
    have done := @Obeys.serve digest _ _ _ _ _ _ (ih.caches c (by simp)) request
    refine ⟨done.index, fun c' member => ?_⟩
    rcases List.mem_append.mp member with old | later
    · exact ((ih.caches c' (by simp [old])).more _).beside done.index
    rcases List.mem_cons.mp later with rfl | old
    · exact done.built.symm ▸ done
    · exact ((ih.caches c' (by simp [old])).more _).beside done.index
  | dropped _ ih => exact ⟨ih.index, fun c member => ih.caches c (by
      rcases List.mem_append.mp member with old | old <;> simp [old])⟩
  | changed _ files' leaves ih =>
    exact ⟨ih.index.leaves leaves, fun c member => (ih.caches c member).leaves leaves⟩

/-- Whatever happened at an index before, opening it in an environment takes over exactly the document
of that environment and clears away that of another; and no cache answers with an entry that does not
come from its own environment. -/
theorem opening_separate (run : Sessions digest here path files₀ stored files caches) :
    (∀ environment, Opening here path environment files (openAt files here path environment).1
      (openAt files here path environment).2) ∧
    ∀ c ∈ caches, ∀ source d, (c.lookup digest files here source).answer = some d →
      ComesFrom here path files₀ stored c.environment d := by
  refine ⟨fun environment => opening here path environment files, fun c member source d answer => ?_⟩
  refine (run.separate.caches c member).records d ?_
  unfold lookup at answer
  split at answer
  · cases answer
  · rename_i d' found
    split at answer
    · cases answer
    · cases answer
      exact (mem_of_found found).1

/-- A cache of the environment `x` that lists the given executables, all built from one model. -/
def listing (artifacts : List Path) : Cache :=
  ⟨⟨"/i"⟩, "x", artifacts.map fun artifact => ⟨⟨"/m.xml"⟩, artifact, "p", ⟨"00"⟩⟩, []⟩

/-- The executables `a` and `b`, the document of such a cache, and other files. -/
def listingFiles (artifacts : List Path) (others : List (Location × Entry)) : FileTree :=
  ⟨(["i"], .file (Bytes.ofChars (listing artifacts).index.write) .plain) ::
    (["a"], .file [1] .program) :: (["b"], .file [2] .program) :: others⟩

/-- The cache of the environment `y` that knows nothing. -/
def unlisted : Cache := ⟨⟨"/i"⟩, "y", [], []⟩

/-- What the document is cleared away with. -/
def unlisting (artifacts : List Path) (others : List (Location × Entry)) :
    Answered (Except FileFault Nat) :=
  (ofIndex ⟨"/i"⟩ "y" (listing artifacts).index).clear (listingFiles artifacts others) []

theorem openAt_listing {artifacts : List Path} {others : List (Location × Entry)}
    (document : (listingFiles artifacts others).read [] ⟨"/i"⟩ =
      .ok (Bytes.ofChars (listing artifacts).index.write))
    (done : (unlisting artifacts others).answer.map (fun _ => (unlisting artifacts others).cache) =
      .ok unlisted) :
    openAt (listingFiles artifacts others) [] ⟨"/i"⟩ "y" =
      ((unlisting artifacts others).files, .ok unlisted) := by
  have loaded := load?_of_document (c := listing artifacts) document
  exact (openAt_of_other loaded (by simp [listing, index])).trans (Prod.ext rfl done)

/-- The document of one environment is opened in another: the executable is gone, and the index is
opened in its first environment again. -/
theorem opening_separate_drifted :
    ∃ files, openAt (listingFiles [⟨"/a"⟩] []) [] ⟨"/i"⟩ "y" = (files, .ok unlisted) ∧
      Sessions Bytes.toHex [] ⟨"/i"⟩ (listingFiles [⟨"/a"⟩] []) [] files [unlisted] ∧
      files.exists? [] ⟨"/a"⟩ = false ∧
      Opening [] ⟨"/i"⟩ "x" files (openAt files [] ⟨"/i"⟩ "x").1 (openAt files [] ⟨"/i"⟩ "x").2 := by
  have opened : openAt (listingFiles [⟨"/a"⟩] []) [] ⟨"/i"⟩ "y" =
      ((unlisting [⟨"/a"⟩] []).files, .ok unlisted) :=
    openAt_listing (by decide +kernel) (by decide +kernel)
  have run := Sessions.opened
    (.start : Sessions Bytes.toHex [] ⟨"/i"⟩ (listingFiles [⟨"/a"⟩] []) _ _ _) "y"
  rw [opened] at run
  exact ⟨_, opened, run, by decide +kernel, (opening_separate run).1 "x"⟩

/-- Whether all executables of a document are gone, and its index is empty, when it is opened in
another environment. -/
def Discarded (artifacts : List Path) (others : List (Location × Entry)) : Prop :=
  ∀ after c, openAt (listingFiles artifacts others) [] ⟨"/i"⟩ "y" = (after, .ok c) →
    (∀ artifact ∈ artifacts, after.exists? [] artifact = false) ∧
      Index.load? after [] ⟨"/i"⟩ = some ⟨"y", [], []⟩

/-- An executable stays whose record does not count because another for its model follows, and so
does one that is the index itself; where a device stands at the temporary, the index is empty
nowhere. -/
theorem drift_leaves :
    ¬ Discarded [⟨"/a"⟩, ⟨"/b"⟩] [] ∧ ¬ Discarded [⟨"/i"⟩] [] ∧
      ¬ Discarded [⟨"/a"⟩] [(["i.tmp"], .device .null)] := by
  refine ⟨fun discarded => ?_, fun discarded => ?_, fun discarded => ?_⟩
  · have opened := @openAt_listing [⟨"/a"⟩, ⟨"/b"⟩] [] (by decide +kernel) (by decide +kernel)
    have gone := (discarded _ _ opened).1 ⟨"/a"⟩ (by simp)
    exact absurd gone (by decide +kernel)
  · have opened := @openAt_listing [⟨"/i"⟩] [] (by decide +kernel) (by decide +kernel)
    have gone := (discarded _ _ opened).1 ⟨"/i"⟩ (by simp)
    exact absurd gone (by decide +kernel)
  · have opened := @openAt_listing [⟨"/a"⟩] [(["i.tmp"], .device .null)] (by decide +kernel)
      (by decide +kernel)
    have empty := (discarded _ _ opened).2
    exact absurd empty (by decide +kernel)

end SimWorkbench.Cache
