import SimWorkbench.Proofs.Build.Neighbours
import SimWorkbench.Proofs.Build.Requests
import SimWorkbench.Proofs.FileTree.Clearing

/-!
# What a stage can do

A stage either leaves the cache alone and builds at one place, or it saves what the cache knows anew
of its model. Nothing else is in its reach.
-/
namespace SimWorkbench

open FileTree (KeepsDirectories GrowsAt)

namespace Grounds

variable {g : Grounds} {w : Workshop} {model : Path} {b b' : Bench} {environment : String}
  {r r' : Request} {u v : SourceUnit}

/-- Whether a stage writes a location as a source or clears or fills it as an executable. -/
def Builds (g : Grounds) (l : Location) : Request → Prop
  | .invoking (.writeSource u _) => l = (g.layout.sourceFile u.package u.typeName).location g.here
  | .invoking (.clearOutput u) | .invoking (.callCompiler u) => l = g.place u
  | _ => False

/-- What a stage builds is a source or an executable of the unit that it has claimed. -/
theorem Builds.claimed {l : Location} {c : Cache} (builds : g.Builds l r)
    (claimed : g.Claimed c model r) : ∃ u : SourceUnit, u.Declared ∧ g.Free c model u ∧
      (l = (g.layout.sourceFile u.package u.typeName).location g.here ∨ l = g.place u) := by
  cases r with
  | invoking progress =>
    cases progress with
    | writeSource u text => exact ⟨u, claimed.1, claimed.2, .inl builds⟩
    | clearOutput u | callCompiler u => exact ⟨u, claimed.1, claimed.2, .inr builds⟩
    | _ => cases builds
  | _ => cases builds

/-- Whether a cache was saved after it had changed what it knows of a model, of which executables
were discarded first. -/
structure Saves (g : Grounds) (model : Path) (b b' : Bench) (discarded : List Path) : Prop where
  files : b'.files = b'.cache.swept g.here discarded b.files
  indexPath : b'.cache.indexPath = b.cache.indexPath
  environment : b'.cache.environment = b.cache.environment
  own : ∀ p ∈ discarded, ∃ d ∈ b.cache.entries, d.key = Cache.key g.here model ∧ p = d.artifact

/-- Whether a cache was left alone, and so were all files but for what a stage builds. -/
structure Keeps (g : Grounds) (b b' : Bench) (r : Request) : Prop where
  cache : b'.cache = b.cache
  directories : KeepsDirectories b.files b'.files
  files : ∀ l, ¬ g.Builds l r → GrowsAt b.files b'.files l

theorem Keeps.refl (g : Grounds) (b : Bench) (r : Request) : g.Keeps b b r :=
  ⟨rfl, .refl _, fun _ _ => .inl rfl⟩

/-- A lookup leaves the cache alone, or removes an entry of its model. -/
theorem keeps_or_saves_refreshed (here : w.here = g.here) (b : Bench) (model : Path) :
    w.refreshed b model = b ∨ ∃ discarded, g.Saves model b (w.refreshed b model) discarded := by
  cases found : b.cache.entry? w.here model with
  | none => exact .inl (Workshop.refreshed_of_none found)
  | some d =>
    cases stale : Cache.outdated w.digest b.files w.here d with
    | false => exact .inl (by rw [Workshop.refreshed, Cache.lookup_of_current found stale])
    | true =>
      rw [Workshop.refreshed_of_outdated found stale, here]
      rw [here] at found
      obtain ⟨member, key⟩ := Cache.mem_of_found found
      exact .inr ⟨[d.artifact], rfl, rfl, rfl, by simpa using ⟨d, member, key, rfl⟩⟩

/-- A stage leaves the cache alone or saves it. -/
theorem keeps_or_saves (orderly : g.Orderly w) (steps : w.step b model r = (b', r')) :
    g.Keeps b b' r ∨ ∃ discarded, g.Saves model b b' discarded := by
  have here : w.here = g.here := orderly.here
  cases r with
  | lookup =>
    obtain ⟨after, next, -⟩ := w.step_lookup b model
    cases next.symm.trans steps
    refine (keeps_or_saves_refreshed here b model).imp_left fun same => ?_
    rw [same]
    exact .refl g b _
  | generate =>
    obtain ⟨after, next, -⟩ := w.step_generate b model
    cases next.symm.trans steps
    have silent := orderly.generatorSilent b.files model
    exact .inl ⟨rfl, fun l directory => (silent l).trans directory, fun l _ => .inl (silent l)⟩
  | claim text u =>
    cases steps
    exact .inl (.refl g b _)
  | invoking progress =>
    left
    cases progress with
    | writeSource u text =>
      obtain ⟨after, next, -⟩ := w.step_writeSource b model u text
      rw [here, job_source orderly] at next
      cases next.symm.trans steps
      obtain ⟨kept, grows⟩ := @placing_change g (g.layout.sourceFile u.package u.typeName)
        (.write _ (Bytes.ofString text)) rfl b.files
      exact ⟨rfl, kept, fun l notBuilt => grows l notBuilt⟩
    | clearOutput u =>
      obtain ⟨after, next, -⟩ := w.step_clearOutput b model u
      rw [here, job_output orderly] at next
      cases next.symm.trans steps
      obtain ⟨kept, grows⟩ := @placing_change g (g.layout.artifactFile u.package u.typeName)
        (.discard _) rfl b.files
      exact ⟨rfl, kept, fun l notBuilt => grows l notBuilt⟩
    | callCompiler u =>
      cases (w.step_callCompiler b model u).symm.trans steps
      have writes := orderly.compilerWrites b.files (Invocation.job w.site u)
      rw [job_output orderly] at writes
      refine ⟨rfl, fun l directory => ?_, fun l notBuilt => ?_⟩
      · rcases writes l with same | ⟨-, file⟩
        · exact same.trans directory
        · exact absurd directory file
      · rcases writes l with same | ⟨isOutput, -⟩
        · exact .inl same
        · exact absurd isOutput notBuilt
    | inspect u answer =>
      obtain ⟨after, next, -⟩ := w.step_inspect b model u answer
      cases next.symm.trans steps
      exact .refl g b _
    | finished result =>
      cases steps
      exact .refl g b _
  | recordMiss diagnostic =>
    obtain ⟨failure, next, -⟩ := w.step_recordMiss b model diagnostic
    rw [here] at next
    cases next.symm.trans steps
    exact .inr ⟨[], rfl, rfl, rfl, by simp⟩
  | store built =>
    obtain ⟨result, next, -⟩ := w.step_store b model built
    rw [here] at next
    cases next.symm.trans steps
    exact .inr ⟨[], rfl, rfl, rfl, by simp⟩
  | finished result =>
    cases steps
    exact .inl (.refl g b _)

/-- Whether a location is none that a stage of a request may change. -/
structure OutOfReach (g : Grounds) (c : Cache) (model : Path) (r : Request) (l : Location) : Prop
    where
  notIndex : l ≠ g.index
  notTemporary : l ≠ g.layout.temporary.location g.here
  notBuilt : ¬ g.Builds l r
  notOwn : ∀ d ∈ c.entries, d.key = Cache.key g.here model → l ≠ d.artifact.location g.here

/-- Saving the cache changes nothing besides the index and what was discarded. -/
theorem Saves.growsAt {l : Location} {discarded : List Path}
    (saves : g.Saves model b b' discarded) (keeps : b.cache.indexPath = g.layout.cacheIndex)
    (notIndex : l ≠ g.index) (notTemporary : l ≠ g.layout.temporary.location g.here)
    (notOwn : ∀ d ∈ b.cache.entries, d.key = Cache.key g.here model →
      l ≠ d.artifact.location g.here) : GrowsAt b.files b'.files l := by
  rw [saves.files]
  have path := saves.indexPath.trans keeps
  refine (Cache.swept_frame b'.cache g.here discarded b.files).2 l ?_ ?_ fun p isDiscarded => ?_
  · rw [path]
    exact notIndex
  · rw [Cache.temporary, path]
    exact notTemporary
  · obtain ⟨d, member, isOwn, rfl⟩ := saves.own p isDiscarded
    exact notOwn d member isOwn

/-- A stage changes nothing that is out of its reach. -/
theorem growsAt_step {l : Location} (orderly : g.Orderly w)
    (obeys : g.Obeys g.ownership environment b.files b.cache)
    (outOfReach : g.OutOfReach b.cache model r l) (steps : w.step b model r = (b', r')) :
    GrowsAt b.files b'.files l := by
  rcases keeps_or_saves orderly steps with keeps | ⟨discarded, saves⟩
  · exact keeps.files l outOfReach.notBuilt
  · exact saves.growsAt obeys.keeps outOfReach.notIndex outOfReach.notTemporary outOfReach.notOwn

/-- A law whose demands the records meet after a stage is kept by the stage. -/
theorem obeys_step {law : Cache.Law} (orderly : g.Orderly w) (claimed : g.Claimed b.cache model r)
    (obeys : g.Obeys law environment b.files b.cache) (steps : w.step b model r = (b', r'))
    (records : law environment b'.cache.entries b'.cache.misses) :
    g.Obeys law environment b'.files b'.cache := by
  rcases keeps_or_saves orderly steps with keeps | ⟨discarded, saves⟩
  · have notBuilt : ¬ g.Builds g.index r := by
      intro builds
      obtain ⟨u, declared, -, isSource | isPlace⟩ := builds.claimed claimed
      · exact (g.indexApart u declared).1 isSource
      · exact (g.indexApart u declared).2 isPlace
    rw [keeps.cache]
    exact obeys.leaves (keeps.files g.index notBuilt).nothingNewAt
  · rw [saves.files]
    exact obeys.swept b'.cache saves.indexPath saves.environment records discarded

/-- A stage adds an entry for what it stores alone. -/
theorem entries_step {d : Descriptor} (steps : w.step b model r = (b', r'))
    (member : d ∈ b'.cache.entries) : d ∈ b.cache.entries ∨
      ∃ built, r = .store built ∧
        d = Cache.entryOf w.digest b.files w.here model built.artifact built.package := by
  cases r with
  | lookup =>
    obtain ⟨after, next, -⟩ := w.step_lookup b model
    cases next.symm.trans steps
    left
    cases found : b.cache.entry? w.here model with
    | none => rwa [Workshop.refreshed_of_none found] at member
    | some e =>
      cases stale : Cache.outdated w.digest b.files w.here e with
      | false => rwa [Workshop.refreshed, Cache.lookup_of_current found stale] at member
      | true =>
        rw [Workshop.refreshed_of_outdated found stale] at member
        exact (Keyed.mem_drop.mp member).1
  | generate =>
    obtain ⟨after, next, -⟩ := w.step_generate b model
    cases next.symm.trans steps
    exact .inl member
  | claim text u =>
    cases steps
    exact .inl member
  | invoking progress =>
    rw [Premises.step_invoking] at steps
    cases steps
    exact .inl member
  | recordMiss diagnostic =>
    obtain ⟨failure, next, -⟩ := w.step_recordMiss b model diagnostic
    cases next.symm.trans steps
    exact .inl member
  | store built =>
    obtain ⟨result, next, -⟩ := w.step_store b model built
    cases next.symm.trans steps
    rcases Keyed.mem_put member with rfl | before
    · exact .inr ⟨built, rfl, rfl⟩
    · exact .inl before
  | finished result =>
    cases steps
    exact .inl member

end Grounds

namespace Invocation

/-- Where an old executable was to go, nothing stands then. -/
theorem get?_cleared {files files' : FileTree} {here : Location} {layout : Layout} {u : SourceUnit}
    (declared : u.Declared)
    (cleared : Effect.performAll files here
      (placing (layout.artifactFile u.package u.typeName)
        (.discard (layout.artifactFile u.package u.typeName))) = (files', none)) :
    files'.get? ((layout.artifactFile u.package u.typeName).location here) = none := by
  obtain ⟨package, typeName⟩ := declared.words
  have isParent : (layout.artifactFile u.package u.typeName).parent? =
      some (layout.classesDir.child u.package) :=
    Path.parent?_child_child package.isName typeName.isName
  obtain ⟨middle, made, discards⟩ := Effect.performAll_append_ok cleared
  rw [isParent] at made
  simp only [Option.toList_some, List.map_cons, List.map_nil, Effect.performAll, Effect.perform]
    at made
  rcases dirs : files.makeDirs here (layout.classesDir.child u.package) with ⟨after, _ | cause⟩
  · rw [dirs] at made
    cases made
    obtain ⟨l, directory⟩ := FileTree.makeDirs_directory dirs
      (by simpa using (Path.open_child (p := layout.classesDir) package.isName).1)
    rw [Effect.performAll] at discards
    rcases discarded : Effect.perform middle here
        (.discard (layout.artifactFile u.package u.typeName)) with ⟨final, _ | cause⟩
    · simp only [discarded, Effect.performAll] at discards
      cases discards
      exact FileTree.get?_discarded typeName.isName directory discarded
    · rw [discarded] at discards
      cases discards
  · rw [dirs] at made
    cases made

end Invocation
end SimWorkbench
