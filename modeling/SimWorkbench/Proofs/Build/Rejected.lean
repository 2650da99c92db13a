import SimWorkbench.Proofs.Build.Period
import SimWorkbench.Proofs.Build.Spurned

/-!
# What a rejection leaves

A request that the compiler answers with an error leaves its model spurned. Whatever follows, every
unforced request for the model is answered with the known miss, until the model changes, it is forced
or invalidated, or the cache is cleared, opened in another environment or opened again over an index
that does not agree with it.
-/
namespace SimWorkbench

namespace Premises

/-- What can follow a request for a model while its bytes stay and it is neither forced nor
invalidated: all other requests, edits of other files, and pipelines that are opened in the same
environment over an index that holds what the cache knows. -/
inductive Aftermath (s : Premises) (model : Path) (w₀ : Workshop) (b₀ : Bench) :
    Workshop → Bench → Prop
  | start : Aftermath s model w₀ b₀ w₀ b₀
  | edited {w b files} (past : Aftermath s model w₀ b₀ w b) (leaves : s.Leaves model b.files files) :
    Aftermath s model w₀ b₀ w ⟨files, b.cache⟩
  | asked {w b} (past : Aftermath s model w₀ b₀ w b) (q : Path) (force : Bool)
    (own : Cache.key s.here q = Cache.key s.here model →
      force = false ∧ ∃ content, b.files.read s.here q = .ok content) :
    Aftermath s model w₀ b₀ w (w.ensure b q force).bench
  | lookedUp {w b} (past : Aftermath s model w₀ b₀ w b) (q : Path) :
    Aftermath s model w₀ b₀ w (w.refreshed b q)
  | invalidated {w b} (past : Aftermath s model w₀ b₀ w b) (q : Path)
    (other : Cache.key s.here q ≠ Cache.key s.here model) :
    Aftermath s model w₀ b₀ w (w.invalidate b q).1
  | reopened {w b w' b'} (past : Aftermath s model w₀ b₀ w b) (dependable : s.Dependable w')
    (agreed : Cache.Agreed s.here b.files b.cache) (opens : (w'.openBench b.files).2 = .ok b')
    (environment : b'.cache.environment = b.cache.environment) : Aftermath s model w₀ b₀ w' b'

variable {s : Premises} {w w' : Workshop} {model q : Path} {b b' : Bench} {log : List Compilation}
  {files origin : FileTree} {content : Bytes}

/-- A model stays spurned in all that can follow. -/
theorem Spurned.after {w₀ : Workshop} {b₀ : Bench} (spurned : s.Spurned log model origin content b₀)
    (dependable : s.Dependable w₀) (placed : s.Placed model)
    (temporaryApart : s.layout.Apart s.here (s.layout.temporary.location s.here))
    (aftermath : s.Aftermath model w₀ b₀ w b) :
    s.Dependable w ∧ s.Spurned log model origin content b := by
  -- requests for other models keep the law of ownership, and do not disturb this one
  have beside : ∀ {b b' : Bench} {q : Path}, Cache.key s.here q ≠ Cache.key s.here model →
      s.Spurned log model origin content b →
      s.Obeys s.ownership b.cache.environment b'.files b'.cache ∧ s.Spares q b b' →
      s.Spurned log model origin content b' := by
    rintro b b' q other spurned ⟨obeys, spares⟩
    rw [← obeys.built] at obeys
    exact spurned.kept obeys
      (spares.undisturbed spurned.obeys.records temporaryApart placed (Ne.symm other))
  induction aftermath with
  | start => exact ⟨dependable, spurned⟩
  | edited past leaves ih => exact ⟨ih.1, ih.2.edited leaves⟩
  | @asked w b past q force own ih =>
    obtain ⟨dependable, spurned⟩ := ih
    by_cases same : Cache.key s.here q = Cache.key s.here model
    · obtain ⟨rfl, bytes, readable⟩ := own same
      rw [spurned.bench_ensure dependable placed same readable]
      exact ⟨dependable, spurned.refreshed dependable.toOrderly placed same⟩
    · exact ⟨dependable, beside same spurned
        (Grounds.spares_ensure dependable.toOrderly spurned.obeys q force)⟩
  | @lookedUp w b past q ih =>
    obtain ⟨dependable, spurned⟩ := ih
    by_cases same : Cache.key s.here q = Cache.key s.here model
    · exact ⟨dependable, spurned.refreshed dependable.toOrderly placed same⟩
    · exact ⟨dependable, beside same spurned
        (Grounds.spares_refreshed dependable.toSite spurned.obeys)⟩
  | invalidated past q other ih =>
    exact ⟨ih.1, beside other ih.2 (Grounds.spares_invalidate ih.1.toSite ih.2.obeys q)⟩
  | reopened past dependable agreed opens environment ih =>
    exact ⟨dependable, ih.2.reopened dependable agreed opens environment⟩

/-! ### From the rejection on -/

/-- A request that the compiler answers with an error leaves the miss of its model, and the model
spurned if the system accepts the paths of the entry that it has passed over. -/
theorem spurned_of_rejected {c : Cache} {force : Bool} {diagnostic : Diagnostic} {text : String}
    {environment : String} {calls : List Compilation} (dependable : s.Dependable w)
    (pursues : s.Pursues w environment model log calls (w.ensure ⟨files, c⟩ model force).bench text
      (.finished (w.ensure ⟨files, c⟩ model force).result))
    (failed : (w.ensure ⟨files, c⟩ model force).result = .error (.compile diagnostic)) :
    let b := (w.ensure ⟨files, c⟩ model force).bench
    s.Rejects w model b ∧ ∃ content, b.files.read s.here model = .ok content ∧
      s.Remembered model b.files content b ∧
        ((force = true → ∀ d, c.entry? s.here model = some d → d.Nameable) →
          s.Spurned (log ++ calls) model b.files content b) := by
  intro b
  obtain ⟨-, obeys, reachable, rejects⟩ := pursues
  rw [failed] at rejects
  have rejects : s.Rejects w model b := rejects
  obtain ⟨text', u, drawn, cleared⟩ := rejects.cleared
  obtain ⟨m, found, fingerprint⟩ := rejects.missed
  obtain ⟨content, readable, -⟩ := id drawn
  rw [dependable.digest] at fingerprint
  have remembered : s.Remembered model b.files content b :=
    ⟨reachable, readable, reachable, (FileTree.read_iff.mp readable).2.2, m, found, fingerprint⟩
  have owned : s.Obeys s.ownership b.cache.environment b.files b.cache := by
    rw [obeys.built]
    exact obeys.imp fun lineage => lineage.owned
  refine ⟨rejects, content, readable, remembered, fun nameable => ⟨remembered, owned, ?_⟩⟩
  intro d isEntry
  cases force with
  | false =>
    have none := Workshop.entry?_of_rejected failed
    rw [dependable.here] at none
    cases none.symm.trans isEntry
  | true =>
    obtain ⟨member, key⟩ := Cache.mem_of_found isEntry
    have atModel : d.source.location s.here = model.location s.here := by
      rw [← Path.location_normalised model s.proper]
      exact FileTree.location_of_same key s.here
    obtain ⟨k, isCall, u', p, stems⟩ := obeys.records.stems d member atModel
    obtain ⟨past, once, -⟩ := id stems.drawn
    have before : c.entry? s.here model = some d := by
      rw [Cache.entry?, Workshop.entries_of_rejected failed] at isEntry
      exact isEntry
    refine ⟨nameable rfl d before, k, isCall, u', p, past, stems, once, fun same => ?_⟩
    subst same
    rw [stems.drawn.unique drawn once readable]
    exact cleared

/-- In every run on dependable pipelines in which models are asked for from directories that can be
reached: when a request for a model outside of what the build writes ends with an error of the
compiler, nothing can be read in the place of the executable of the unit that was drawn from the
model, and the miss is known. From then on the model has no entry that a lookup finds, and every
unforced request for it, under any spelling that can be read, is dismissed, whatever is asked about
other models, until the bytes of the model change, it is forced or invalidated, or the cache is
cleared, opened in another environment or opened again over an index that does not agree with it.

If the request was forced, what follows it is told on condition that the system accepts the paths by
which the entry that it has passed over knows its model and its executable. -/
theorem rejection_lasts {c : Cache} {force : Bool} {diagnostic : Diagnostic} (placed : s.Placed model)
    (temporaryApart : s.layout.Apart s.here (s.layout.temporary.location s.here))
    (history : s.History s.Dependable (fun files _ => files.Reachable s.here) files (some (w, c)) log)
    (reachable : files.Reachable s.here)
    (failed : (w.ensure ⟨files, c⟩ model force).result = .error (.compile diagnostic)) :
    let b := (w.ensure ⟨files, c⟩ model force).bench
    (∃ text u, s.Drawn b.files model text u ∧
        b.files.isFile s.here (s.layout.artifactFile u.package u.typeName) = false) ∧
      b.cache.isMiss w.digest b.files w.here model = true ∧
      ((force = true → ∀ d, c.entry? s.here model = some d → d.Nameable) →
        ∀ w' b', s.Aftermath model w b w' b' →
          (∀ d, b'.cache.entry? s.here model = some d →
            s.Discernible (log ++ w.calls ⟨files, c⟩ model force) b'.files d) →
          ∀ q bytes, Cache.key s.here q = Cache.key s.here model →
            b'.files.read s.here q = .ok bytes → w'.Dismisses b' q) := by
  intro b
  obtain ⟨dependable, obeys⟩ := lineage_of_history placed temporaryApart history w c rfl
  obtain ⟨text, pursues⟩ := pursues_ensure dependable placed temporaryApart obeys reachable force
  obtain ⟨rejects, content, readable, remembered, spurned⟩ :=
    spurned_of_rejected dependable pursues failed
  obtain ⟨text', u, drawn, cleared⟩ := rejects.cleared
  refine ⟨⟨text', u, drawn, ?_⟩, ?_, fun nameable => ?_⟩
  · by_contra isFile
    obtain ⟨there, found⟩ := FileTree.exists_read_of_isFile (by simpa using isFile)
    exact absurd ((FileTree.read_iff.mp found).2.2.symm.trans cleared) (by simp)
  · rw [dependable.digest, dependable.here]
    exact remembered.isMiss rfl readable
  · intro w' b' aftermath discernible q bytes same found
    obtain ⟨dependable', spurned'⟩ :=
      (spurned nameable).after dependable placed temporaryApart aftermath
    exact spurned'.dismisses dependable' placed same found discernible

end Premises

namespace Rehearsal

/-- The compiler leaves nothing in the place of its output, unless it succeeds and leaves a file. -/
theorem compiler_leaves (identity : Bytes) (here : Location) (files : FileTree) (job : CompileJob)
    (free : files.bytesAt? (job.output.location here) = none)
    (failed : ((compiler identity here).compile files job).2 ≠ compileSuccess ∨
      ((compiler identity here).compile files job).1.isFile here job.output = false) :
    ((compiler identity here).compile files job).1.bytesAt? (job.output.location here) = none := by
  revert failed
  simp only [compiler]
  split
  · exact fun _ => free
  · split
    · exact fun _ => free
    · split
      · exact fun _ => free
      · split
        · rename_i wrote
          rcases FileTree.isFile_written wrote with rfl | isFile
          · exact fun _ => free
          · simp [isFile]
        · exact fun _ => free

/-- A pipeline that rehearses is dependable. -/
theorem dependable (identity : Bytes) {here : Location} {layout : Layout}
    {proper : ∀ name ∈ here, Path.IsName name}
    {indexApart : layout.Outside here (layout.cacheIndex.location here)} :
    (premises here layout proper indexApart).Dependable (workshop here layout identity) where
  toAttentive := attentive identity
  digest := rfl
  generates files model bytes := (generator_spec here files model).2 bytes
  identitySilent _ _ := rfl
  leavesNothing := compiler_leaves identity here

theorem dependable_open : openProject.Dependable openPipeline := by
  have closed : project.Dependable pipeline := dependable [1]
  have orderly : openProject.Orderly openPipeline :=
    ⟨admits_open.toSite, closed.generatorSilent, closed.compilerWrites⟩
  exact ⟨⟨orderly, closed.readsModel⟩, rfl, closed.generates, closed.identitySilent,
    closed.leavesNothing⟩

/-- The first request for a model that the compiler accepts. -/
def accepted : Workshop.Ended := openPipeline.ensure ⟨fresh, blank⟩ ⟨"m"⟩ false

/-- The files once the model was changed into one that the compiler rejects. -/
def worsened : FileTree :=
  accepted.bench.files.insert ["tmp", "job", "m"] (.file (Bytes.ofString rejected) .plain)

/-- The request for the changed model, which is forced and fails. -/
def dismissed : Workshop.Ended := openPipeline.ensure ⟨worsened, accepted.bench.cache⟩ ⟨"m"⟩ true

/-- The calls of both requests. -/
def bothCalls : List Compilation :=
  openPipeline.calls ⟨fresh, blank⟩ ⟨"m"⟩ false ++
    openPipeline.calls ⟨worsened, accepted.bench.cache⟩ ⟨"m"⟩ true

/-- The changed model is rejected while its entry is there, and the digest gives the entry away. -/
theorem dismissed_reads :
    error? dismissed.result = some (.compile ⟨"no"⟩) ∧
      (∃ d ∈ accepted.bench.cache.entries, d.key = Cache.key ["tmp", "job"] ⟨"m"⟩) ∧
      (dismissed.bench.files.read ["tmp", "job"] ⟨"m"⟩).toOption.isSome = true ∧
      (["tmp", "job"].foldlM worsened.enter []).toOption = some ["tmp", "job"] ∧
      ∀ d ∈ accepted.bench.cache.entries,
        (worsened.isFile ["tmp", "job"] d.source = true ∧
          worsened.isFile ["tmp", "job"] d.artifact = true) ∧
        Fingerprint.Fitting dismissed.bench.files ["tmp", "job"] [d.source, d.artifact] ∧
        ∀ k ∈ bothCalls, Fingerprint.Fitting k.after ["tmp", "job"] [d.source, d.artifact] ∧
          (Fingerprint.readings k.after ["tmp", "job"] [d.source, d.artifact] =
              Fingerprint.readings dismissed.bench.files ["tmp", "job"] [d.source, d.artifact] ∨
            Fingerprint.now spelledOut k.after ["tmp", "job"] [d.source, d.artifact] ≠
              Fingerprint.now spelledOut dismissed.bench.files ["tmp", "job"]
                [d.source, d.artifact]) := by
  decide +kernel

theorem history_accepted :
    openProject.History openProject.Dependable (fun files _ => files.Reachable openProject.here)
      worsened (some (openPipeline, accepted.bench.cache))
      (openPipeline.calls ⟨fresh, blank⟩ ⟨"m"⟩ false) := by
  have opening : openProject.History openProject.Dependable
      (fun files _ => files.Reachable openProject.here) fresh (some (openPipeline, blank)) [] :=
    history_open dependable_open
  have isAccepted : openPipeline.ensure ⟨fresh, blank⟩ ⟨"m"⟩ false = accepted := rfl
  have ensured :=
    @Grounds.History.ensured _ _ _ fresh openPipeline blank _ ⟨"m"⟩ opening reachable_fresh false
  rw [isAccepted, List.nil_append] at ensured
  exact ensured.edited (leaves_model _ _)

/-- The entry that was passed over is known by paths that the system accepts, and given away. -/
theorem dismissed_entry {d : Descriptor} (member : d ∈ accepted.bench.cache.entries) :
    d.Nameable ∧ openProject.Discernible bothCalls dismissed.bench.files d := by
  obtain ⟨-, -, -, -, all⟩ := dismissed_reads
  obtain ⟨⟨source, artifact⟩, fits, calls⟩ := all d member
  refine ⟨⟨FileTree.canNameFile_of_isFile source, FileTree.canNameFile_of_isFile artifact⟩,
    fun k isCall same => ?_, fits, fun k isCall => (calls k isCall).1⟩
  rcases (calls k isCall).2 with readings | differ
  · exact congrArg Fingerprint.stream readings
  · exact absurd (congrArg Fingerprint.mk same) differ

/-- A model that was built, changed and rejected by a forced request is dismissed while its entry is
there. -/
theorem rejection_lasts_rehearsed :
    (openPipeline.ensure ⟨worsened, accepted.bench.cache⟩ ⟨"m"⟩ true).result =
        .error (.compile ⟨"no"⟩) ∧
      (∃ d ∈ accepted.bench.cache.entries, d.key = Cache.key ["tmp", "job"] ⟨"m"⟩) ∧
      openPipeline.Dismisses (openPipeline.ensure ⟨worsened, accepted.bench.cache⟩ ⟨"m"⟩ true).bench
        ⟨"m"⟩ := by
  obtain ⟨answer, listed, readable, directory, -⟩ := dismissed_reads
  have reachable : worsened.Reachable openProject.here := ok_of_toOption directory
  have failed : (openPipeline.ensure ⟨worsened, accepted.bench.cache⟩ ⟨"m"⟩ true).result =
      .error (.compile ⟨"no"⟩) := error_of_error? answer
  obtain ⟨bytes, readable⟩ := exists_of_isSome readable
  obtain ⟨-, -, lasting⟩ := Premises.rejection_lasts placed_model temporaryApart_project
    history_accepted reachable failed
  have nameable : ∀ d, accepted.bench.cache.entry? openProject.here ⟨"m"⟩ = some d → d.Nameable :=
    fun d found => (dismissed_entry (Cache.mem_of_found found).1).1
  have lasting := lasting fun _ => nameable
  have isDismissed : openPipeline.ensure ⟨worsened, accepted.bench.cache⟩ ⟨"m"⟩ true = dismissed := rfl
  have kept := Workshop.entries_of_rejected failed
  rw [isDismissed] at lasting kept ⊢
  rw [Grounds.entered, if_pos rfl] at kept
  refine ⟨failed, listed, lasting _ _ .start (fun d found => ?_) ⟨"m"⟩ bytes rfl readable⟩
  have member := (Cache.mem_of_found found).1
  rw [kept] at member
  exact (dismissed_entry member).2

/-- A model of another unit, which the compiler rejects. -/
def shunned : String := "pub mod p \x7b\npub struct U;\n\x7d\n// !reject no\n"

/-- The cache that knows the model by the long way. -/
def windingCache : Cache := unused.withEntry windingEntry

/-- The files once the model that is known by the long way was replaced. -/
def replaced : FileTree :=
  (windingCache.swept pipeline.here [] compiled.1.files).insert ["tmp", "job", "m"]
    (.file (Bytes.ofString shunned) .plain)

/-- What the compile for the other unit comes to, when the miss is to be recorded. -/
def tried : Bench × Request :=
  pipeline.after ⟨"m"⟩ 4 (⟨replaced, windingCache⟩, .invoking (Invocation.start shunned "p" "U"))

/-- The miss that is recorded then. -/
def windingMiss : Miss := Cache.missOf pipeline.digest tried.1.files pipeline.here winding

theorem replaced_reads :
    replaced.get? ["tmp", "job"] = some .directory ∧
      replaced.get? ["tmp", "job", "d"] = some .directory ∧
      replaced.get? ["tmp", "job", "m"] = some (.file (Bytes.ofString shunned) .plain) ∧
      (Text.Utf8.toString? (Bytes.ofString shunned) = some shunned ∧
        (Text.splitAt? "ungeneratable".toList shunned.toList).isSome = false ∧
        (SourceUnit.parse shunned.toList).toOption = some ⟨"p", "U"⟩) ∧
      (pipeline.owner? windingCache winding ⟨"p", "U"⟩).isNone = true := by
  decide +kernel

theorem tried_reads :
    (∀ j < 4, (pipeline.after ⟨"m"⟩ j (⟨replaced, windingCache⟩,
        .invoking (Invocation.start shunned "p" "U"))).2.isInvoking = true) ∧
      tried.2.rejected? = some ⟨"no"⟩ ∧
      (Effect.performAll tried.1.files pipeline.here (windingCache.withMiss windingMiss).saving).2 =
        none := by
  decide +kernel

theorem eq_of_parts {x : Bench × Request} {c : Cache} {r : Request} (cache : x.1.cache = c)
    (request : x.2 = r) : x = (⟨x.1.files, c⟩, r) := by
  rw [← cache, ← request]

theorem tried_eq : tried = (⟨tried.1.files, windingCache⟩, .recordMiss ⟨"no"⟩) := by
  obtain ⟨compiles, rejected, -⟩ := tried_reads
  have isTried : pipeline.after ⟨"m"⟩ 4 (⟨replaced, windingCache⟩,
      .invoking (Invocation.start shunned "p" "U")) = tried := rfl
  have cache := pipeline.cache_after compiles
  rw [isTried] at cache
  have request : tried.2 = .recordMiss ⟨"no"⟩ := Request.eq_recordMiss rejected
  exact eq_of_parts cache request

theorem read_replaced : replaced.read ["tmp", "job"] winding = .ok (Bytes.ofString shunned) := by
  obtain ⟨directory, inner, found, -⟩ := replaced_reads
  exact read_winding directory inner found rfl

theorem generate_replaced : pipeline.step ⟨replaced, windingCache⟩ winding .generate =
    (⟨replaced, windingCache⟩, .claim shunned ⟨"p", "U"⟩) := by
  obtain ⟨-, -, -, ⟨decoded, plain, declares⟩, -⟩ := replaced_reads
  exact generate_winding read_replaced decoded plain declares

theorem claim_replaced :
    pipeline.step ⟨replaced, windingCache⟩ winding (.claim shunned ⟨"p", "U"⟩) =
      (⟨replaced, windingCache⟩, .invoking (Invocation.start shunned "p" "U")) := by
  obtain ⟨-, -, -, -, unowned⟩ := replaced_reads
  exact Workshop.claim_of_unowned (Option.isNone_iff_eq_none.mp unowned)

/-- The bench after the forced request for the model that was replaced. -/
def unheeded : Bench :=
  ⟨(windingCache.withMiss windingMiss).swept pipeline.here [] tried.1.files,
    windingCache.withMiss windingMiss⟩

theorem recordMiss_replaced :
    pipeline.step ⟨tried.1.files, windingCache⟩ winding (.recordMiss ⟨"no"⟩) =
      (unheeded, .finished (.error (.compile ⟨"no"⟩))) := by
  obtain ⟨-, -, saved⟩ := tried_reads
  rw [windingMiss] at saved
  rw [unheeded, windingMiss]
  exact Workshop.recordMiss_of_saved saved

theorem ensured_replaced :
    (pipeline.ensure ⟨replaced, windingCache⟩ winding true).bench = unheeded ∧
      (pipeline.ensure ⟨replaced, windingCache⟩ winding true).result = .error (.compile ⟨"no"⟩) := by
  obtain ⟨compiles, -, -⟩ := tried_reads
  have compiling : pipeline.after winding 4
      (⟨replaced, windingCache⟩, .invoking (Invocation.start shunned "p" "U")) = tried :=
    pipeline.after_congr winding compiles
  have ended : pipeline.after winding (4 + (2 + 1) + 1 + 1) (⟨replaced, windingCache⟩, .generate) =
      (unheeded, .finished (.error (.compile ⟨"no"⟩))) :=
    calc pipeline.after winding (4 + (2 + 1) + 1 + 1) (⟨replaced, windingCache⟩, .generate)
      _ = pipeline.after winding (4 + (2 + 1) + 1)
            (⟨replaced, windingCache⟩, .claim shunned ⟨"p", "U"⟩) :=
          pipeline.after_of_step generate_replaced _
      _ = pipeline.after winding (4 + (2 + 1))
            (⟨replaced, windingCache⟩, .invoking (Invocation.start shunned "p" "U")) :=
          pipeline.after_of_step claim_replaced _
      _ = pipeline.after winding (2 + 1) (⟨tried.1.files, windingCache⟩, .recordMiss ⟨"no"⟩) := by
          rw [pipeline.after_add, compiling, ← tried_eq]
      _ = pipeline.after winding 2 (unheeded, .finished (.error (.compile ⟨"no"⟩))) :=
          pipeline.after_of_step recordMiss_replaced _
      _ = (unheeded, .finished (.error (.compile ⟨"no"⟩))) :=
          pipeline.after_finished winding 2 _ _
  have whole := pipeline.after_eq_ensure ⟨replaced, windingCache⟩ winding true
  rw [show (Request.start true).rank = 4 + (2 + 1) + 1 + 1 from rfl,
    show Request.start true = .generate from rfl, ended] at whole
  obtain ⟨bench, result⟩ := Prod.mk.inj whole
  exact ⟨bench.symm, (Request.finished.inj result).symm⟩

/-- The executable of the model as it was is still there, also when the other unit was rejected. -/
theorem executable_unheeded :
    (compiled.1.files.read ["tmp", "job"] ⟨"/c/p/T"⟩).toOption =
        some (Bytes.ofString source).reverse ∧
      (unheeded.files.read ["tmp", "job"] ⟨"/c/p/T"⟩).toOption =
        some (Bytes.ofString source).reverse ∧
      ∀ k ∈ pipeline.compilations ⟨"m"⟩ 7 ⟨replaced, windingCache⟩ ""
          (.invoking (Invocation.start shunned "p" "U")),
        (k.after.read ["tmp", "job"] ⟨"/c/p/T"⟩).toOption = some (Bytes.ofString source).reverse := by
  decide +kernel

/-- The entry of the model by the long way is taken to be up to date. -/
theorem lookup_unheeded :
    unheeded.cache.lookup pipeline.digest unheeded.files pipeline.here winding =
      ⟨unheeded.files, unheeded.cache, some windingEntry⟩ := by
  obtain ⟨before, now, -⟩ := executable_unheeded
  have found : unheeded.cache.entry? pipeline.here winding = some windingEntry :=
    Cache.entry?_stored unused pipeline.digest compiled.1.files pipeline.here winding ⟨"/c/p/T"⟩ "p"
  refine Cache.lookup_of_current found (Cache.outdated_of_tooLong long_winding ?_)
  rw [show pipeline.here = ["tmp", "job"] from rfl, artifact_normalised, ok_of_toOption before,
    ok_of_toOption now]

/-- The calls of the compiler that were made for the model by the long way. -/
def windingCalls : List Compilation :=
  pipeline.calls ⟨fresh, unused⟩ winding false ++
    pipeline.calls ⟨replaced, windingCache⟩ winding true

theorem executable_windingCalls :
    ∀ k ∈ windingCalls,
      (k.after.read ["tmp", "job"] ⟨"/c/p/T"⟩).toOption = some (Bytes.ofString source).reverse := by
  obtain ⟨before, -, later⟩ := executable_unheeded
  rw [← pipeline.compilations_congr _ winding] at later
  have calls : pipeline.calls ⟨replaced, windingCache⟩ winding true =
      pipeline.compilations winding 7 ⟨replaced, windingCache⟩ ""
        (.invoking (Invocation.start shunned "p" "U")) := by
    rw [Workshop.calls, show (Request.start true).rank = 7 + 1 + 1 from rfl,
      show Request.start true = .generate from rfl,
      pipeline.compilations_of_step generate_replaced rfl,
      pipeline.compilations_of_step claim_replaced rfl]
  rw [← calls] at later
  intro k isCall
  rcases List.mem_append.mp isCall with first | second
  · rw [(calls_winding k first).2]
    exact before
  · exact later k second

/-- The run up to the forced request for the model by the long way. -/
theorem history_winding :
    project.History project.Dependable (fun files _ => files.Reachable project.here) replaced
      (some (pipeline, windingCache)) (pipeline.calls ⟨fresh, unused⟩ winding false) := by
  have opening : project.History project.Dependable (fun files _ => files.Reachable project.here)
      fresh (some (pipeline, unused)) [] := history_fresh (dependable [1])
  have ensured := @Grounds.History.ensured _ _ _ fresh pipeline unused _ winding opening
    reachable_fresh false
  rw [ensured_winding, List.nil_append, ← windingCache] at ensured
  exact ensured.edited (leaves_model _ _)

/-- A rejection that its entry outlives: the model by the long way was replaced, and the forced
request for it was rejected, but it is answered from the cache, with an executable of what it was. -/
theorem rejection_outlived :
    project.Readable replaced winding ∧
      (pipeline.ensure ⟨replaced, windingCache⟩ winding true).bench = unheeded ∧
      (pipeline.ensure ⟨replaced, windingCache⟩ winding true).result = .error (.compile ⟨"no"⟩) ∧
      project.Uncollided windingCalls unheeded.files windingEntry ∧
      (unheeded.cache.lookup pipeline.digest unheeded.files pipeline.here winding).answer =
        some windingEntry ∧
      (pipeline.ensure unheeded winding false).result = .ok (windingEntry, .cached) := by
  obtain ⟨directory, inner, found, -⟩ := replaced_reads
  obtain ⟨bench, rejected⟩ := ensured_replaced
  obtain ⟨-, now, -⟩ := executable_unheeded
  have answered : ∀ b : Bench, b.cache.lookup pipeline.digest b.files pipeline.here winding =
      ⟨b.files, b.cache, some windingEntry⟩ →
        (pipeline.ensure b winding false).result = .ok (windingEntry, .cached) :=
    fun b found => (Workshop.ensure_of_current found).1
  have readable : project.Readable replaced winding := readable_winding directory inner found rfl
  refine ⟨readable, bench, rejected, fun k isCall _ => ?_, by rw [lookup_unheeded],
    answered unheeded lookup_unheeded⟩
  have unreadable : ∀ t : FileTree, (t.read ["tmp", "job"] windingEntry.source).toOption = none :=
    fun t => FileTree.read_tooLong t _ long_winding
  have artifact : windingEntry.artifact = ⟨"/c/p/T"⟩ := artifact_normalised
  have readings : Fingerprint.readings k.after ["tmp", "job"]
        [windingEntry.source, windingEntry.artifact] =
      Fingerprint.readings unheeded.files ["tmp", "job"]
        [windingEntry.source, windingEntry.artifact] := by
    simp only [Fingerprint.readings, List.map_cons, List.map_nil, unreadable, artifact, now,
      executable_windingCalls k isCall]
  exact congrArg Fingerprint.stream readings

/-- The files of a model that was rejected, once another program has removed the index. -/
def unindexed : FileTree := failed.bench.files.erase ["i"]

/-- A rejection that is forgotten: the index was removed, so that a pipeline that is opened again in
the same environment calls the compiler for the model as it was rejected. -/
theorem rejection_forgotten :
    error? failed.result = some (.compile ⟨"no"⟩) ∧
      (openPipeline.openBench unindexed).2.toOption = some ⟨unindexed, blank⟩ ∧
      blank.environment = failed.bench.cache.environment ∧
      (unindexed.read ["tmp", "job"] ⟨"m"⟩).toOption = some (Bytes.ofString rejected) ∧
      (openPipeline.ensure ⟨unindexed, blank⟩ ⟨"m"⟩ false).jobs.length = 1 := by
  decide +kernel

/-- What follows a rejection is not always the known miss. A model whose absolute path is too long is
answered from the cache although the forced request for it was rejected. And where another program
removes the index, the compiler is called again for a model as it was rejected. -/
theorem rejection_unnoticed :
    (project.History project.Dependable (fun files _ => files.Reachable project.here) replaced
        (some (pipeline, windingCache)) (pipeline.calls ⟨fresh, unused⟩ winding false) ∧
      project.Readable replaced winding ∧
      (pipeline.ensure ⟨replaced, windingCache⟩ winding true).bench = unheeded ∧
      (pipeline.ensure ⟨replaced, windingCache⟩ winding true).result = .error (.compile ⟨"no"⟩) ∧
      project.Uncollided windingCalls unheeded.files windingEntry ∧
      (unheeded.cache.lookup pipeline.digest unheeded.files pipeline.here winding).answer =
        some windingEntry ∧
      (pipeline.ensure unheeded winding false).result = .ok (windingEntry, .cached)) ∧
    openProject.History openProject.Dependable (fun files _ => files.Reachable openProject.here) faulty
        (some (openPipeline, blank)) [] ∧
      error? (openPipeline.ensure ⟨faulty, blank⟩ ⟨"m"⟩ false).result = some (.compile ⟨"no"⟩) ∧
      (openPipeline.openBench unindexed).2.toOption = some ⟨unindexed, blank⟩ ∧
      blank.environment = failed.bench.cache.environment ∧
      (unindexed.read ["tmp", "job"] ⟨"m"⟩).toOption = some (Bytes.ofString rejected) ∧
      (openPipeline.ensure ⟨unindexed, blank⟩ ⟨"m"⟩ false).jobs.length = 1 := by
  exact ⟨⟨history_winding, rejection_outlived⟩, history_faulty dependable_open, rejection_forgotten⟩

end Rehearsal
end SimWorkbench
