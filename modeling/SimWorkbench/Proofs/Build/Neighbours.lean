import SimWorkbench.Proofs.Build.Ownership
import SimWorkbench.Proofs.Build.Rehearsal

/-!
# What a request leaves alone

Every stage of a request keeps the law that entries do not share places, and leaves alone what
belongs to other models. So do whole requests, and so does every run.
-/
namespace SimWorkbench

open FileTree (KeepsDirectories GrowsAt)

namespace Grounds

/-- What holds of a bench while a request is under way. -/
structure Steady (g : Grounds) (environment : String) (model : Path) (b : Bench) (r : Request) :
    Prop where
  obeys : g.Obeys g.ownership environment b.files b.cache
  claimed : g.Claimed b.cache model r

/-- Whether a request that has come from one bench to another keeps what holds, and spared the
other models. -/
structure Advances (g : Grounds) (environment : String) (model : Path) (b b' : Bench)
    (r' : Request) : Prop where
  steady : g.Steady environment model b' r'
  spares : g.Spares model b b'

variable {g : Grounds} {w : Workshop} {model : Path} {b b' : Bench} {c : Cache}
  {environment text : String} {files : FileTree} {u : SourceUnit}

theorem advances_lookup (orderly : g.Orderly w) (steady : g.Steady environment model b .lookup) :
    g.Advances environment model b (w.step b model .lookup).1 (w.step b model .lookup).2 := by
  obtain ⟨obeys, spares⟩ : _ ∧ g.Spares model b _ :=
    spares_refreshed orderly.toSite steady.obeys
  by_cases unanswered : ∀ d, b.cache.entry? w.here model = some d →
      Cache.outdated w.digest b.files w.here d = true
  · rw [Workshop.lookup_of_unanswered unanswered]
    refine ⟨⟨obeys, ?_⟩, spares⟩
    dsimp only
    split <;> trivial
  · push Not at unanswered
    obtain ⟨d, found, current⟩ := unanswered
    rw [Workshop.lookup_of_current found (by simpa using current)]
    exact ⟨⟨steady.obeys, trivial⟩, .refl g model b⟩

theorem advances_generate (orderly : g.Orderly w) (steady : g.Steady environment model b .generate) :
    g.Advances environment model b (w.step b model .generate).1 (w.step b model .generate).2 := by
  have silent := orderly.generatorSilent b.files model
  have bench : (w.step b model .generate).1 = ⟨(w.generator b.files model).1, b.cache⟩ := by
    simp only [Workshop.step, Workshop.produce]
    split
    · rfl
    · split <;> rfl
  have claimed : g.Claimed b.cache model (w.step b model .generate).2 := by
    simp only [Workshop.step, Workshop.produce]
    split
    · trivial
    · split <;> trivial
  rw [bench]
  have grows : ∀ l, GrowsAt b.files (w.generator b.files model).1 l := fun l => .inl (silent l)
  refine ⟨⟨steady.obeys.leaves (grows g.index).nothingNewAt, claimed⟩, fun _ _ => rfl,
    fun _ _ => rfl, fun l directory => ?_, fun l _ => grows l⟩
  exact (silent l).trans directory

theorem advances_claim (orderly : g.Orderly w) {text' : String}
    (steady : g.Steady environment model b (.claim text' u)) :
    g.Advances environment model b (w.step b model (.claim text' u)).1
      (w.step b model (.claim text' u)).2 := by
  have spares := Spares.refl g model b
  cases owner : w.owner? b.cache model u with
  | some d =>
    simp only [Workshop.step, Workshop.checkOwner, owner]
    exact ⟨⟨steady.obeys, trivial⟩, spares⟩
  | none =>
    rw [Workshop.claim_of_unowned owner]
    unfold Invocation.start
    split
    · rename_i unit expected
      obtain ⟨declared, package, typeName⟩ := SourceUnit.declared_of_expect expected
      obtain rfl : unit = u := by
        cases unit
        cases u
        simp_all
      exact ⟨⟨steady.obeys, declared,
        free_of_unowned orderly.toSite steady.obeys.records declared owner⟩, spares⟩
    · exact ⟨⟨steady.obeys, _, rfl⟩, spares⟩

/-- The stages that put a file into its directory change files at its path alone. -/
theorem placing_change {path : Path} {e : Effect} (touches : e.touches g.here = [path.location g.here])
    (t : FileTree) :
    KeepsDirectories t (Effect.performAll t g.here (Invocation.placing path e)).1 ∧
      ∀ l ≠ path.location g.here,
        GrowsAt t (Effect.performAll t g.here (Invocation.placing path e)).1 l := by
  refine ⟨(Effect.performAll_frame _ t g.here).1, fun l other => ?_⟩
  exact (Invocation.placing_frame (by simpa [touches] using other)).2

/-- A stage that puts a file where nothing is sheltered advances the request. -/
theorem advances_placing {path : Path} {e : Effect} {after : Request}
    (touches : e.touches g.here = [path.location g.here])
    (obeys : g.Obeys g.ownership environment b.files b.cache)
    (notIndex : g.index ≠ path.location g.here)
    (exposed : ¬ g.Sheltered b.cache model (path.location g.here))
    (claimed : g.Claimed b.cache model after) :
    g.Advances environment model b
      ⟨(Effect.performAll b.files g.here (Invocation.placing path e)).1, b.cache⟩ after := by
  obtain ⟨kept, grows⟩ := placing_change touches b.files
  obtain ⟨obeys', spares⟩ := spares_change obeys kept grows notIndex exposed
  exact ⟨⟨obeys', claimed⟩, spares⟩

theorem job_source (orderly : g.Orderly w) (u : SourceUnit) :
    (Invocation.job w.site u).source = g.layout.sourceFile u.package u.typeName := by
  rw [Invocation.job, orderly.layout]

theorem job_output (orderly : g.Orderly w) (u : SourceUnit) :
    (Invocation.job w.site u).output = g.layout.artifactFile u.package u.typeName := by
  rw [Invocation.job, orderly.layout]

theorem advances_writeSource (orderly : g.Orderly w)
    (steady : g.Steady environment model b (.invoking (.writeSource u text))) :
    g.Advances environment model b (w.step b model (.invoking (.writeSource u text))).1
      (w.step b model (.invoking (.writeSource u text))).2 := by
  obtain ⟨declared, free⟩ := steady.claimed
  obtain ⟨after, next, outcome⟩ := w.step_writeSource b model u text
  rw [next, orderly.here, job_source orderly]
  refine advances_placing rfl steady.obeys (g.indexApart u declared).1 (exposed_source declared) ?_
  rcases outcome with ⟨-, rfl⟩ | ⟨fault, -, rfl⟩
  · exact ⟨declared, free⟩
  · trivial

theorem advances_clearOutput (orderly : g.Orderly w)
    (steady : g.Steady environment model b (.invoking (.clearOutput u))) :
    g.Advances environment model b (w.step b model (.invoking (.clearOutput u))).1
      (w.step b model (.invoking (.clearOutput u))).2 := by
  obtain ⟨declared, free⟩ := steady.claimed
  obtain ⟨after, next, outcome⟩ := w.step_clearOutput b model u
  rw [next, orderly.here, job_output orderly]
  refine advances_placing rfl steady.obeys (g.indexApart u declared).2
    (exposed_place declared free) ?_
  rcases outcome with ⟨-, rfl⟩ | ⟨fault, -, rfl⟩
  · exact ⟨declared, free⟩
  · trivial

theorem advances_callCompiler (orderly : g.Orderly w)
    (steady : g.Steady environment model b (.invoking (.callCompiler u))) :
    g.Advances environment model b (w.step b model (.invoking (.callCompiler u))).1
      (w.step b model (.invoking (.callCompiler u))).2 := by
  obtain ⟨declared, free⟩ := steady.claimed
  have writes := orderly.compilerWrites b.files (Invocation.job w.site u)
  rw [job_output orderly] at writes
  rw [w.step_callCompiler]
  have kept : KeepsDirectories b.files
      (w.site.compiler.compile b.files (Invocation.job w.site u)).1 := by
    intro l directory
    rcases writes l with same | ⟨-, file⟩
    · exact same.trans directory
    · exact absurd directory file
  have grows : ∀ l ≠ g.place u, GrowsAt b.files
      (w.site.compiler.compile b.files (Invocation.job w.site u)).1 l := by
    intro l other
    rcases writes l with same | ⟨isOutput, -⟩
    · exact .inl same
    · exact absurd isOutput other
  obtain ⟨obeys, spares⟩ := spares_change steady.obeys kept grows (g.indexApart u declared).2
    (exposed_place declared free)
  exact ⟨⟨obeys, declared, free⟩, spares⟩

theorem advances_inspect (orderly : g.Orderly w) {answer : String}
    (steady : g.Steady environment model b (.invoking (.inspect u answer))) :
    g.Advances environment model b (w.step b model (.invoking (.inspect u answer))).1
      (w.step b model (.invoking (.inspect u answer))).2 := by
  obtain ⟨declared, free⟩ := steady.claimed
  obtain ⟨after, next, outcome⟩ := w.step_inspect b model u answer
  rw [next]
  refine ⟨⟨steady.obeys, ?_⟩, .refl g model b⟩
  rcases outcome with ⟨-, -, rfl⟩ | ⟨-, diagnostic, rfl⟩
  · exact ⟨u, declared, free, job_output orderly u⟩
  · trivial

theorem advances_store (orderly : g.Orderly w) {built : CompiledArtifact}
    (steady : g.Steady environment model b (.store built)) :
    g.Advances environment model b (w.step b model (.store built)).1
      (w.step b model (.store built)).2 := by
  obtain ⟨u, declared, free, artifact⟩ := steady.claimed
  have owned : g.Owned b.cache.entries b.cache.misses := steady.obeys.records
  obtain ⟨result, next, -⟩ := w.step_store b model built
  rw [next, orderly.here, artifact]
  set d := Cache.entryOf w.digest b.files g.here model (g.layout.artifactFile u.package u.typeName)
    built.package
  have owned' : g.Owned (b.cache.withEntry d).entries (b.cache.withEntry d).misses :=
    owned.withEntry declared free _ _
  obtain ⟨kept, grows⟩ := sheltered_swept owned (b.cache.withEntry d) steady.obeys.keeps model []
    b.files (by simp)
  refine ⟨⟨steady.obeys.swept (b.cache.withEntry d) rfl rfl owned' [], trivial⟩,
    fun k other => ?_, fun k other => ?_, kept, grows⟩
  · exact (Keyed.get?_put _ _ _ _).trans (if_neg (Ne.symm other))
  · exact (Keyed.get?_drop _ _ _ _).trans (if_neg other)

theorem advances_recordMiss (orderly : g.Orderly w) {diagnostic : Diagnostic}
    (steady : g.Steady environment model b (.recordMiss diagnostic)) :
    g.Advances environment model b (w.step b model (.recordMiss diagnostic)).1
      (w.step b model (.recordMiss diagnostic)).2 := by
  have owned : g.Owned b.cache.entries b.cache.misses := steady.obeys.records
  obtain ⟨failure, next, -⟩ := w.step_recordMiss b model diagnostic
  rw [next, orderly.here]
  set m := Cache.missOf w.digest b.files g.here model
  have owned' : g.Owned (b.cache.withMiss m).entries (b.cache.withMiss m).misses :=
    { owned with orderedMisses := owned.orderedMisses.put _ }
  obtain ⟨kept, grows⟩ := sheltered_swept owned (b.cache.withMiss m) steady.obeys.keeps model []
    b.files (by simp)
  refine ⟨⟨steady.obeys.swept (b.cache.withMiss m) rfl rfl owned' [], trivial⟩, fun _ _ => rfl,
    fun k other => ?_, kept, grows⟩
  exact (Keyed.get?_put _ _ _ _).trans (if_neg (Ne.symm other))

/-- Every stage of a request advances it. -/
theorem advances_step (orderly : g.Orderly w) {r : Request}
    (steady : g.Steady environment model b r) :
    g.Advances environment model b (w.step b model r).1 (w.step b model r).2 := by
  cases r with
  | lookup => exact advances_lookup orderly steady
  | generate => exact advances_generate orderly steady
  | claim text u => exact advances_claim orderly steady
  | invoking progress =>
    cases progress with
    | writeSource u text => exact advances_writeSource orderly steady
    | clearOutput u => exact advances_clearOutput orderly steady
    | callCompiler u => exact advances_callCompiler orderly steady
    | inspect u answer => exact advances_inspect orderly steady
    | finished result =>
      obtain ⟨cause, rfl⟩ := steady.claimed
      exact ⟨⟨steady.obeys, trivial⟩, .refl g model b⟩
  | recordMiss diagnostic => exact advances_recordMiss orderly steady
  | store built => exact advances_store orderly steady
  | finished result => exact ⟨steady, .refl g model b⟩

/-- However many stages a request takes, it keeps the law and spares the other models. -/
theorem advances_after (orderly : g.Orderly w) (n : Nat) {r : Request}
    (steady : g.Steady environment model b r) :
    g.Advances environment model b (w.after model n (b, r)).1 (w.after model n (b, r)).2 := by
  induction n generalizing b r with
  | zero => exact ⟨steady, .refl g model b⟩
  | succ n ih =>
    have first := advances_step orderly steady
    have rest := ih first.steady
    exact ⟨rest.steady, first.spares.trans steady.obeys.records rest.spares⟩

/-- A whole request keeps the law and spares the other models. -/
theorem spares_ensure (orderly : g.Orderly w)
    (obeys : g.Obeys g.ownership environment b.files b.cache) (model : Path) (force : Bool) :
    g.Obeys g.ownership environment (w.ensure b model force).bench.files
        (w.ensure b model force).bench.cache ∧
      g.Spares model b (w.ensure b model force).bench := by
  have start : g.Steady environment model b (Request.start force) :=
    ⟨obeys, by cases force <;> trivial⟩
  have ended := advances_after orderly (Request.start force).rank start
  rw [w.after_eq_ensure] at ended
  exact ⟨ended.steady.obeys, ended.spares⟩

/-- In every run on orderly pipelines the open cache keeps the law. -/
theorem owned_of_history {admits : Workshop → Prop} (orderly : ∀ w, admits w → g.Orderly w)
    {askable : FileTree → Path → Prop} {log : List Compilation} {open? : Option (Workshop × Cache)}
    (history : g.History admits askable files open? log) :
    g.IndexObeys g.ownership files ∧ ∀ w c, open? = some (w, c) →
      admits w ∧ g.Obeys g.ownership c.environment files c :=
  history.obeys (fun w admitted => (orderly w admitted).toSite)
    (fun _ => g.ownership_lasting)
    fun {_ w _ _ model} admitted obeys _ force =>
      (spares_ensure (orderly w admitted) obeys model force).1

/-- The place of a model is sheltered from all requests. -/
theorem Placed.sheltered {other : Path} (placed : g.Placed model) :
    g.Sheltered c other (model.location g.here) :=
  ⟨placed.notIndex, placed.notTemporary, fun u declared => (placed.outside.apart u declared).1,
    fun u declared isPlace => absurd isPlace (placed.outside.apart u declared).2⟩

/-- Whether the entry, the miss and the executable of a model are as they were. -/
structure Untouched (g : Grounds) (model : Path) (b b' : Bench) : Prop where
  entry : b'.cache.entry? g.here model = b.cache.entry? g.here model
  miss : b'.cache.miss? g.here model = b.cache.miss? g.here model
  executable : ∀ d, b.cache.entry? g.here model = some d → ∀ content mode,
    b'.files.get? (d.artifact.location g.here) = some (.file content mode) ↔
      b.files.get? (d.artifact.location g.here) = some (.file content mode)
  readable : ∀ d, b.cache.entry? g.here model = some d → ∀ content,
    b.files.read g.here d.artifact = .ok content → b'.files.read g.here d.artifact = .ok content

/-- The executable of another model's entry is sheltered. -/
theorem Owned.sheltered (owned : g.Owned c.entries c.misses)
    (temporaryApart : g.layout.Apart g.here (g.layout.temporary.location g.here)) {d : Descriptor}
    (member : d ∈ c.entries) (other : d.key ≠ Cache.key g.here model) :
    g.Sheltered c model (d.artifact.location g.here) := by
  obtain ⟨u, declared, isPlace, -⟩ := owned.place_of_mem member
  rw [isPlace]
  exact ⟨Ne.symm (g.indexApart u declared).2, Ne.symm (temporaryApart u declared).2,
    fun v declaredV => g.place_ne_source declared declaredV,
    fun v _ same => ⟨d, member, other, isPlace⟩⟩

theorem Spares.untouched {neighbour : Path} (spares : g.Spares model b b')
    (owned : g.Owned b.cache.entries b.cache.misses)
    (temporaryApart : g.layout.Apart g.here (g.layout.temporary.location g.here))
    (other : Cache.key g.here neighbour ≠ Cache.key g.here model) :
    g.Untouched neighbour b b' := by
  have grows : ∀ d, b.cache.entry? g.here neighbour = some d →
      GrowsAt b.files b'.files (d.artifact.location g.here) := by
    intro d found
    obtain ⟨member, key⟩ := Cache.mem_of_found found
    exact spares.files _ (owned.sheltered temporaryApart member (key ▸ other))
  refine ⟨spares.entries _ other, spares.misses _ other, fun d found content mode => ?_,
    fun d found content readable => ?_⟩
  · exact (grows d found).file_iff
  · exact FileTree.read_mono spares.directories (grows d found) readable

theorem Owned.distinct (owned : g.Owned c.entries c.misses) :
    c.entries.Pairwise fun d e => d.artifact.same e.artifact = false := by
  refine owned.ordered.imp_of_mem fun {d e} memberD memberE before => ?_
  refine Bool.eq_false_iff.mpr fun same => ?_
  have location := FileTree.location_of_same (eq_of_beq same) g.here
  rw [owned.unique d memberD e memberE location] at before
  exact lt_irrefl _ before

/-- In every run over a project whose generator changes no file and whose compiler writes its output
alone: no two entries have the same executable, each executable is in the place of a unit that some
source declares, and no request about one model, however it ends, touches the entry, the miss or
the executable of another. In the layout of a project the temporary of the index is apart from
sources and executables, by `Layout.index_apart`. -/
theorem neighbours_untouched {log : List Compilation}
    (temporaryApart : g.layout.Apart g.here (g.layout.temporary.location g.here))
    (history : g.History g.Orderly (fun _ _ => True) files (some (w, c)) log) :
    (c.entries.Pairwise fun d e => d.artifact.same e.artifact = false) ∧
      (∀ d ∈ c.entries, ∃ u : SourceUnit, u.Declared ∧
        d.artifact = (g.layout.artifactFile u.package u.typeName).normalised g.here.path) ∧
      ∀ model neighbour, Cache.key g.here neighbour ≠ Cache.key g.here model →
        (∀ force, g.Untouched neighbour ⟨files, c⟩ (w.ensure ⟨files, c⟩ model force).bench) ∧
        g.Untouched neighbour ⟨files, c⟩ (w.invalidate ⟨files, c⟩ model).1 ∧
        g.Untouched neighbour ⟨files, c⟩
          ⟨(c.lookup w.digest files w.here model).files,
            (c.lookup w.digest files w.here model).cache⟩ := by
  obtain ⟨orderly, obeys⟩ := (owned_of_history (fun _ => id) history).2 w c rfl
  have owned : g.Owned c.entries c.misses := obeys.records
  have bench : g.Obeys g.ownership c.environment (Bench.mk files c).files (Bench.mk files c).cache :=
    obeys
  refine ⟨owned.distinct, owned.placed, fun model neighbour other => ⟨fun force => ?_, ?_, ?_⟩⟩
  · exact (spares_ensure orderly bench model force).2.untouched owned temporaryApart other
  · exact (spares_invalidate orderly.toSite bench model).2.untouched owned temporaryApart other
  · have spares : g.Spares model ⟨files, c⟩ (w.refreshed ⟨files, c⟩ model) :=
      (spares_refreshed orderly.toSite bench).2
    exact spares.untouched owned temporaryApart other

end Grounds

namespace Rehearsal

/-- A pipeline that rehearses changes no file but what it builds. -/
theorem orderly (identity : Bytes) {here : Location} {layout : Layout}
    {proper : ∀ name ∈ here, Path.IsName name}
    {indexApart : layout.Outside here (layout.cacheIndex.location here)} :
    (premises here layout proper indexApart).Orderly (workshop here layout identity) where
  toSite := (admits identity).toSite
  generatorSilent files model l := by
    have silent : ((workshop here layout identity).generator files model).1 = files :=
      (generator_spec here files model).1
    rw [silent]
  compilerWrites := compiler_writes identity here

/-- A model that was built is not touched by a request for another one. -/
theorem neighbours_untouched_rehearsed :
    project.layout.Apart project.here (project.layout.temporary.location project.here) ∧
      project.History project.Orderly (fun _ _ => True) built.bench.files
        (some (pipeline, built.bench.cache)) (pipeline.calls ⟨fresh, unused⟩ ⟨"m"⟩ false) ∧
      built.bench.cache.entry? project.here ⟨"m"⟩ = some entry ∧
      ∀ force, project.Untouched ⟨"m"⟩ built.bench
        (pipeline.ensure built.bench ⟨"n"⟩ force).bench := by
  have opening : project.History project.Orderly (fun _ _ => True) fresh
      (some (pipeline, unused)) [] := history_fresh (orderly [1])
  have history := @Grounds.History.ensured _ _ _ _ _ _ _ ⟨"m"⟩ opening trivial false
  obtain ⟨-, -, untouched⟩ := Grounds.neighbours_untouched temporaryApart_project history
  exact ⟨temporaryApart_project, history, by decide +kernel,
    (untouched ⟨"n"⟩ ⟨"m"⟩ (by decide +kernel)).1⟩

end Rehearsal
end SimWorkbench
