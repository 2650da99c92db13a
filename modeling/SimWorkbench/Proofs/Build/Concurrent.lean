import SimWorkbench.Proofs.Build.Reach

/-!
# Two requests at once

Two requests on one pipeline take turns stage by stage. If their sources declare different units,
each stores the executable that the compiler left for its own source. The check of the owners does
not hold the place of a unit until the executable is stored, so two requests for one unit can pass it
both; then one may store what was built for the other.
-/
namespace SimWorkbench

open FileTree (KeepsDirectories GrowsAt)

/-- The unit of a source that is to be checked against the owners. -/
def Request.claimed? : Request → Option SourceUnit
  | claim _ unit => some unit
  | _ => none

/-- A request under way: how far it has come, the unit of the source that was generated, the text it
wrote last, its last call of the compiler, and the files from which it stored an executable. -/
structure Thread where
  model : Path
  stage : Request
  unit? : Option SourceUnit
  text : String
  call? : Option Compilation
  stored? : Option FileTree

namespace Thread

/-- A request that has not begun. -/
def start (model : Path) (force : Bool) : Thread := ⟨model, Request.start force, none, "", none, none⟩

/-- Advances a request by one stage. -/
def step (w : Workshop) (b : Bench) (t : Thread) : Bench × Thread :=
  ((w.step b t.model t.stage).1,
    ⟨t.model, (w.step b t.model t.stage).2, t.unit?.or (w.step b t.model t.stage).2.claimed?,
      t.stage.written?.getD t.text, (w.compilation? b t.text t.stage).or t.call?,
      if t.stage.built?.isSome then some b.files else t.stored?⟩)

/-- Whether a text is the source of a unit that was generated for a request. -/
structure Generated (t : Thread) (w : Workshop) (text : String) (unit : SourceUnit) : Prop where
  isUnit : t.unit? = some unit
  source : ∃ files source, (w.generator files t.model).2 = .ok source ∧ source.text = text ∧
    source.unit = .ok unit

theorem Generated.declared {t : Thread} {w : Workshop} {text : String} {unit : SourceUnit}
    (generated : t.Generated w text unit) : unit.Declared := by
  obtain ⟨files, source, -, rfl, accepted⟩ := generated.source
  exact ⟨_, GeneratedSource.parse_of_unit accepted⟩

/-- The unit of a request does not change any more. -/
theorem unit?_step {w : Workshop} {b : Bench} {t : Thread} {unit : SourceUnit}
    (isUnit : t.unit? = some unit) : (t.step w b).2.unit? = some unit := by
  simp [Thread.step, isUnit]

theorem step_finished {w : Workshop} {b : Bench} {t : Thread}
    {result : Except BuildFailure (Descriptor × Provenance)} (ended : t.stage = .finished result) :
    t.step w b = (b, t) := by
  obtain ⟨model, stage, unit?, text, call?, stored?⟩ := t
  cases ended
  simp [step, Workshop.step, Request.claimed?, Request.written?, Workshop.compilation?, Request.built?]

theorem Generated.step {t t' : Thread} {w : Workshop} {text : String} {unit : SourceUnit} {b b' : Bench}
    (generated : t.Generated w text unit) (steps : t.step w b = (b', t')) :
    t'.Generated w text unit := by
  have isUnit := @Thread.unit?_step w b t unit generated.isUnit
  rw [steps] at isUnit
  refine ⟨isUnit, ?_⟩
  simp only [Thread.step] at steps
  cases steps
  exact generated.source

/-- Whether a request, by its last call of the compiler, had the source compiled that it generated,
and stored the executable as that call left it. -/
structure Stored (t : Thread) (s : Premises) (w : Workshop) (d : Descriptor) (k : Compilation)
    (files : FileTree) : Prop where
  call : t.call? = some k
  stored : t.stored? = some files
  generated : ∃ unit, t.Generated w k.text unit
  written : s.Wrote k.before k.job.source k.text
  compiled : (w.site.compiler.compile k.before k.job).1 = k.after
  artifact : d.artifact = k.job.output.normalised s.here.path
  executable : ∃ e, e.isFile = true ∧ k.after.get? (d.artifact.location s.here) = some e ∧
    files.get? (d.artifact.location s.here) = some e
  fingerprint : d.fingerprint = Fingerprint.now w.digest files s.here [d.source, d.artifact]

end Thread

/-- What two requests can come to that take turns. -/
inductive Interleaved (w : Workshop) (b₀ : Bench) (t₀ u₀ : Thread) : Bench → Thread → Thread → Prop
  | start : Interleaved w b₀ t₀ u₀ b₀ t₀ u₀
  | first {b t u} (past : Interleaved w b₀ t₀ u₀ b t u) :
    Interleaved w b₀ t₀ u₀ (t.step w b).1 (t.step w b).2 u
  | second {b t u} (past : Interleaved w b₀ t₀ u₀ b t u) :
    Interleaved w b₀ t₀ u₀ (u.step w b).1 t (u.step w b).2

namespace Premises

variable {s : Premises} {w : Workshop} {b b' : Bench} {environment : String} {t t' : Thread}
  {r' : Request} {u : Thread}

/-- Whether a call of the compiler is the last one of a request, for its own source of a unit, and
the place of the unit is as the call left it. -/
structure Own (s : Premises) (w : Workshop) (t : Thread) (unit : SourceUnit) (k : Compilation)
    (files : FileTree) : Prop where
  call : t.call? = some k
  generated : t.Generated w k.text unit
  written : s.Wrote k.before k.job.source k.text
  compiled : (w.site.compiler.compile k.before k.job).1 = k.after
  output : k.job.output = s.layout.artifactFile unit.package unit.typeName
  kept : GrowsAt k.after files (s.place unit)

/-- What a request knows of its own source and of its call of the compiler. -/
def Knows (s : Premises) (w : Workshop) (t : Thread) (files : FileTree) : Request → Prop
  | .lookup | .generate => t.unit? = none
  | .claim text unit => t.Generated w text unit
  | .invoking (.writeSource unit text) => t.Generated w text unit
  | .invoking (.clearOutput unit) | .invoking (.callCompiler unit) =>
    t.Generated w t.text unit ∧
      s.Wrote files (s.layout.sourceFile unit.package unit.typeName) t.text
  | .invoking (.inspect unit _) => ∃ k, s.Own w t unit k files
  | .store built => ∃ unit k e, built.artifact = s.layout.artifactFile unit.package unit.typeName ∧
      s.Own w t unit k files ∧ e.isFile = true ∧ k.after.get? (s.place unit) = some e
  | .finished (.ok (d, .compiled)) => ∃ k files, t.Stored s w d k files
  | _ => True

/-- Whether a request under way keeps the law and knows what it has to know. -/
structure Underway (s : Premises) (w : Workshop) (environment : String) (b : Bench) (t : Thread) :
    Prop where
  steady : s.Steady environment t.model b t.stage
  knows : s.Knows w t b.files t.stage

theorem knows_callCompiler (orderly : s.Orderly w) {unit : SourceUnit}
    (stage : t.stage = .invoking (.callCompiler unit))
    (knows : s.Knows w t b.files (.invoking (.callCompiler unit)))
    (steps : t.step w b = (b', t')) : s.Knows w t' b'.files t'.stage := by
  obtain ⟨generated, wrote⟩ := knows
  have generated := generated.step steps
  simp only [Thread.step, stage, w.step_callCompiler] at steps
  cases steps
  refine ⟨⟨b.cache.environment, t.text, Invocation.job w.site unit, b.files, _, _⟩, rfl, generated, ?_,
    rfl, Grounds.job_output orderly unit, .inl rfl⟩
  rwa [Grounds.job_source orderly]

theorem knows_inspect (orderly : s.Orderly w) {unit : SourceUnit} {answer : String}
    (stage : t.stage = .invoking (.inspect unit answer))
    (knows : s.Knows w t b.files (.invoking (.inspect unit answer)))
    (steps : t.step w b = (b', t')) : s.Knows w t' b'.files t'.stage := by
  obtain ⟨k, own⟩ := knows
  have generated := own.generated.step steps
  obtain ⟨after, next, outcome⟩ := w.step_inspect b t.model unit answer
  simp only [Thread.step, stage, next] at steps
  cases steps
  rcases outcome with ⟨-, isFile, rfl⟩ | ⟨-, diagnostic, rfl⟩
  · rw [orderly.here, Grounds.job_output orderly] at isFile
    obtain ⟨e, located, regular⟩ := FileTree.locate_of_isFile isFile
    have there : b.files.get? (s.place unit) = some e := FileTree.locate_get? located
    have left : k.after.get? (s.place unit) = some e := by
      rcases own.kept with same | ⟨-, directory⟩
      · rw [← same, there]
      · rw [there, Option.some.injEq] at directory
        subst directory
        cases regular
    exact ⟨unit, k, e, Grounds.job_output orderly unit,
      ⟨own.call, generated, own.written, own.compiled, own.output, own.kept⟩, regular, left⟩
  · trivial

theorem knows_store (orderly : s.Orderly w) {built : CompiledArtifact}
    (stage : t.stage = .store built) (knows : s.Knows w t b.files (.store built))
    (steps : t.step w b = (b', t')) : s.Knows w t' b'.files t'.stage := by
  obtain ⟨unit, k, e, artifact, own, regular, left⟩ := knows
  have generated := own.generated.step steps
  obtain ⟨result, next, outcome⟩ := w.step_store b t.model built
  simp only [Thread.step, stage, next] at steps
  cases steps
  rcases outcome with rfl | ⟨fault, rfl⟩
  · have isPlace : (built.artifact.normalised s.here.path).location s.here = s.place unit := by
      rw [Path.location_normalised _ s.proper, artifact, Grounds.place]
    refine ⟨k, b.files, own.call, rfl, ⟨unit, generated⟩, own.written, own.compiled, ?_, ?_, ?_⟩
    · simp only [Cache.entryOf, orderly.here, own.output, artifact]
    · simp only [Cache.entryOf, orderly.here, isPlace]
      exact ⟨e, regular, left, own.kept.file left⟩
    · simp only [Cache.entryOf, orderly.here]
  · trivial

/-- A request keeps what it knows with every stage of its own. -/
theorem knows_step (orderly : s.Orderly w) (underway : s.Underway w environment b t)
    (steps : t.step w b = (b', t')) : s.Knows w t' b'.files t'.stage := by
  have here : w.here = s.here := orderly.here
  have steady := underway.steady
  have knows := underway.knows
  cases stage : t.stage with
  | lookup =>
    obtain ⟨after, next, outcome⟩ := w.step_lookup b t.model
    simp only [Thread.step, stage, next] at steps
    cases steps
    rcases outcome with ⟨d, rfl⟩ | rfl | rfl
    · trivial
    · trivial
    · rw [stage] at knows
      exact congrArg (Option.or · none) knows
  | generate =>
    rw [stage] at knows
    obtain ⟨after, next, outcome⟩ := w.step_generate b t.model
    simp only [Thread.step, stage, next] at steps
    cases steps
    rcases outcome with ⟨failure, rfl⟩ | ⟨source, unit, made, accepted, rfl⟩
    · trivial
    · exact ⟨congrArg (Option.or · (some unit)) knows, b.files, source, made, rfl, accepted⟩
  | claim text unit =>
    rw [stage] at knows
    have generated := knows.step steps
    obtain ⟨files, source, made, rfl, accepted⟩ := knows.source
    cases owner : w.owner? b.cache t.model unit with
    | some d =>
      simp only [Thread.step, stage, Workshop.step, Workshop.checkOwner, owner] at steps
      cases steps
      trivial
    | none =>
      simp only [Thread.step, stage, Workshop.claim_of_unowned owner,
        GeneratedSource.start_of_unit accepted] at steps
      cases steps
      exact generated
  | invoking progress =>
    rw [stage] at knows steady
    cases progress with
    | writeSource unit text =>
      have generated := Thread.Generated.step knows steps
      obtain ⟨after, next, outcome⟩ := w.step_writeSource b t.model unit text
      rw [here, Grounds.job_source orderly] at next outcome
      simp only [Thread.step, stage, next] at steps
      cases steps
      rcases outcome with ⟨done, rfl⟩ | ⟨fault, -, rfl⟩
      · exact ⟨generated, wrote_of_placing (Prod.ext rfl done)⟩
      · trivial
    | clearOutput unit =>
      obtain ⟨generated, wrote⟩ := knows
      have declared := generated.declared
      have generated := generated.step steps
      obtain ⟨after, next, outcome⟩ := w.step_clearOutput b t.model unit
      rw [here, Grounds.job_output orderly] at next outcome
      simp only [Thread.step, stage, next] at steps
      cases steps
      obtain ⟨kept, grows⟩ := @Grounds.placing_change s.toGrounds
        (s.layout.artifactFile unit.package unit.typeName) (.discard _) rfl b.files
      rcases outcome with ⟨-, rfl⟩ | ⟨fault, -, rfl⟩
      · exact ⟨generated, wrote.mono kept (grows _ (s.place_ne_source declared declared).symm)⟩
      · trivial
    | callCompiler unit => exact knows_callCompiler orderly stage knows steps
    | inspect unit answer => exact knows_inspect orderly stage knows steps
    | finished result =>
      obtain ⟨cause, rfl⟩ := steady.claimed
      simp only [Thread.step, stage, step_invoking] at steps
      cases steps
      trivial
  | recordMiss diagnostic =>
    obtain ⟨failure, next, -⟩ := w.step_recordMiss b t.model diagnostic
    simp only [Thread.step, stage, next] at steps
    cases steps
    trivial
  | store built => exact knows_store orderly stage (stage ▸ knows) steps
  | finished result =>
    cases (Thread.step_finished stage).symm.trans steps
    exact knows

/-- What a request builds belongs to a unit that its model declares. -/
theorem builds_of_underway {l : Location} (underway : s.Underway w environment b t)
    (builds : s.Builds l t.stage) : ∃ unit text, t.Generated w text unit ∧
      (l = (s.layout.sourceFile unit.package unit.typeName).location s.here ∨ l = s.place unit) := by
  have knows := underway.knows
  cases stage : t.stage with
  | invoking progress =>
    rw [stage] at knows builds
    cases progress with
    | writeSource unit text => exact ⟨unit, text, knows, .inl builds⟩
    | clearOutput unit | callCompiler unit => exact ⟨unit, t.text, knows.1, .inr builds⟩
    | _ => exact builds.elim
  | _ =>
    rw [stage] at builds
    exact builds.elim

/-- What another request has claimed is left alone by a stage of a request for another unit. -/
theorem spares_claimed (orderly : s.Orderly w)
    (temporaryApart : s.layout.Apart s.here (s.layout.temporary.location s.here))
    (underway : s.Underway w environment b t) {rival : Path} {unit : SourceUnit}
    (others : Cache.key s.here t.model ≠ Cache.key s.here rival)
    (declared : unit.Declared) (distinct : t.unit? ≠ some unit)
    (free : s.Free b.cache rival unit) (steps : w.step b t.model t.stage = (b', r')) :
    KeepsDirectories b.files b'.files ∧ GrowsAt b.files b'.files (s.place unit) ∧
      GrowsAt b.files b'.files ((s.layout.sourceFile unit.package unit.typeName).location s.here) ∧
      s.Free b'.cache rival unit := by
  have obeys := underway.steady.obeys
  have owned : s.Owned b.cache.entries b.cache.misses := obeys.records
  have advances := Grounds.advances_step orderly underway.steady
  rw [steps] at advances
  have notBuilt : ∀ l, l = s.place unit ∨
      l = (s.layout.sourceFile unit.package unit.typeName).location s.here →
        ¬ s.Builds l t.stage := by
    intro l isPlace builds
    obtain ⟨unit', text, generated, isPlace'⟩ := builds_of_underway underway builds
    have declared' := generated.declared
    have same : unit' = unit := by
      rcases isPlace with rfl | rfl <;> rcases isPlace' with same | same
      · exact absurd same (s.place_ne_source declared declared')
      · exact (Grounds.place_injective declared declared' same).symm
      · exact (Layout.sourceFile_injective declared declared' same).symm
      · exact absurd same.symm (s.place_ne_source declared' declared)
    exact distinct (same ▸ generated.isUnit)
  have reach : s.OutOfReach b.cache t.model t.stage (s.place unit) := by
    refine ⟨(s.indexApart unit declared).2.symm, (temporaryApart unit declared).2.symm,
      notBuilt _ (.inl rfl), fun d member isOwn isPlace => ?_⟩
    exact others (isOwn.symm.trans (free d member isPlace.symm))
  have reachSource : s.OutOfReach b.cache t.model t.stage
      ((s.layout.sourceFile unit.package unit.typeName).location s.here) := by
    refine ⟨(s.indexApart unit declared).1.symm, (temporaryApart unit declared).1.symm,
      notBuilt _ (.inr rfl), fun d member _ isPlace => ?_⟩
    obtain ⟨v, declaredV, isPlaceV, -⟩ := owned.place_of_mem member
    exact s.place_ne_source declaredV declared (isPlaceV.symm.trans isPlace.symm)
  refine ⟨advances.spares.directories, Grounds.growsAt_step orderly obeys reach steps,
    Grounds.growsAt_step orderly obeys reachSource steps, fun d member isPlace => ?_⟩
  rcases Grounds.entries_step steps member with before | ⟨built, stage, isEntry⟩
  · exact free d before isPlace
  · have knows := underway.knows
    rw [stage] at knows
    obtain ⟨unit', k, e, isArtifact, own, -⟩ := knows
    rw [isEntry, Cache.entryOf, orderly.here, Path.location_normalised _ s.proper,
      isArtifact] at isPlace
    obtain rfl : unit' = unit :=
      Grounds.place_injective own.generated.declared declared isPlace
    exact absurd own.generated.isUnit distinct

/-- A request keeps what it knows when a request for another unit takes a stage. -/
theorem underway_beside (orderly : s.Orderly w)
    (temporaryApart : s.layout.Apart s.here (s.layout.temporary.location s.here))
    (underway : s.Underway w environment b t) (rival : s.Underway w environment b u)
    (others : Cache.key s.here t.model ≠ Cache.key s.here u.model)
    (distinct : ∀ unit, t.unit? = some unit → u.unit? ≠ some unit) :
    s.Underway w environment (t.step w b).1 u := by
  rcases steps : w.step b t.model t.stage with ⟨b', r'⟩
  have bench : (t.step w b).1 = b' := congrArg Prod.fst steps
  rw [bench]
  have advances := Grounds.advances_step orderly underway.steady
  rw [steps] at advances
  have frame {unit : SourceUnit} {text : String} (generated : u.Generated w text unit)
      (free : s.Free b.cache u.model unit) := spares_claimed orderly temporaryApart underway others
    generated.declared (fun same => distinct unit same generated.isUnit) free steps
  obtain ⟨⟨-, claimed⟩, knows⟩ := rival
  suffices both : s.Claimed b'.cache u.model u.stage ∧ s.Knows w u b'.files u.stage from
    ⟨⟨advances.steady.obeys, both.1⟩, both.2⟩
  cases stage : u.stage with
  | invoking progress =>
    rw [stage] at claimed knows
    cases progress with
    | writeSource unit text =>
      obtain ⟨-, -, -, free⟩ := frame knows claimed.2
      exact ⟨⟨claimed.1, free⟩, knows⟩
    | clearOutput unit | callCompiler unit =>
      obtain ⟨kept, -, source, free⟩ := frame knows.1 claimed.2
      exact ⟨⟨claimed.1, free⟩, knows.1, knows.2.mono kept source⟩
    | inspect unit answer =>
      obtain ⟨k, own⟩ := knows
      obtain ⟨-, place, -, free⟩ := frame own.generated claimed.2
      exact ⟨⟨claimed.1, free⟩, k, { own with kept := own.kept.trans place }⟩
    | finished result => exact ⟨claimed, trivial⟩
  | store built =>
    rw [stage] at claimed knows
    obtain ⟨unit, k, e, artifact, own, left⟩ := knows
    obtain ⟨v, declared, free, artifact'⟩ := claimed
    have same : s.place v = s.place unit := by
      rw [Grounds.place, Grounds.place, ← artifact, ← artifact']
    obtain rfl := Grounds.place_injective declared own.generated.declared same
    obtain ⟨-, place, -, free⟩ := frame own.generated free
    exact ⟨⟨v, declared, free, artifact⟩, v, k, e, artifact,
      { own with kept := own.kept.trans place }, left⟩
  | finished result =>
    rw [stage] at knows
    refine ⟨trivial, ?_⟩
    rcases result with failure | ⟨d, _ | _⟩
    · trivial
    · trivial
    · exact knows
  | claim text unit =>
    rw [stage] at knows
    exact ⟨trivial, knows⟩
  | lookup | generate =>
    rw [stage] at knows
    exact ⟨trivial, knows⟩
  | recordMiss diagnostic => exact ⟨trivial, trivial⟩

theorem underway_start (obeys : s.Obeys s.ownership environment b.files b.cache) (model : Path)
    (force : Bool) : s.Underway w environment b (.start model force) := by
  cases force with
  | true =>
    have knows : s.Knows w (.start model true) b.files .generate := rfl
    exact ⟨⟨obeys, trivial⟩, knows⟩
  | false =>
    have knows : s.Knows w (.start model false) b.files .lookup := rfl
    exact ⟨⟨obeys, trivial⟩, knows⟩

theorem underway_step (orderly : s.Orderly w) (underway : s.Underway w environment b t) :
    s.Underway w environment (t.step w b).1 (t.step w b).2 := by
  rcases steps : t.step w b with ⟨b', t'⟩
  have knows := knows_step orderly underway steps
  have advances := Grounds.advances_step orderly underway.steady
  simp only [Thread.step] at steps
  cases steps
  exact ⟨advances.steady, knows⟩

/-- Both of two requests for different units keep what they know, however they take turns. -/
theorem underway_interleaved {b₀ : Bench} {t₀ u₀ : Thread}
    (interleaved : Interleaved w b₀ t₀ u₀ b t u) (orderly : s.Orderly w)
    (temporaryApart : s.layout.Apart s.here (s.layout.temporary.location s.here))
    (others : Cache.key s.here t₀.model ≠ Cache.key s.here u₀.model)
    (distinct : ∀ unit, t.unit? = some unit → u.unit? ≠ some unit)
    (first : s.Underway w environment b₀ t₀) (second : s.Underway w environment b₀ u₀) :
    (t.model = t₀.model ∧ s.Underway w environment b t) ∧
      u.model = u₀.model ∧ s.Underway w environment b u := by
  induction interleaved with
  | start => exact ⟨⟨rfl, first⟩, rfl, second⟩
  | @first b t u past ih =>
    have apart : ∀ unit, t.unit? = some unit → u.unit? ≠ some unit :=
      fun unit isUnit => distinct unit (Thread.unit?_step isUnit)
    obtain ⟨⟨model, underway⟩, model', rival⟩ := ih apart
    refine ⟨⟨model, underway_step orderly underway⟩, model', ?_⟩
    exact underway_beside orderly temporaryApart underway rival (by rwa [model, model']) apart
  | @second b t u past ih =>
    have apart : ∀ unit, u.unit? = some unit → t.unit? ≠ some unit :=
      fun unit isUnit isUnit' => distinct unit isUnit' (Thread.unit?_step isUnit)
    obtain ⟨⟨model, underway⟩, model', rival⟩ := ih fun unit isUnit isUnit' => apart unit isUnit' isUnit
    refine ⟨⟨model, ?_⟩, model', underway_step orderly rival⟩
    exact underway_beside orderly temporaryApart rival underway
      (by rw [model, model']; exact others.symm) apart

/-- In every interleaving of two requests for different models on one pipeline, from every state that
requests can reach: unless both have generated sources of one unit, each request that answers that
it compiled has stored the executable that the compiler left for the request's own source. -/
theorem stores_own {files : FileTree} {c : Cache} {log : List Compilation} {model model' : Path}
    {force force' : Bool}
    (temporaryApart : s.layout.Apart s.here (s.layout.temporary.location s.here))
    (history : s.History s.Orderly (fun _ _ => True) files (some (w, c)) log)
    (others : Cache.key s.here model ≠ Cache.key s.here model')
    (interleaved : Interleaved w ⟨files, c⟩ (.start model force) (.start model' force') b t u)
    (distinct : ∀ unit, t.unit? = some unit → u.unit? ≠ some unit) :
    (∀ d, t.stage = .finished (.ok (d, .compiled)) → ∃ k stored, t.Stored s w d k stored) ∧
      ∀ d, u.stage = .finished (.ok (d, .compiled)) → ∃ k stored, u.Stored s w d k stored := by
  obtain ⟨orderly, obeys⟩ := (Grounds.owned_of_history (fun _ => id) history).2 w c rfl
  have bench : s.Obeys s.ownership c.environment (Bench.mk files c).files (Bench.mk files c).cache :=
    obeys
  obtain ⟨⟨-, first⟩, -, second⟩ := underway_interleaved interleaved orderly temporaryApart others
    distinct (underway_start bench model force) (underway_start bench model' force')
  constructor
  · intro d answer
    have knows := first.knows
    rw [answer] at knows
    exact knows
  · intro d answer
    have knows := second.knows
    rw [answer] at knows
    exact knows

end Premises

/-- Advances a request by some stages. -/
def Thread.steps (w : Workshop) : Nat → Bench → Thread → Bench × Thread
  | 0, b, t => (b, t)
  | n + 1, b, t => steps w n (t.step w b).1 (t.step w b).2

namespace Interleaved

variable {w : Workshop} {b₀ b : Bench} {t₀ u₀ t u : Thread}

theorem firsts (n : Nat) (past : Interleaved w b₀ t₀ u₀ b t u) :
    Interleaved w b₀ t₀ u₀ (t.steps w n b).1 (t.steps w n b).2 u := by
  induction n generalizing b t with
  | zero => exact past
  | succ n ih => exact ih past.first

theorem seconds (n : Nat) (past : Interleaved w b₀ t₀ u₀ b t u) :
    Interleaved w b₀ t₀ u₀ (u.steps w n b).1 t (u.steps w n b).2 := by
  induction n generalizing b u with
  | zero => exact past
  | succ n ih => exact ih past.second

end Interleaved

/-- The entry of a request that answers that it compiled. -/
def Request.compiled? : Request → Option Descriptor
  | finished (.ok (d, .compiled)) => some d
  | _ => none

theorem Request.eq_of_compiled? {r : Request} {d : Descriptor} (isCompiled : r.compiled? = some d) :
    r = .finished (.ok (d, .compiled)) := by
  unfold compiled? at isCompiled
  split at isCompiled <;> cases isCompiled
  rfl

namespace Rehearsal

/-- A directory with two models. -/
def pair (first second : String) : FileTree :=
  ⟨[(["tmp"], .directory), (["tmp", "job"], .directory),
    (["tmp", "job", "a"], .file (Bytes.ofString first) .plain),
    (["tmp", "job", "b"], .file (Bytes.ofString second) .plain)]⟩

/-- One request is about to look at what the compiler left. -/
def ahead (files : FileTree) : Bench × Thread :=
  (Thread.start ⟨"a"⟩ false).steps openPipeline 6 ⟨files, blank⟩

/-- The other request has come as far. -/
def abreast (files : FileTree) : Bench × Thread :=
  (Thread.start ⟨"b"⟩ false).steps openPipeline 6 (ahead files).1

/-- Then the first one ends. -/
def done (files : FileTree) : Bench × Thread :=
  (ahead files).2.steps openPipeline 2 (abreast files).1

theorem interleaved_done (files : FileTree) :
    Interleaved openPipeline ⟨files, blank⟩ (.start ⟨"a"⟩ false) (.start ⟨"b"⟩ false) (done files).1
      (done files).2 (abreast files).2 :=
  ((Interleaved.start.firsts 6).seconds 6).firsts 2

theorem orderly_open : openProject.Orderly openPipeline :=
  ⟨admits_open.toSite, (orderly [1] : project.Orderly pipeline).generatorSilent,
    admits_open.compilerWrites⟩

theorem temporaryApart_open :
    openProject.layout.Apart openProject.here
      (openProject.layout.temporary.location openProject.here) :=
  temporaryApart_project

theorem pair_history {first second : String}
    (fresh : (pair first second).get? openProject.index = none)
    (opened : (openPipeline.openBench (pair first second)).1 = pair first second ∧
      (openPipeline.openBench (pair first second)).2.toOption = some ⟨pair first second, blank⟩) :
    openProject.History openProject.Orderly (fun _ _ => True) (pair first second)
      (some (openPipeline, blank)) [] :=
  .begins fresh orderly_open opened

/-- Two models with sources of different units. -/
def parted : FileTree := pair source "pub mod p \x7b\npub struct U;\n\x7d\n"

theorem parted_reads :
    ((done parted).2.stage.compiled?.map fun d => d.artifact) = some ⟨"/c/p/T"⟩ ∧
      (done parted).2.unit? = some ⟨"p", "T"⟩ ∧ (abreast parted).2.unit? = some ⟨"p", "U"⟩ := by
  decide +kernel

/-- A request that took turns with one for another unit has stored what was built for it. -/
theorem stores_own_rehearsed :
    Interleaved openPipeline ⟨parted, blank⟩ (.start ⟨"a"⟩ false) (.start ⟨"b"⟩ false) (done parted).1
        (done parted).2 (abreast parted).2 ∧
      ∃ d k stored, (done parted).2.stage = .finished (.ok (d, .compiled)) ∧
        (done parted).2.Stored openProject openPipeline d k stored := by
  obtain ⟨answer, isUnit, isUnit'⟩ := parted_reads
  obtain ⟨d, isCompiled, -⟩ := Option.map_eq_some_iff.mp answer
  have history : openProject.History openProject.Orderly (fun _ _ => True) parted
      (some (openPipeline, blank)) [] := pair_history (by decide +kernel) (by decide +kernel)
  have distinct : ∀ unit, (done parted).2.unit? = some unit →
      (abreast parted).2.unit? ≠ some unit := by
    intro unit isOne isOther
    rw [isUnit, Option.some.injEq] at isOne
    rw [isUnit', Option.some.injEq, ← isOne] at isOther
    exact absurd isOther (by decide)
  have ended := Request.eq_of_compiled? isCompiled
  obtain ⟨k, stored, isStored⟩ := (Premises.stores_own temporaryApart_open history
    (by decide +kernel) (interleaved_done parted) distinct).1 d ended
  exact ⟨interleaved_done parted, d, k, stored, ended, isStored⟩

/-- Two models with different sources of one unit. -/
def contested : FileTree := pair source (source ++ "// b\n")

/-- What stands at the place of the executable, by the own call, when it was stored, and by the call
of the other request. -/
theorem contested_reads :
    (done contested).2.stage.compiled?.map (fun d => d.artifact.location ["tmp", "job"]) =
        some ["c", "p", "T"] ∧
      (done contested).2.call?.isSome = true ∧ (abreast contested).2.call?.isSome = true ∧
      (done contested).2.stored?.isSome = true ∧
      ((done contested).2.call?.map fun k => k.after.get? ["c", "p", "T"]) ≠
        ((done contested).2.stored?.map fun files => files.get? ["c", "p", "T"]) ∧
      ((abreast contested).2.call?.map fun k => k.after.get? ["c", "p", "T"]) =
        ((done contested).2.stored?.map fun files => files.get? ["c", "p", "T"]) := by
  decide +kernel

/-- Two requests for one unit can pass the check of the owners both. Then one answers that it
compiled, and has stored the executable that the compiler left for the other. -/
theorem stores_foreign :
    ∃ b t u d, Interleaved openPipeline ⟨contested, blank⟩ (.start ⟨"a"⟩ false) (.start ⟨"b"⟩ false)
        b t u ∧
      openProject.History openProject.Orderly (fun _ _ => True) contested
        (some (openPipeline, blank)) [] ∧
      Cache.key openProject.here ⟨"a"⟩ ≠ Cache.key openProject.here ⟨"b"⟩ ∧
      t.stage = .finished (.ok (d, .compiled)) ∧
      (∀ k stored, ¬ t.Stored openProject openPipeline d k stored) ∧
      ∃ k k' stored, t.call? = some k ∧ u.call? = some k' ∧ t.stored? = some stored ∧
        k.after.get? (d.artifact.location openProject.here) ≠
          stored.get? (d.artifact.location openProject.here) ∧
        k'.after.get? (d.artifact.location openProject.here) =
          stored.get? (d.artifact.location openProject.here) := by
  obtain ⟨answer, called, called', wasStored, differ, foreign⟩ := contested_reads
  obtain ⟨d, isCompiled, isPlace⟩ := Option.map_eq_some_iff.mp answer
  obtain ⟨k, isCall⟩ := Option.isSome_iff_exists.mp called
  obtain ⟨k', isCall'⟩ := Option.isSome_iff_exists.mp called'
  obtain ⟨stored, isStored⟩ := Option.isSome_iff_exists.mp wasStored
  have place : d.artifact.location openProject.here = ["c", "p", "T"] := isPlace
  rw [isCall, isStored, ← place] at differ
  rw [isCall', isStored, ← place] at foreign
  have differ : k.after.get? (d.artifact.location openProject.here) ≠
      stored.get? (d.artifact.location openProject.here) := fun same => differ (congrArg some same)
  refine ⟨_, _, _, d, interleaved_done contested, pair_history (by decide +kernel) (by decide +kernel),
    by decide +kernel, Request.eq_of_compiled? isCompiled, fun k₁ stored₁ faithful => differ ?_, k, k',
    stored, isCall, isCall', isStored, differ, Option.some.inj foreign⟩
  obtain ⟨e, -, left, there⟩ := faithful.executable
  cases isCall.symm.trans faithful.call
  cases isStored.symm.trans faithful.stored
  rw [left, there]

end Rehearsal
end SimWorkbench
