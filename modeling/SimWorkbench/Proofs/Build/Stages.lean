import SimWorkbench.Build.Pipeline
import SimWorkbench.Proofs.Cache.Outcome

/-!
# What the stages of a request do

One lemma for each stage of a request says how files and cache change and what follows.
-/
namespace SimWorkbench

namespace Request

/-- The executable that is to be stored. -/
def built? : Request → Option CompiledArtifact
  | store built => some built
  | _ => none

theorem eq_store {r : Request} {built : CompiledArtifact} (isBuilt : r.built? = some built) :
    r = .store built := by
  cases r <;> simp_all [built?]

/-- The diagnostic whose miss is to be recorded, if the compile has come to that. -/
def rejected? : Request → Option Diagnostic
  | recordMiss diagnostic => some diagnostic
  | _ => none

theorem eq_recordMiss {r : Request} {diagnostic : Diagnostic}
    (isRejected : r.rejected? = some diagnostic) : r = .recordMiss diagnostic := by
  cases r <;> simp_all [rejected?]

end Request

namespace Workshop

variable {w : Workshop} {b : Bench} {model : Path} {text : String} {unit : SourceUnit}
  {d : Descriptor}

theorem lookup_of_current (found : b.cache.entry? w.here model = some d)
    (current : Cache.outdated w.digest b.files w.here d = false) :
    w.step b model .lookup = (b, .finished (.ok (d, .cached))) := by
  simp only [step, answerFromCache, Cache.lookup_of_current found current]

/-- The bench without an entry of the model that is out of date. -/
def refreshed (w : Workshop) (b : Bench) (model : Path) : Bench :=
  ⟨(b.cache.lookup w.digest b.files w.here model).files,
    (b.cache.lookup w.digest b.files w.here model).cache⟩

theorem refreshed_of_none (missing : b.cache.entry? w.here model = none) :
    w.refreshed b model = b := by
  simp only [refreshed, Cache.lookup_of_none missing]

theorem refreshed_of_outdated (found : b.cache.entry? w.here model = some d)
    (stale : Cache.outdated w.digest b.files w.here d = true) :
    w.refreshed b model =
      ⟨(b.cache.withoutEntry w.here model).swept w.here [d.artifact] b.files,
        b.cache.withoutEntry w.here model⟩ := by
  simp only [refreshed, Cache.lookup_of_outdated found stale]

/-- Where the lookup finds no entry, what is remembered of a miss decides. -/
theorem lookup_of_unanswered
    (unanswered : ∀ d, b.cache.entry? w.here model = some d →
      Cache.outdated w.digest b.files w.here d = true) :
    w.step b model .lookup = (w.refreshed b model,
      if (w.refreshed b model).cache.isMiss w.digest (w.refreshed b model).files w.here model then
        .finished (.error (.knownMiss model)) else .generate) := by
  have none : (b.cache.lookup w.digest b.files w.here model).answer = none := by
    cases found : b.cache.entry? w.here model with
    | none => rw [Cache.lookup_of_none found]
    | some d => rw [Cache.lookup_of_outdated found (unanswered d found)]
  by_cases missed : (w.refreshed b model).cache.isMiss w.digest (w.refreshed b model).files w.here
      model = true
  · rw [if_pos missed]
    simp only [refreshed] at missed ⊢
    simp only [step, answerFromCache, none, missed, if_true]
  · rw [if_neg missed]
    simp only [refreshed] at missed ⊢
    simp only [step, answerFromCache, none, missed, Bool.false_eq_true, if_false]

/-- The lookup answers, or lets the request go on. -/
theorem step_lookup (w : Workshop) (b : Bench) (model : Path) :
    ∃ after, w.step b model .lookup = (w.refreshed b model, after) ∧
      ((∃ d, after = .finished (.ok (d, .cached))) ∨
        after = .finished (.error (.knownMiss model)) ∨ after = .generate) := by
  by_cases unanswered : ∀ d, b.cache.entry? w.here model = some d →
      Cache.outdated w.digest b.files w.here d = true
  · refine ⟨_, lookup_of_unanswered unanswered, .inr ?_⟩
    split
    · exact .inl rfl
    · exact .inr rfl
  · push Not at unanswered
    obtain ⟨d, found, current⟩ := unanswered
    have current : Cache.outdated w.digest b.files w.here d = false := by simpa using current
    have same : w.refreshed b model = b := by
      simp only [refreshed, Cache.lookup_of_current found current]
    exact ⟨_, by rw [lookup_of_current found current, same], .inl ⟨d, rfl⟩⟩

/-- A source is generated that declares a unit, or the request fails. -/
theorem step_generate (w : Workshop) (b : Bench) (model : Path) :
    ∃ after, w.step b model .generate = (⟨(w.generator b.files model).1, b.cache⟩, after) ∧
      ((∃ failure, after = .finished (.error failure)) ∨
        ∃ source unit, (w.generator b.files model).2 = .ok source ∧ source.unit = .ok unit ∧
          after = .claim source.text unit) := by
  simp only [step, produce]
  cases made : (w.generator b.files model).2 with
  | error failure => exact ⟨_, rfl, .inl ⟨_, rfl⟩⟩
  | ok source =>
    cases accepted : source.unit with
    | error cause =>
      simp only [accepted]
      exact ⟨_, rfl, .inl ⟨_, rfl⟩⟩
    | ok unit =>
      simp only [accepted]
      exact ⟨_, rfl, .inr ⟨source, unit, rfl, accepted, rfl⟩⟩

theorem generate_of_text (made : w.generator b.files model = (b.files, .ok ⟨text, none, none⟩))
    (declares : SourceUnit.parse text.toList = .ok unit) :
    w.step b model .generate = (b, .claim text unit) := by
  simp only [step, produce, made, GeneratedSource.unit, declares]

theorem claim_of_unowned (unowned : w.owner? b.cache model unit = none) :
    w.step b model (.claim text unit) =
      (b, .invoking (Invocation.start text unit.package unit.typeName)) := by
  simp only [step, checkOwner, unowned]

theorem step_proceed (w : Workshop) (b : Bench) (model : Path) {i next : Invocation}
    {r : FileTree × Option FileFault}
    (proceeds : i.step w.site b.files = Invocation.proceed r next) :
    ∃ after, w.step b model (.invoking i) = (⟨r.1, b.cache⟩, after) ∧
      (r.2 = none ∧ after = afterInvocation next ∨
        ∃ fault, r.2 = some fault ∧ after = .finished (.error (.io fault))) := by
  simp only [step, proceeds, Invocation.proceed]
  rcases r with ⟨files, _ | fault⟩
  · exact ⟨_, rfl, .inl ⟨rfl, rfl⟩⟩
  · exact ⟨_, rfl, .inr ⟨fault, rfl, rfl⟩⟩

/-- The source is put in its place, or the request fails. -/
theorem step_writeSource (w : Workshop) (b : Bench) (model : Path) (unit : SourceUnit)
    (text : String) :
    let path := (Invocation.job w.site unit).source
    let r := Effect.performAll b.files w.here
      (Invocation.placing path (.write path (Bytes.ofString text)))
    ∃ after, w.step b model (.invoking (.writeSource unit text)) = (⟨r.1, b.cache⟩, after) ∧
      (r.2 = none ∧ after = .invoking (.clearOutput unit) ∨
        ∃ fault, r.2 = some fault ∧ after = .finished (.error (.io fault))) := by
  intro path r
  exact @step_proceed w b model (.writeSource unit text) (.clearOutput unit) r rfl

/-- An old executable goes, or the request fails. -/
theorem step_clearOutput (w : Workshop) (b : Bench) (model : Path) (unit : SourceUnit) :
    let path := (Invocation.job w.site unit).output
    let r := Effect.performAll b.files w.here (Invocation.placing path (.discard path))
    ∃ after, w.step b model (.invoking (.clearOutput unit)) = (⟨r.1, b.cache⟩, after) ∧
      (r.2 = none ∧ after = .invoking (.callCompiler unit) ∨
        ∃ fault, r.2 = some fault ∧ after = .finished (.error (.io fault))) := by
  intro path r
  exact @step_proceed w b model (.clearOutput unit) (.callCompiler unit) r rfl

theorem step_callCompiler (w : Workshop) (b : Bench) (model : Path) (unit : SourceUnit) :
    w.step b model (.invoking (.callCompiler unit)) =
      (⟨(w.site.compiler.compile b.files (Invocation.job w.site unit)).1, b.cache⟩,
        .invoking (.inspect unit
          (w.site.compiler.compile b.files (Invocation.job w.site unit)).2)) := rfl

/-- The executable is to be stored if the compiler says that it succeeded and left a file. -/
theorem step_inspect (w : Workshop) (b : Bench) (model : Path) (unit : SourceUnit)
    (answer : String) :
    let job := Invocation.job w.site unit
    ∃ after, w.step b model (.invoking (.inspect unit answer)) = (b, after) ∧
      (answer = compileSuccess ∧ b.files.isFile w.here job.output = true ∧
          after = .store ⟨unit.package, unit.typeName, job.source, job.output⟩ ∨
        (answer ≠ compileSuccess ∨ b.files.isFile w.here job.output = false) ∧
          ∃ diagnostic, after = .recordMiss diagnostic) := by
  intro job
  have next : w.step b model (.invoking (.inspect unit answer)) =
      (b, afterInvocation (.finished (Invocation.verdict w.site b.files unit answer))) := rfl
  refine ⟨_, next, ?_⟩
  unfold Invocation.verdict
  by_cases accepted : answer = compileSuccess
  · rw [if_neg (not_not.mpr accepted)]
    by_cases isFile : b.files.isFile w.here job.output = true
    · exact .inl ⟨accepted, isFile, congrArg (fun r => afterInvocation (.finished r)) (if_pos isFile)⟩
    · exact .inr ⟨.inr (by simpa using isFile), _,
        congrArg (fun r => afterInvocation (.finished r)) (if_neg isFile)⟩
  · rw [if_pos accepted]
    exact .inr ⟨.inl accepted, _, rfl⟩

/-- Storing changes the cache even if that cannot be saved; then the request fails. -/
theorem step_store (w : Workshop) (b : Bench) (model : Path) (built : CompiledArtifact) :
    let d := Cache.entryOf w.digest b.files w.here model built.artifact built.package
    ∃ result, w.step b model (.store built) =
        (⟨(b.cache.withEntry d).swept w.here [] b.files, b.cache.withEntry d⟩, .finished result) ∧
      (result = .ok (d, .compiled) ∨ ∃ fault, result = .error (.cache fault)) := by
  intro d
  obtain ⟨files, cache, answer⟩ := Cache.store_outcome b.cache w.digest b.files w.here model
    built.artifact built.package
  simp only [step, files, cache]
  rcases answer with stored | ⟨fault, refused⟩
  · exact ⟨_, by rw [stored], .inl rfl⟩
  · exact ⟨_, by rw [refused], .inr ⟨fault, rfl⟩⟩

/-- Recording a miss changes the cache even if that cannot be saved. -/
theorem step_recordMiss (w : Workshop) (b : Bench) (model : Path) (diagnostic : Diagnostic) :
    let m := Cache.missOf w.digest b.files w.here model
    ∃ failure, w.step b model (.recordMiss diagnostic) =
        (⟨(b.cache.withMiss m).swept w.here [] b.files, b.cache.withMiss m⟩,
          .finished (.error failure)) ∧
      (failure = .compile diagnostic ∨ ∃ fault, failure = .cache fault) := by
  intro m
  obtain ⟨files, cache, answer⟩ := Cache.recordMiss_outcome b.cache w.digest b.files w.here model
  simp only [step, files, cache]
  rcases answer with recorded | ⟨fault, refused⟩
  · exact ⟨_, by rw [recorded], .inl rfl⟩
  · exact ⟨_, by rw [refused], .inr ⟨fault, rfl⟩⟩

/-- Where the cache can be saved, a request that records a miss ends with the diagnostic. -/
theorem recordMiss_of_saved {files : FileTree} {c : Cache} {diagnostic : Diagnostic}
    (saved : (Effect.performAll files w.here
      (c.withMiss (Cache.missOf w.digest files w.here model)).saving).2 = none) :
    w.step ⟨files, c⟩ model (.recordMiss diagnostic) =
      (⟨(c.withMiss (Cache.missOf w.digest files w.here model)).swept w.here [] files,
        c.withMiss (Cache.missOf w.digest files w.here model)⟩,
          .finished (.error (.compile diagnostic))) := by
  obtain ⟨after, cache, -⟩ := Cache.recordMiss_outcome c w.digest files w.here model
  have answer : (c.recordMiss w.digest files w.here model).answer =
      .ok (Cache.missOf w.digest files w.here model) :=
    Cache.answer_of_saved rfl _ saved
  simp only [step, after, cache, answer]

end Workshop
end SimWorkbench
