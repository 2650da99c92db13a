import SimWorkbench.Proofs.Build.Answers
import SimWorkbench.Proofs.Build.Concurrent
import SimWorkbench.Proofs.Build.Settled

/-!
# Conflicts between models

A request is refused when the executable of the unit that its model declares belongs to the entry of
another model. The check goes through all entries and does not ask whether their files are still
those they were stored for. So a conflict names an owner that is up to date as long as the entries
were up to date when the request was made; an owner whose model is gone is named as well.
-/
namespace SimWorkbench

namespace Request

/-- Whether a request has passed the check of the owners, or was refused for another reason. -/
def Unopposed : Request → Prop
  | lookup | generate | claim .. => False
  | finished (.error (.classConflict ..)) => False
  | invoking (.finished (.error (.classConflict ..))) => False
  | _ => True

theorem unopposed_afterInvocation {i : Invocation} (unopposed : (invoking i).Unopposed) :
    (Workshop.afterInvocation i).Unopposed := by
  cases i with
  | finished result =>
    cases result with
    | ok built => trivial
    | error failure =>
      cases failure with
      | classConflict => exact unopposed.elim
      | _ => trivial
  | _ => trivial

end Request

namespace Workshop

variable {w : Workshop} {b : Bench} {model name owner : Path} {unit : String} {force : Bool}

/-- No stage after the check finds an owner. -/
theorem unopposed_step {r : Request} (unopposed : r.Unopposed) :
    (w.step b model r).2.Unopposed := by
  cases r with
  | lookup | generate | claim => exact unopposed.elim
  | invoking progress =>
    have placing : ∀ (r : FileTree × Option FileFault) (next : Invocation),
        (Request.invoking next).Unopposed →
          (Request.invoking (Invocation.proceed r next).2).Unopposed := by
      rintro ⟨files, _ | fault⟩ next passed
      · exact passed
      · trivial
    refine Request.unopposed_afterInvocation ?_
    cases progress with
    | writeSource unit text => exact placing _ _ trivial
    | clearOutput unit => exact placing _ _ trivial
    | callCompiler unit => trivial
    | inspect unit answer =>
      simp only [Invocation.verdict]
      split
      · trivial
      · split <;> trivial
    | finished result => exact unopposed
  | recordMiss diagnostic =>
    simp only [step]
    split <;> trivial
  | store built =>
    simp only [step]
    split <;> trivial
  | finished result => exact unopposed

theorem unopposed_after (n : Nat) {r : Request} (unopposed : r.Unopposed) :
    (w.after model n (b, r)).2.Unopposed := by
  induction n generalizing b r with
  | zero => exact unopposed
  | succ n ih => exact ih (unopposed_step unopposed)

/-- What a request generates its source on. -/
def prepared (w : Workshop) (b : Bench) (model : Path) (force : Bool) : Bench :=
  if force then b else w.refreshed b model

/-- The source and the entry that lead to a conflict. -/
structure Conflict (w : Workshop) (b : Bench) (model name : Path) (unit : String) (owner : Path)
    (source : GeneratedSource) (u : SourceUnit) (d : Descriptor) : Prop where
  generated : (w.generator b.files model).2 = .ok source
  declares : source.unit = .ok u
  owned : w.owner? b.cache model u = some d
  name : name = model.normalised w.here.path
  unit : unit = u.qualifiedName
  owner : owner = d.source

/-- The generator leads to the check of the owners, or no owner is looked for. -/
theorem step_generate_unopposed (w : Workshop) (b : Bench) (model : Path) :
    (w.step b model .generate).2.Unopposed ∨
      ∃ source u, (w.generator b.files model).2 = .ok source ∧ source.unit = .ok u ∧
        w.step b model .generate =
          (⟨(w.generator b.files model).1, b.cache⟩, .claim source.text u) := by
  simp only [step, produce]
  cases made : (w.generator b.files model).2 with
  | error failure => exact .inl trivial
  | ok source =>
    cases accepted : source.unit with
    | error cause =>
      simp only [accepted]
      exact .inl trivial
    | ok u =>
      simp only [accepted]
      exact .inr ⟨source, u, rfl, accepted, rfl⟩

theorem unopposed_start (text package typeName : String) :
    (Request.invoking (Invocation.start text package typeName)).Unopposed := by
  unfold Invocation.start
  split <;> trivial

theorem not_conflict_of_unopposed {n : Nat} {b' : Bench} {r : Request} (unopposed : r.Unopposed) :
    w.after model n (b, r) ≠ (b', .finished (.error (.classConflict name unit owner))) := by
  intro ended
  have never := @unopposed_after w b model n r unopposed
  rw [ended] at never
  exact never

/-- What was generated on a bench is refused by the check, or not at all. -/
theorem conflict_of_generate {n : Nat} {b' : Bench}
    (ended : w.after model n (b, .generate) =
      (b', .finished (.error (.classConflict name unit owner)))) :
    b' = ⟨(w.generator b.files model).1, b.cache⟩ ∧
      (∀ text, w.compilations model n b text .generate = []) ∧
      ∃ source u d, w.Conflict b model name unit owner source u d := by
  cases n with
  | zero => cases ended
  | succ n =>
    rcases w.step_generate_unopposed b model with unopposed | ⟨source, u, generated, declares, next⟩
    · rw [w.after_of_step (Prod.eta (w.step b model .generate)).symm] at ended
      exact absurd ended (not_conflict_of_unopposed unopposed)
    rw [w.after_of_step next] at ended
    cases n with
    | zero => cases ended
    | succ n =>
      cases owned : w.owner? b.cache model u with
      | none =>
        have passed := @claim_of_unowned w ⟨(w.generator b.files model).1, b.cache⟩ model source.text u
          owned
        rw [w.after_of_step passed] at ended
        exact absurd ended (not_conflict_of_unopposed (unopposed_start ..))
      | some d =>
        have refused : w.step ⟨(w.generator b.files model).1, b.cache⟩ model (.claim source.text u) =
            (⟨(w.generator b.files model).1, b.cache⟩, .finished (.error
              (.classConflict (model.normalised w.here.path) u.qualifiedName d.source))) := by
          simp only [step, checkOwner, owned]
        rw [w.after_of_step refused, w.after_finished] at ended
        cases ended
        refine ⟨rfl, fun text => ?_, source, u, d, generated, declares, owned, rfl, rfl, rfl⟩
        rw [w.compilations_of_step next rfl, w.compilations_of_step refused rfl]
        exact w.compilations_of_noCalls _ _ rfl _ _

/-- A conflict comes from the check of the owners, and nothing was compiled. -/
theorem ensure_of_conflict
    (answer : (w.ensure b model force).result = .error (.classConflict name unit owner)) :
    (w.ensure b model force).bench =
        ⟨(w.generator (w.prepared b model force).files model).1, (w.prepared b model force).cache⟩ ∧
      (w.ensure b model force).jobs = [] ∧
      ∃ source u d, w.Conflict (w.prepared b model force) model name unit owner source u d := by
  have ended := w.after_eq_ensure b model force
  rw [answer] at ended
  rw [w.jobs_ensure, calls]
  cases force with
  | true =>
    obtain ⟨bench, noCalls, conflict⟩ := conflict_of_generate (n := 9) ended
    exact ⟨bench, congrArg _ (noCalls ""), conflict⟩
  | false =>
    obtain ⟨after, next, ⟨d, rfl⟩ | rfl | rfl⟩ := w.step_lookup b model
    · have final := (w.after_of_step next 9).symm.trans ended
      rw [w.after_finished] at final
      cases (Prod.mk.inj final).2
    · have final := (w.after_of_step next 9).symm.trans ended
      rw [w.after_finished] at final
      cases (Prod.mk.inj final).2
    · obtain ⟨bench, noCalls, conflict⟩ :=
        conflict_of_generate ((w.after_of_step next 9).symm.trans ended)
      refine ⟨bench, ?_, conflict⟩
      have calls := w.compilations_of_step next rfl 9 ""
      rw [noCalls] at calls
      exact congrArg _ calls

end Workshop

namespace Grounds

open FileTree (GrowsAt)

/-- Whether an entry is not stale: its model, outside of what the build writes, and its executable
are there, as they were when it was stored. -/
structure UpToDate (g : Grounds) (w : Workshop) (files : FileTree) (d : Descriptor) : Prop where
  placed : g.Placed d.source
  current : Cache.outdated w.digest files g.here d = false
  source : ∃ content, files.read g.here d.source = .ok content
  executable : ∃ content, files.read g.here d.artifact = .ok content

/-- How a request for a model that declares a unit comes to be refused because of an entry. -/
structure Refusal (g : Grounds) (w : Workshop) (model : Path) (b : Bench) (ended : Workshop.Ended)
    (d : Descriptor) (u : SourceUnit) : Prop where
  declared : u.Declared
  entry : d ∈ b.cache.entries
  other : d.key ≠ Cache.key g.here model
  /-- The entry has the executable of the unit, and no other entry has it. -/
  holds : d.artifact = (g.layout.artifactFile u.package u.typeName).normalised g.here.path
  sole : ∀ e ∈ b.cache.entries, e.artifact.location g.here = g.place u → e = d
  noCalls : ended.jobs = []
  kept : d ∈ ended.bench.cache.entries
  /-- An entry that was not stale when the request was made is not when it is refused. -/
  current : g.UpToDate w b.files d → g.UpToDate w ended.bench.files d

variable {g : Grounds} {w : Workshop} {model name owner : Path} {b b' : Bench} {c : Cache}
  {files files' : FileTree} {d : Descriptor} {u : SourceUnit} {unit : String} {force : Bool}

/-- Requests for other models leave an entry that is not stale. -/
theorem UpToDate.kept (current : g.UpToDate w b.files d)
    (temporaryApart : g.layout.Apart g.here (g.layout.temporary.location g.here))
    (owned : g.Owned b.cache.entries b.cache.misses) (member : d ∈ b.cache.entries)
    (other : d.key ≠ Cache.key g.here model) (spares : g.Spares model b b') :
    g.UpToDate w b'.files d := by
  obtain ⟨content, readable⟩ := current.source
  obtain ⟨content', readable'⟩ := current.executable
  have source := read_kept spares.directories (spares.files _ current.placed.sheltered).bytesAt?
    readable
  have executable := read_kept spares.directories
    (spares.files _ (owned.sheltered temporaryApart member other)).bytesAt? readable'
  have same : Fingerprint.readings b'.files g.here [d.source, d.artifact] =
      Fingerprint.readings b.files g.here [d.source, d.artifact] := by
    simp only [Fingerprint.readings, List.map_cons, List.map_nil, source, executable, readable,
      readable']
  refine ⟨current.placed, ?_, ⟨_, source⟩, ⟨_, executable⟩⟩
  rw [Cache.outdated, Fingerprint.now_congr same]
  exact current.current

/-- The entry that the check finds is that of another model, and has the place of the unit. -/
theorem owner_spec (site : g.Site w) (owned : g.Owned c.entries c.misses) (declared : u.Declared)
    (found : w.owner? c model u = some d) :
    d ∈ c.entries ∧ d.key ≠ Cache.key g.here model ∧
      d.artifact = (g.layout.artifactFile u.package u.typeName).normalised g.here.path := by
  have member := List.mem_of_find?_eq_some found
  have holds := List.find?_some found
  rw [Bool.and_eq_true, site.here, site.layout] at holds
  obtain ⟨sameArtifact, otherModel⟩ := holds
  refine ⟨member, fun same => ?_, ?_⟩
  · have sameModel : d.source.same (model.normalised g.here.path) = true := beq_iff_eq.mpr same
    rw [sameModel] at otherModel
    cases otherModel
  · obtain ⟨v, declaredV, isPlace, artifact⟩ := owned.place_of_mem member
    have location := FileTree.location_of_same (eq_of_beq sameArtifact) g.here
    rw [isPlace, Path.location_normalised _ g.proper] at location
    rw [artifact, place_injective declaredV declared location]

/-- What a request generates its source on obeys, and other models were spared. -/
theorem spares_prepared (site : g.Site w) {environment : String}
    (obeys : g.Obeys g.ownership environment b.files b.cache) :
    g.Obeys g.ownership environment (w.prepared b model force).files
        (w.prepared b model force).cache ∧ g.Spares model b (w.prepared b model force) := by
  cases force with
  | true => exact ⟨obeys, .refl g model b⟩
  | false => exact spares_refreshed site obeys

/-- In every run over a project whose generator changes no file and whose compiler writes its output
alone: a request that is refused because of a conflict names the one other model whose entry has the
executable of the declared unit. Nothing was compiled, and unless that entry was stale already when
the request was made, it is not stale. -/
theorem conflict_current {log : List Compilation}
    (temporaryApart : g.layout.Apart g.here (g.layout.temporary.location g.here))
    (history : g.History g.Orderly (fun _ _ => True) files (some (w, c)) log)
    (answer : (w.ensure ⟨files, c⟩ model force).result =
      .error (.classConflict name unit owner)) :
    name = model.normalised g.here.path ∧ ∃ d u, d.source = owner ∧ u.qualifiedName = unit ∧
      g.Refusal w model ⟨files, c⟩ (w.ensure ⟨files, c⟩ model force) d u := by
  obtain ⟨orderly, obeys⟩ := (owned_of_history (fun _ => id) history).2 w c rfl
  have owned : g.Owned c.entries c.misses := obeys.records
  obtain ⟨obeys', spares⟩ := @spares_prepared g w model ⟨files, c⟩ force orderly.toSite _ obeys
  obtain ⟨bench, noCalls, source, u, d, conflict⟩ := w.ensure_of_conflict answer
  have declared : u.Declared := ⟨_, GeneratedSource.parse_of_unit conflict.declares⟩
  obtain ⟨member', other, holds⟩ := owner_spec orderly.toSite obeys'.records declared conflict.owned
  have kept : d ∈ (w.ensure ⟨files, c⟩ model force).bench.cache.entries := by
    rw [bench]
    exact member'
  have found : Keyed.get? Descriptor.key d.key c.entries = some d := by
    rw [← spares.entries d.key other]
    exact Keyed.Ordered.get?_of_mem obeys'.records.ordered member'
  have member := (Keyed.get?_mem found).1
  have isPlace : d.artifact.location g.here = g.place u := by
    rw [holds, Path.location_normalised _ g.proper, place]
  refine ⟨orderly.here ▸ conflict.name, d, u, conflict.owner.symm, conflict.unit.symm, declared,
    member, other, holds, fun e memberE same => ?_, noCalls, kept, fun current => ?_⟩
  · exact owned.unique e memberE d member (same.trans isPlace.symm)
  · exact current.kept temporaryApart owned member other (spares_ensure orderly obeys model force).2

end Grounds

namespace Rehearsal

/-- The first of two models for one unit has been built. -/
def claimed : Workshop.Ended := openPipeline.ensure ⟨contested, blank⟩ ⟨"a"⟩ false

/-- The entry of the first model. -/
def owner : Descriptor :=
  ⟨⟨"/tmp/job/a"⟩, ⟨"/c/p/T"⟩, "p",
    Fingerprint.now spelledOut claimed.bench.files ["tmp", "job"] [⟨"/tmp/job/a"⟩, ⟨"/c/p/T"⟩]⟩

theorem claimed_history : openProject.History openProject.Orderly (fun _ _ => True)
    claimed.bench.files (some (openPipeline, claimed.bench.cache))
      (openPipeline.calls ⟨contested, blank⟩ ⟨"a"⟩ false) :=
  (pair_history (by decide +kernel) (by decide +kernel)).ensured trivial false

theorem claimed_reads :
    error? (openPipeline.ensure claimed.bench ⟨"b"⟩ false).result =
        some (.classConflict ⟨"/tmp/job/b"⟩ "p::T" owner.source) ∧
      claimed.bench.cache.entries = [owner] ∧
      Cache.outdated spelledOut claimed.bench.files ["tmp", "job"] owner = false ∧
      (claimed.bench.files.read ["tmp", "job"] owner.source).toOption.isSome = true ∧
      (claimed.bench.files.read ["tmp", "job"] owner.artifact).toOption.isSome = true := by
  decide +kernel

/-- The second model is refused because of the first one, which is as it was. -/
theorem conflict_current_rehearsed :
    openProject.History openProject.Orderly (fun _ _ => True) claimed.bench.files
        (some (openPipeline, claimed.bench.cache))
        (openPipeline.calls ⟨contested, blank⟩ ⟨"a"⟩ false) ∧
      (openPipeline.ensure claimed.bench ⟨"b"⟩ false).result =
        .error (.classConflict ⟨"/tmp/job/b"⟩ "p::T" owner.source) ∧
      openProject.UpToDate openPipeline (openPipeline.ensure claimed.bench ⟨"b"⟩ false).bench.files
        owner := by
  obtain ⟨refused, entries, current, source, executable⟩ := claimed_reads
  have result := error_of_error? refused
  have before : openProject.UpToDate openPipeline claimed.bench.files owner :=
    ⟨⟨by decide +kernel, by decide +kernel, by decide +kernel⟩, current, exists_of_isSome source,
      exists_of_isSome executable⟩
  obtain ⟨-, d, u, -, -, refusal⟩ :=
    Grounds.conflict_current temporaryApart_open claimed_history result
  have entry : d ∈ claimed.bench.cache.entries := refusal.entry
  obtain rfl : d = owner := by simpa [entries] using entry
  exact ⟨claimed_history, result, refusal.current before⟩

/-- The first model is gone. -/
def abandoned : FileTree := claimed.bench.files.erase ["tmp", "job", "a"]

theorem abandoned_reads :
    error? (openPipeline.ensure ⟨abandoned, claimed.bench.cache⟩ ⟨"b"⟩ false).result =
        some (.classConflict ⟨"/tmp/job/b"⟩ "p::T" owner.source) ∧
      (abandoned.read ["tmp", "job"] ⟨"b"⟩).toOption.isSome = true ∧
      owner ∈ (openPipeline.ensure ⟨abandoned, claimed.bench.cache⟩ ⟨"b"⟩ false).bench.cache.entries ∧
      Cache.outdated spelledOut
        (openPipeline.ensure ⟨abandoned, claimed.bench.cache⟩ ⟨"b"⟩ false).bench.files ["tmp", "job"]
        owner = true := by
  decide +kernel

/-- A model is refused because of an entry whose own model was removed: an entry that is stale comes
out as an error. -/
theorem conflict_stale : ∃ files c log d,
    openProject.History openProject.Orderly (fun _ _ => True) files (some (openPipeline, c)) log ∧
      (∃ content, files.read openProject.here ⟨"b"⟩ = .ok content) ∧
      (openPipeline.ensure ⟨files, c⟩ ⟨"b"⟩ false).result =
        .error (.classConflict ⟨"/tmp/job/b"⟩ "p::T" d.source) ∧
      d ∈ (openPipeline.ensure ⟨files, c⟩ ⟨"b"⟩ false).bench.cache.entries ∧
      Cache.outdated openPipeline.digest (openPipeline.ensure ⟨files, c⟩ ⟨"b"⟩ false).bench.files
        openProject.here d = true := by
  obtain ⟨refused, readable, entry, stale⟩ := abandoned_reads
  have left : FileTree.NothingNewAt claimed.bench.files abandoned openProject.index :=
    (FileTree.GrowsAt.nothingNewAt (.inl (FileTree.get?_erase_ne (by decide +kernel))))
  exact ⟨abandoned, claimed.bench.cache, _, owner, claimed_history.edited left,
    exists_of_isSome readable, error_of_error? refused, entry, stale⟩

end Rehearsal
end SimWorkbench
