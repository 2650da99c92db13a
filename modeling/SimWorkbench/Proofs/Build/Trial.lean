import SimWorkbench.Proofs.Build.Settled

/-!
# A request that calls the compiler settles its model

From the lookup to the call of the compiler a request knows that its model has no entry, and from
the generator on that the model can be read. What it records after the call settles the model, even
if the cache cannot be saved.
-/
namespace SimWorkbench

open FileTree (KeepsDirectories GrowsAt)

theorem Workshop.entry?_refreshed {w : Workshop} {b : Bench} {model : Path}
    (unanswered : ∀ d, b.cache.entry? w.here model = some d →
      Cache.outdated w.digest b.files w.here d = true) :
    (w.refreshed b model).cache.entry? w.here model = none := by
  cases found : b.cache.entry? w.here model with
  | none => rwa [refreshed_of_none found]
  | some d =>
    rw [refreshed_of_outdated found (unanswered d found)]
    exact (Keyed.get?_drop _ _ _ _).trans (if_pos rfl)

namespace Grounds

/-- What a request has settled when it has ended after a call of the compiler. The answer is another
one if the cache could not be saved. -/
def Concluded (g : Grounds) (w : Workshop) (model : Path) (b : Bench)
    (result : Except BuildFailure (Descriptor × Provenance)) : Prop :=
  (∃ d, g.Built w model b d ∧
      (result = .ok (d, .compiled) ∨ ∃ fault, result = .error (.cache fault))) ∨
    g.Refused w model model b ∧ ∃ failure, result = .error failure

/-- Whether a model has no entry and can be read. -/
structure Untried (g : Grounds) (model : Path) (b : Bench) : Prop where
  missing : b.cache.entry? g.here model = none
  readable : ∃ content, b.files.read g.here model = .ok content

/-- What is known of a request after the given calls of the compiler. -/
def Underway (g : Grounds) (w : Workshop) (model : Path) (b : Bench) (log : List Compilation) :
    Request → Prop
  | .lookup | .invoking (.finished _) => log = []
  | .generate => log = [] ∧ b.cache.entry? g.here model = none
  | .claim .. | .invoking (.writeSource ..) | .invoking (.clearOutput _)
  | .invoking (.callCompiler _) => log = [] ∧ g.Untried model b
  | .invoking (.inspect ..) | .recordMiss _ => g.Untried model b
  | .store built => g.Untried model b ∧ ∃ content, b.files.read g.here built.artifact = .ok content
  | .finished result => log ≠ [] → g.Concluded w model b result

/-- What holds of a request for a model that may have to be compiled. -/
structure Trial (g : Grounds) (w : Workshop) (environment : String) (model : Path) (b : Bench)
    (log : List Compilation) (r : Request) : Prop where
  steady : g.Steady environment model b r
  reachable : b.files.Reachable g.here
  underway : g.Underway w model b log r

variable {g : Grounds} {w : Workshop} {model : Path} {b b' : Bench} {environment text : String}
  {log : List Compilation} {u : SourceUnit} {r r' : Request}

theorem Untried.kept (untried : g.Untried model b) (placed : g.Placed model)
    (spares : g.Spares model b b') (cache : b'.cache = b.cache) : g.Untried model b' := by
  obtain ⟨content, readable⟩ := untried.readable
  refine ⟨by rw [cache]; exact untried.missing, content, ?_⟩
  exact read_kept spares.directories (spares.files _ placed.sheltered).bytesAt? readable

theorem underway_lookup (attentive : g.Attentive w) (noCalls : log = [])
    (steps : w.step b model .lookup = (b', r')) : g.Underway w model b' log r' := by
  by_cases unanswered : ∀ d, b.cache.entry? w.here model = some d →
      Cache.outdated w.digest b.files w.here d = true
  · have missing := Workshop.entry?_refreshed unanswered
    rw [attentive.here] at missing
    rw [Workshop.lookup_of_unanswered unanswered] at steps
    split at steps <;> cases steps
    · exact fun called => absurd noCalls called
    · exact ⟨noCalls, missing⟩
  · push Not at unanswered
    obtain ⟨d, found, current⟩ := unanswered
    rw [Workshop.lookup_of_current found (by simpa using current)] at steps
    cases steps
    exact fun called => absurd noCalls called

theorem underway_generate (attentive : g.Attentive w) (placed : g.Placed model)
    (spares : g.Spares model b b') (noCalls : log = [])
    (missing : b.cache.entry? g.here model = none)
    (steps : w.step b model .generate = (b', r')) : g.Underway w model b' log r' := by
  have reads := attentive.readsModel b.files model
  simp only [Workshop.step, Workshop.produce] at steps
  cases produced : (w.generator b.files model).2 with
  | error failure =>
    simp only [produced] at steps
    cases steps
    exact fun called => absurd noCalls called
  | ok source =>
    rw [produced] at reads
    have untried : g.Untried model b := ⟨missing, reads source rfl⟩
    cases declared : source.unit with
    | error cause =>
      simp only [produced, declared] at steps
      cases steps
      exact fun called => absurd noCalls called
    | ok unit =>
      simp only [produced, declared] at steps
      cases steps
      exact ⟨noCalls, untried.kept placed spares rfl⟩

theorem underway_claim {text' : String} (noCalls : log = []) (untried : g.Untried model b)
    (steps : w.step b model (.claim text' u) = (b', r')) : g.Underway w model b' log r' := by
  cases owner : w.owner? b.cache model u with
  | some d =>
    simp only [Workshop.step, Workshop.checkOwner, owner] at steps
    cases steps
    exact fun called => absurd noCalls called
  | none =>
    rw [Workshop.claim_of_unowned owner, Invocation.start] at steps
    split at steps <;> cases steps
    · exact ⟨noCalls, untried⟩
    · exact noCalls

theorem underway_writeSource (placed : g.Placed model) (spares : g.Spares model b b')
    (noCalls : log = []) (untried : g.Untried model b)
    (steps : w.step b model (.invoking (.writeSource u text)) = (b', r')) :
    g.Underway w model b' log r' := by
  obtain ⟨after, next, outcome⟩ := w.step_writeSource b model u text
  cases next.symm.trans steps
  rcases outcome with ⟨-, rfl⟩ | ⟨fault, -, rfl⟩
  · exact ⟨noCalls, untried.kept placed spares rfl⟩
  · exact fun called => absurd noCalls called

theorem underway_clearOutput (placed : g.Placed model) (spares : g.Spares model b b')
    (noCalls : log = []) (untried : g.Untried model b)
    (steps : w.step b model (.invoking (.clearOutput u)) = (b', r')) :
    g.Underway w model b' log r' := by
  obtain ⟨after, next, outcome⟩ := w.step_clearOutput b model u
  cases next.symm.trans steps
  rcases outcome with ⟨-, rfl⟩ | ⟨fault, -, rfl⟩
  · exact ⟨noCalls, untried.kept placed spares rfl⟩
  · exact fun called => absurd noCalls called

theorem underway_callCompiler (placed : g.Placed model) (spares : g.Spares model b b')
    (untried : g.Untried model b)
    (steps : w.step b model (.invoking (.callCompiler u)) = (b', r')) :
    g.Underway w model b' log r' := by
  rw [w.step_callCompiler] at steps
  cases steps
  exact untried.kept placed spares rfl

theorem underway_inspect (attentive : g.Attentive w) {answer : String}
    (untried : g.Untried model b)
    (steps : w.step b model (.invoking (.inspect u answer)) = (b', r')) :
    g.Underway w model b' log r' := by
  obtain ⟨after, next, outcome⟩ := w.step_inspect b model u answer
  cases next.symm.trans steps
  rcases outcome with ⟨-, isFile, rfl⟩ | ⟨-, diagnostic, rfl⟩
  · rw [attentive.here] at isFile
    exact ⟨untried, FileTree.exists_read_of_isFile isFile⟩
  · exact untried

/-- A miss that is recorded is that of the model as it is then. -/
theorem missed_recorded (here : w.here = g.here) (placed : g.Placed model) {diagnostic : Diagnostic}
    {content : Bytes} (reachable : b.files.Reachable g.here)
    (spares : g.Spares model b b') (readable : b.files.read g.here model = .ok content)
    (steps : w.step b model (.recordMiss diagnostic) = (b', r')) :
    b'.files.read g.here model = .ok content ∧
      ∃ m, b'.cache.miss? g.here model = some m ∧
        m.fingerprint = Fingerprint.now w.digest b'.files g.here [model.normalised g.here.path] := by
  have bytes := (spares.files _ placed.sheltered).bytesAt?
  have seen : g.Seen b.files (model.normalised g.here.path) := ⟨model, content, rfl, readable⟩
  obtain ⟨-, sameRead⟩ := seen.kept reachable spares.directories
    (by rwa [Path.location_normalised model g.proper])
  obtain ⟨failure, next, -⟩ := w.step_recordMiss b model diagnostic
  rw [here] at next
  cases next.symm.trans steps
  refine ⟨read_kept spares.directories bytes readable, Cache.missOf w.digest b.files g.here model,
    ?_, ?_⟩
  · exact (Keyed.get?_put _ _ _ _).trans (if_pos rfl)
  · refine Fingerprint.now_congr ?_
    simp only [Fingerprint.readings, List.map_cons, List.map_nil, sameRead]

/-- A recorded miss settles the model. -/
theorem underway_recordMiss (attentive : g.Attentive w) (placed : g.Placed model)
    {diagnostic : Diagnostic} (reachable : b.files.Reachable g.here)
    (spares : g.Spares model b b') (untried : g.Untried model b)
    (steps : w.step b model (.recordMiss diagnostic) = (b', r')) :
    g.Underway w model b' log r' := by
  obtain ⟨content, readable⟩ := untried.readable
  obtain ⟨kept, missed⟩ :=
    missed_recorded attentive.here placed reachable spares readable steps
  obtain ⟨failure, next, -⟩ := w.step_recordMiss b model diagnostic
  cases next.symm.trans steps
  exact fun _ => .inr ⟨⟨untried.missing, missed, rfl, content, kept⟩, failure, rfl⟩

/-- A stored executable settles the model. -/
theorem underway_store (attentive : g.Attentive w) (placed : g.Placed model)
    (temporaryApart : g.layout.Apart g.here (g.layout.temporary.location g.here))
    {built : CompiledArtifact} (steady : g.Steady environment model b (.store built))
    (reachable : b.files.Reachable g.here) (untried : g.Untried model b)
    (executable : ∃ content, b.files.read g.here built.artifact = .ok content)
    (steps : w.step b model (.store built) = (b', r')) : g.Underway w model b' log r' := by
  obtain ⟨content, readable⟩ := untried.readable
  obtain ⟨content', readable'⟩ := executable
  obtain ⟨u, declared, -, artifact⟩ := steady.claimed
  obtain ⟨result, next, outcome⟩ := w.step_store b model built
  rw [attentive.here] at next outcome
  cases next.symm.trans steps
  set d := Cache.entryOf w.digest b.files g.here model built.artifact built.package with isEntry
  obtain ⟨kept, grows⟩ := Cache.swept_frame (b.cache.withEntry d) g.here [] b.files
  have path : (b.cache.withEntry d).indexPath = g.layout.cacheIndex := steady.obeys.keeps
  simp only [Cache.temporary, path] at grows
  have atModel : d.source.location g.here = model.location g.here :=
    Path.location_normalised model g.proper
  have atPlace : d.artifact.location g.here = g.place u := by
    rw [isEntry, Cache.entryOf, Path.location_normalised _ g.proper, artifact, place]
  have seenModel : g.Seen b.files d.source := ⟨model, content, rfl, readable⟩
  have seenPlace : g.Seen b.files d.artifact := ⟨built.artifact, content', rfl, readable'⟩
  have source := seenModel.kept reachable kept
    (grows _ (atModel ▸ placed.notIndex) (atModel ▸ placed.notTemporary) (by simp)).bytesAt?
  have stored := seenPlace.kept reachable kept
    (grows _ (atPlace ▸ Ne.symm (g.indexApart u declared).2)
      (atPlace ▸ Ne.symm (temporaryApart u declared).2) (by simp)).bytesAt?
  refine fun _ => .inl ⟨d, ⟨Cache.entry?_stored _ _ _ _ _ _ _, ?_, source.1, stored.1⟩,
    outcome⟩
  have same : Fingerprint.readings ((b.cache.withEntry d).swept g.here [] b.files) g.here
      [d.source, d.artifact] = Fingerprint.readings b.files g.here [d.source, d.artifact] := by
    simp only [Fingerprint.readings, List.map_cons, List.map_nil, source.2, stored.2]
  rw [Cache.outdated, Fingerprint.now_congr same]
  simp [isEntry, Cache.entryOf]

/-- What is known of a request is known after a stage. -/
theorem underway_advanced (attentive : g.Attentive w) (placed : g.Placed model)
    (temporaryApart : g.layout.Apart g.here (g.layout.temporary.location g.here))
    (trial : g.Trial w environment model b log r) (spares : g.Spares model b b')
    (steps : w.step b model r = (b', r')) :
    g.Underway w model b' (log ++ (w.compilation? b text r).toList) r' := by
  obtain ⟨steady, reachable, underway⟩ := trial
  have plain : (w.compilation? b text r).toList = [] → g.Underway w model b' log r' →
      g.Underway w model b' (log ++ (w.compilation? b text r).toList) r' := by
    intro none underway
    rwa [none, List.append_nil]
  cases r with
  | lookup => exact plain rfl (underway_lookup attentive underway steps)
  | generate =>
    exact plain rfl (underway_generate attentive placed spares underway.1 underway.2 steps)
  | claim text' u => exact plain rfl (underway_claim underway.1 underway.2 steps)
  | invoking progress =>
    cases progress with
    | writeSource u text' =>
      exact plain rfl (underway_writeSource placed spares underway.1 underway.2 steps)
    | clearOutput u =>
      exact plain rfl (underway_clearOutput placed spares underway.1 underway.2 steps)
    | callCompiler u => exact underway_callCompiler placed spares underway.2 steps
    | inspect u answer => exact plain rfl (underway_inspect attentive underway steps)
    | finished result =>
      obtain ⟨cause, rfl⟩ := steady.claimed
      cases steps
      exact plain rfl fun called => absurd underway called
  | recordMiss diagnostic =>
    exact plain rfl (underway_recordMiss attentive placed reachable spares underway steps)
  | store built =>
    exact plain rfl
      (underway_store attentive placed temporaryApart steady reachable underway.1 underway.2 steps)
  | finished result =>
    cases steps
    exact plain rfl underway

/-- Every stage keeps what holds of a request. -/
theorem trial_step (attentive : g.Attentive w) (placed : g.Placed model)
    (temporaryApart : g.layout.Apart g.here (g.layout.temporary.location g.here))
    (trial : g.Trial w environment model b log r) (steps : w.step b model r = (b', r')) :
    g.Trial w environment model b' (log ++ (w.compilation? b text r).toList) r' := by
  obtain ⟨steady', spares⟩ := advances_step attentive.toOrderly trial.steady
  rw [steps] at steady' spares
  exact ⟨steady', trial.reachable.mono spares.directories,
    underway_advanced attentive placed temporaryApart trial spares steps⟩

theorem trial_after (attentive : g.Attentive w) (placed : g.Placed model)
    (temporaryApart : g.layout.Apart g.here (g.layout.temporary.location g.here)) (n : Nat)
    (trial : g.Trial w environment model b log r) :
    g.Trial w environment model (w.after model n (b, r)).1
      (log ++ w.compilations model n b text r) (w.after model n (b, r)).2 := by
  induction n generalizing log b text r with
  | zero => simpa [Workshop.compilations, Workshop.after] using trial
  | succ n ih =>
    have first : g.Trial w environment model (w.step b model r).1
        (log ++ (w.compilation? b text r).toList) (w.step b model r).2 :=
      trial_step attentive placed temporaryApart trial Prod.mk.eta.symm
    have next : g.Trial w environment model (w.after model n (w.step b model r)).1
        (log ++ (w.compilation? b text r).toList ++ w.compilations model n (w.step b model r).1
          (r.written?.getD text) (w.step b model r).2) (w.after model n (w.step b model r)).2 :=
      ih first
    rwa [List.append_assoc] at next

/-- A request that called the compiler has settled its model. -/
theorem concluded_of_calls (attentive : g.Attentive w) (placed : g.Placed model)
    (temporaryApart : g.layout.Apart g.here (g.layout.temporary.location g.here))
    (obeys : g.Obeys g.ownership environment b.files b.cache)
    (reachable : b.files.Reachable g.here) (called : (w.ensure b model false).jobs ≠ []) :
    g.Concluded w model (w.ensure b model false).bench (w.ensure b model false).result := by
  have start : g.Trial w environment model b [] .lookup := ⟨⟨obeys, trivial⟩, reachable, rfl⟩
  have ended : g.Trial w environment model _ ([] ++ w.compilations model 10 b "" .lookup) _ :=
    trial_after attentive placed temporaryApart 10 start
  have whole : w.after model 10 (b, .lookup) =
      ((w.ensure b model false).bench, .finished (w.ensure b model false).result) :=
    w.after_eq_ensure b model false
  rw [w.jobs_ensure, Ne, List.map_eq_nil_iff] at called
  rw [whole, List.nil_append] at ended
  exact ended.underway called

end Grounds
end SimWorkbench
