import SimWorkbench.Proofs.Build.Trial

/-!
# One compile for each state of a model

Between two changes of a model's bytes the compiler is called at most once for it. All requests for
it that follow are answered from what was recorded then, whatever is asked about other models and
however their files change.
-/
namespace SimWorkbench

open FileTree (KeepsDirectories)

/-- A request without force, and how it ended. -/
structure Asked where
  model : Path
  ended : Workshop.Ended

namespace Grounds

/-- Whether other programs changed models alone, and left the bytes of one model as they were. -/
structure Edits (g : Grounds) (model : Path) (files files' : FileTree) : Prop where
  directories : KeepsDirectories files files'
  models : ∀ l, files'.get? l = files.get? l ∨ g.layout.Outside g.here l ∧ l ≠ g.index
  leaves : files'.bytesAt? (model.location g.here) = files.bytesAt? (model.location g.here)

/-- The times in which nobody changes the bytes of a model: what requests work on at the end, and
the requests for this and other models, in their order. Such a time starts anywhere in a run. -/
inductive Period (g : Grounds) (w : Workshop) (model : Path) : Bench → List Asked → Prop
  | start {files c log} (history : g.History g.Attentive (fun _ _ => True) files (some (w, c)) log)
    (reachable : files.Reachable g.here) : Period g w model ⟨files, c⟩ []
  | edited {b files inquiries} (past : Period g w model b inquiries)
    (edits : g.Edits model b.files files) : Period g w model ⟨files, b.cache⟩ inquiries
  | asked {b inquiries} (past : Period g w model b inquiries) (q : Path) :
    Period g w model (w.ensure b q false).bench (inquiries ++ [⟨q, w.ensure b q false⟩])

/-- The requests for a model: those for paths that the cache takes for one with it. -/
def about (g : Grounds) (model : Path) (inquiries : List Asked) : List Asked :=
  inquiries.filter fun x => Cache.key g.here x.model == Cache.key g.here model

/-- Whether a request was answered from what an earlier one for the same model recorded. Under a
path that cannot be read, such as one with a slash at its end, a rejected model may also have
nothing generated. -/
structure AnsweredBy (g : Grounds) (first later : Asked) : Prop where
  noCall : later.ended.jobs = []
  built : ∀ d, first.ended.result = .ok (d, .compiled) → later.ended.result = .ok (d, .cached)
  rejected : ∀ diagnostic, first.ended.result = .error (.compile diagnostic) →
    later.ended.result = .error (.knownMiss later.model) ∨
      later.model.normalised g.here.path ≠ first.model.normalised g.here.path ∧
        ∃ failure, later.ended.result = .error (.generation failure)

/-- Whether the first of some requests that called the compiler called it once, and those after it
were answered from what it recorded. -/
def CompiledOnce (g : Grounds) (requests : List Asked) : Prop :=
  ∃ before first after, requests = before ++ first :: after ∧
    (∀ x ∈ before, x.ended.jobs = []) ∧ first.ended.jobs.length = 1 ∧
      ∀ x ∈ after, g.AnsweredBy first x

/-- What is recorded of a model since the given requests for it. -/
inductive Status (g : Grounds) (w : Workshop) (model : Path) (b : Bench) (requests : List Asked) :
    Prop
  | uncalled (noCalls : ∀ x ∈ requests, x.ended.jobs = [])
  | built (d : Descriptor) (before : List Asked) (first : Asked) (after : List Asked)
    (split : requests = before ++ first :: after) (noCalls : ∀ x ∈ before, x.ended.jobs = [])
    (once : first.ended.jobs.length = 1) (answered : ∀ x ∈ after, g.AnsweredBy first x)
    (built : g.Built w model b d)
    (result : first.ended.result = .ok (d, .compiled) ∨
      ∃ fault, first.ended.result = .error (.cache fault))
  | refused (before : List Asked) (first : Asked) (after : List Asked)
    (split : requests = before ++ first :: after) (noCalls : ∀ x ∈ before, x.ended.jobs = [])
    (once : first.ended.jobs.length = 1) (answered : ∀ x ∈ after, g.AnsweredBy first x)
    (refused : g.Refused w model first.model b)
    (failed : ∃ failure, first.ended.result = .error failure)

variable {g : Grounds} {w : Workshop} {model q : Path} {b b' : Bench} {files : FileTree}
  {requests inquiries : List Asked}

theorem Status.kept (status : g.Status w model b requests) (reachable : b.files.Reachable g.here)
    (undisturbed : g.Undisturbed model b b') : g.Status w model b' requests := by
  cases status with
  | uncalled noCalls => exact .uncalled noCalls
  | built d before first after split noCalls once answered built result =>
    exact .built d before first after split noCalls once answered
      (built.kept reachable undisturbed) result
  | refused before first after split noCalls once answered refused failed =>
    exact .refused before first after split noCalls once answered
      (refused.kept reachable undisturbed) failed

/-- Where nothing was recorded, a request that calls the compiler settles the model. -/
theorem Status.first (attentive : g.Attentive w) (placed : g.Placed model)
    (temporaryApart : g.layout.Apart g.here (g.layout.temporary.location g.here))
    (obeys : g.Obeys g.ownership b.cache.environment b.files b.cache)
    (reachable : b.files.Reachable g.here) (noCalls : ∀ x ∈ requests, x.ended.jobs = [])
    (same : Cache.key g.here q = Cache.key g.here model) :
    g.Status w model (w.ensure b q false).bench (requests ++ [⟨q, w.ensure b q false⟩]) := by
  by_cases quiet : (w.ensure b q false).jobs = []
  · refine .uncalled fun x member => ?_
    rcases List.mem_append.mp member with before | isLast
    · exact noCalls x before
    · rw [List.mem_singleton.mp isLast]
      exact quiet
  have once : (w.ensure b q false).jobs.length = 1 := by
    have bound := w.length_calls_le b q false
    have some := List.length_pos_iff.mpr quiet
    rw [w.jobs_ensure, List.length_map] at some ⊢
    omega
  have atModel := g.location_of_key same
  have placed' : g.Placed q :=
    ⟨atModel ▸ placed.outside, atModel ▸ placed.notIndex, atModel ▸ placed.notTemporary⟩
  rcases concluded_of_calls attentive placed' temporaryApart obeys reachable quiet with
    ⟨d, built, result⟩ | ⟨refused, failed⟩
  · refine .built d requests ⟨q, w.ensure b q false⟩ [] rfl noCalls once (by simp) ?_ result
    refine { built with found := ?_ }
    rw [Cache.entry?, ← same]
    exact built.found
  · refine .refused requests ⟨q, w.ensure b q false⟩ [] rfl noCalls once (by simp) ?_ failed
    refine { refused with missing := ?_, missed := ?_, same := same }
    · rw [Cache.entry?, ← same]
      exact refused.missing
    · rw [Cache.miss?, ← same]
      exact refused.missed

/-- Where a request was the first to call the compiler, another one is answered by it. -/
theorem answeredBy_concat {before after : List Asked} {first later : Asked}
    (split : requests = before ++ first :: after) (answered : ∀ x ∈ after, g.AnsweredBy first x)
    (answer : g.AnsweredBy first later) :
    requests ++ [later] = before ++ first :: (after ++ [later]) ∧
      ∀ x ∈ after ++ [later], g.AnsweredBy first x := by
  refine ⟨by simp [split], fun x member => ?_⟩
  rcases List.mem_append.mp member with past | isLast
  · exact answered x past
  · rw [List.mem_singleton.mp isLast]
    exact answer

/-- A request for the model itself keeps what is recorded of it. -/
theorem Status.asked (attentive : g.Attentive w) (placed : g.Placed model)
    (temporaryApart : g.layout.Apart g.here (g.layout.temporary.location g.here))
    (obeys : g.Obeys g.ownership b.cache.environment b.files b.cache)
    (reachable : b.files.Reachable g.here) (status : g.Status w model b requests)
    (same : Cache.key g.here q = Cache.key g.here model) :
    g.Status w model (w.ensure b q false).bench (requests ++ [⟨q, w.ensure b q false⟩]) := by
  have here : w.here = g.here := attentive.here
  cases status with
  | uncalled noCalls =>
    exact .first attentive placed temporaryApart obeys reachable noCalls same
  | built d before first after split noCalls once answered built result =>
    have ensured := built.ensure here same
    have answer : g.AnsweredBy first ⟨q, w.ensure b q false⟩ := by
      rw [ensured]
      refine ⟨rfl, fun d' isBuilt => ?_, fun diagnostic isRejected => ?_⟩
      · rcases result with isBuilt' | ⟨fault, unsaved⟩
        · cases isBuilt'.symm.trans isBuilt
          rfl
        · cases unsaved.symm.trans isBuilt
      · rcases result with isBuilt' | ⟨fault, unsaved⟩
        · cases isBuilt'.symm.trans isRejected
        · cases unsaved.symm.trans isRejected
    obtain ⟨split', answered'⟩ := answeredBy_concat split answered answer
    refine .built d before first _ split' noCalls once answered' ?_ result
    rwa [ensured]
  | refused before first after split noCalls once answered refused failed =>
    obtain ⟨failure, failed⟩ := failed
    have notBuilt : ∀ d, first.ended.result ≠ .ok (d, .compiled) := by
      intro d isBuilt
      cases failed.symm.trans isBuilt
    have keep : g.AnsweredBy first ⟨q, w.ensure b q false⟩ →
        g.Refused w model first.model (w.ensure b q false).bench →
        g.Status w model (w.ensure b q false).bench (requests ++ [⟨q, w.ensure b q false⟩]) := by
      intro answer refused'
      obtain ⟨split', answered'⟩ := answeredBy_concat split answered answer
      exact .refused before first _ split' noCalls once answered' refused' ⟨failure, failed⟩
    by_cases readable : ∃ content, b.files.read g.here q = .ok content
    · obtain ⟨content, readable⟩ := readable
      have ensured := refused.ensure here reachable same readable
      refine keep ?_ (by rwa [ensured])
      rw [ensured]
      exact ⟨rfl, fun d isBuilt => absurd isBuilt (notBuilt d), fun _ _ => .inl rfl⟩
    by_cases spelled : q.normalised g.here.path = first.model.normalised g.here.path
    · have ensured := refused.known here same (by rw [spelled])
      refine keep ?_ (by rwa [ensured])
      rw [ensured]
      exact ⟨rfl, fun d isBuilt => absurd isBuilt (notBuilt d), fun _ _ => .inl rfl⟩
    · have missing : b.cache.entry? g.here q = none := by
        rw [Cache.entry?, same]
        exact refused.missing
      obtain ⟨noCall, undisturbed, result⟩ : _ ∧ g.Undisturbed model b _ ∧ _ :=
        ensure_unreadable attentive missing (not_exists.mp readable)
      refine keep ⟨noCall, fun d isBuilt => absurd isBuilt (notBuilt d), fun _ _ => ?_⟩
        (refused.kept reachable undisturbed)
      exact result.imp_right fun failure => ⟨spelled, failure⟩

theorem Edits.undisturbed (edits : g.Edits model b.files files)
    (owned : g.Owned b.cache.entries b.cache.misses) :
    g.Undisturbed model b ⟨files, b.cache⟩ where
  entry := rfl
  miss := rfl
  directories := edits.directories
  bytes := edits.leaves
  executable d found := by
    obtain ⟨u, declared, isPlace, -⟩ := owned.place_of_mem (Cache.mem_of_found found).1
    rcases edits.models (d.artifact.location g.here) with same | ⟨outside, -⟩
    · simp only [FileTree.bytesAt?, same]
    · exact absurd isPlace (outside.apart u declared).2

/-- At every point of such a time the cache keeps its law, and the status of the model tells what
is recorded of it. -/
theorem Period.status (period : g.Period w model b inquiries) (placed : g.Placed model)
    (temporaryApart : g.layout.Apart g.here (g.layout.temporary.location g.here)) :
    g.Attentive w ∧ g.Obeys g.ownership b.cache.environment b.files b.cache ∧
      b.files.Reachable g.here ∧ g.Status w model b (g.about model inquiries) := by
  induction period with
  | start history reachable =>
    obtain ⟨attentive, obeys⟩ :=
      (owned_of_history (fun _ attentive => attentive.toOrderly) history).2 w _ rfl
    exact ⟨attentive, obeys, reachable, .uncalled (by simp [about])⟩
  | @edited b files inquiries past edits ih =>
    obtain ⟨attentive, obeys, reachable, status⟩ := ih
    refine ⟨attentive, obeys.leaves fun e now => .inr ?_, reachable.mono edits.directories,
      status.kept reachable (edits.undisturbed obeys.records)⟩
    rcases edits.models g.index with same | ⟨-, notIndex⟩
    · exact same ▸ now
    · exact absurd rfl notIndex
  | @asked b inquiries past q ih =>
    obtain ⟨attentive, obeys, reachable, status⟩ := ih
    obtain ⟨obeys', spares⟩ := spares_ensure attentive.toOrderly obeys q false
    have built : (w.ensure b q false).bench.cache.environment = b.cache.environment := obeys'.built
    rw [← built] at obeys'
    refine ⟨attentive, obeys', reachable.mono spares.directories, ?_⟩
    rw [about, List.filter_append]
    by_cases same : Cache.key g.here q = Cache.key g.here model
    · rw [List.filter_cons_of_pos (by simpa using same), List.filter_nil]
      exact status.asked attentive placed temporaryApart obeys reachable same
    · rw [List.filter_cons_of_neg (by simpa using same), List.filter_nil, List.append_nil]
      exact status.kept reachable
        (spares.undisturbed obeys.records temporaryApart placed (Ne.symm same))

/-- While nobody changes the bytes of a model, the compiler is called at most once for it. The
requests for it that follow the call answer with what was built, or that the miss is known. -/
theorem compiled_once (placed : g.Placed model)
    (temporaryApart : g.layout.Apart g.here (g.layout.temporary.location g.here))
    (period : g.Period w model b inquiries) :
    ((g.about model inquiries).flatMap fun x => x.ended.jobs).length ≤ 1 ∧
      ((∀ x ∈ g.about model inquiries, x.ended.jobs = []) ∨
        g.CompiledOnce (g.about model inquiries)) := by
  have none : ∀ xs : List Asked, (∀ x ∈ xs, x.ended.jobs = []) →
      (xs.flatMap fun x => x.ended.jobs) = [] := by
    intro xs noCalls
    exact List.flatMap_eq_nil_iff.mpr noCalls
  have once : ∀ before first after, g.about model inquiries = before ++ first :: after →
      (∀ x ∈ before, x.ended.jobs = []) → first.ended.jobs.length = 1 →
      (∀ x ∈ after, g.AnsweredBy first x) →
      ((g.about model inquiries).flatMap fun x => x.ended.jobs).length ≤ 1 := by
    intro before first after split noCalls once answered
    rw [split, List.flatMap_append, List.flatMap_cons, none before noCalls,
      none after fun x member => (answered x member).noCall]
    simp [once]
  obtain ⟨-, -, -, status⟩ := period.status placed temporaryApart
  cases status with
  | uncalled noCalls => exact ⟨by rw [none _ noCalls]; exact Nat.zero_le _, .inl noCalls⟩
  | built d before first after split noCalls isOnce answered _ _ =>
    exact ⟨once before first after split noCalls isOnce answered,
      .inr ⟨before, first, after, split, noCalls, isOnce, answered⟩⟩
  | refused before first after split noCalls isOnce answered _ _ =>
    exact ⟨once before first after split noCalls isOnce answered,
      .inr ⟨before, first, after, split, noCalls, isOnce, answered⟩⟩

end Grounds

namespace Rehearsal

/-- A rehearsal generates nothing from a model that cannot be read. -/
theorem attentive (identity : Bytes) {here : Location} {layout : Layout}
    {proper : ∀ name ∈ here, Path.IsName name}
    {indexApart : layout.Outside here (layout.cacheIndex.location here)} :
    (premises here layout proper indexApart).Attentive (workshop here layout identity) where
  toOrderly := orderly identity
  readsModel files model source made := by
    have here' : (premises here layout proper indexApart).here = here := rfl
    rw [here']
    cases readable : files.read here model with
    | ok bytes => exact ⟨bytes, rfl⟩
    | error cause =>
      have refused : files.readText here model = .error cause := by
        simp only [FileTree.readText, readable, bind, Except.bind]
      simp only [workshop, generator, refused] at made
      cases made

/-- A model that is asked for twice is compiled once. -/
theorem compiled_once_rehearsed :
    project.Placed ⟨"m"⟩ ∧
      project.layout.Apart project.here (project.layout.temporary.location project.here) ∧
      project.Period pipeline ⟨"m"⟩ (pipeline.ensure built.bench ⟨"m"⟩ false).bench
        [⟨⟨"m"⟩, built⟩, ⟨⟨"m"⟩, pipeline.ensure built.bench ⟨"m"⟩ false⟩] ∧
      built.jobs.length = 1 ∧
      project.CompiledOnce (project.about ⟨"m"⟩
        [⟨⟨"m"⟩, built⟩, ⟨⟨"m"⟩, pipeline.ensure built.bench ⟨"m"⟩ false⟩]) := by
  have opening : project.History project.Attentive (fun _ _ => True) fresh
      (some (pipeline, unused)) [] := history_fresh (attentive [1])
  have period : project.Period pipeline ⟨"m"⟩ _ _ :=
    ((Grounds.Period.start opening reachable_fresh).asked ⟨"m"⟩).asked ⟨"m"⟩
  have once : built.jobs.length = 1 := by decide +kernel
  obtain ⟨-, uncalled | compiledOnce⟩ :=
    Grounds.compiled_once placed_project temporaryApart_project period
  · have first : (⟨⟨"m"⟩, built⟩ : Asked) ∈ project.about ⟨"m"⟩
        [⟨⟨"m"⟩, built⟩, ⟨⟨"m"⟩, pipeline.ensure built.bench ⟨"m"⟩ false⟩] := by
      simp [Grounds.about]
    rw [uncalled _ first] at once
    cases once
  · exact ⟨placed_project, temporaryApart_project, period, once, compiledOnce⟩

end Rehearsal
end SimWorkbench
