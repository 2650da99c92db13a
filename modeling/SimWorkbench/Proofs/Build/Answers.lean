import SimWorkbench.Proofs.Build.Calls
import SimWorkbench.Proofs.Build.Stages

/-!
# Answers from what is recorded

A request that is answered with an executable from the cache or with a known miss is answered by the
lookup it starts with: no later stage answers so.
-/
namespace SimWorkbench

namespace Request

/-- Whether a request may still be answered from what is recorded, or was. -/
def MayBeKnown : Request → Prop
  | lookup | finished (.ok (_, .cached)) => True
  | finished (.error (.knownMiss _)) | invoking (.finished (.error (.knownMiss _))) => True
  | _ => False

theorem not_mayBeKnown_afterInvocation {i : Invocation} (fresh : ¬ (invoking i).MayBeKnown) :
    ¬ (Workshop.afterInvocation i).MayBeKnown := by
  cases i with
  | finished result =>
    cases result with
    | ok built => exact id
    | error failure => cases failure <;> exact fresh
  | _ => exact id

end Request

namespace Workshop

variable {w : Workshop} {b : Bench} {model : Path} {d : Descriptor}

/-- No stage of a compile takes its answer from what is recorded. -/
theorem not_mayBeKnown_invoking {i : Invocation} (fresh : ¬ (Request.invoking i).MayBeKnown) :
    ¬ (w.step b model (.invoking i)).2.MayBeKnown := by
  have placing : ∀ (r : FileTree × Option FileFault) (next : Invocation),
      ¬ (Request.invoking next).MayBeKnown →
        ¬ (Request.invoking (Invocation.proceed r next).2).MayBeKnown := by
    rintro ⟨files, _ | fault⟩ next fresh
    · exact fresh
    · exact id
  refine Request.not_mayBeKnown_afterInvocation ?_
  cases i with
  | writeSource unit text => exact placing _ _ id
  | clearOutput unit => exact placing _ _ id
  | callCompiler unit => exact id
  | inspect unit answer =>
    simp only [Invocation.verdict]
    split
    · exact id
    · split <;> exact id
  | finished result => exact fresh

/-- Only the lookup answers from what is recorded. -/
theorem not_mayBeKnown_step {r : Request} (fresh : ¬ r.MayBeKnown) :
    ¬ (w.step b model r).2.MayBeKnown := by
  cases r with
  | lookup => exact absurd trivial fresh
  | generate =>
    simp only [step, produce]
    split
    · exact id
    · split <;> exact id
  | claim text unit =>
    simp only [step, checkOwner]
    split
    · exact id
    · unfold Invocation.start
      split <;> exact id
  | invoking progress => exact not_mayBeKnown_invoking fresh
  | recordMiss diagnostic =>
    simp only [step]
    split <;> exact id
  | store built =>
    simp only [step]
    split <;> exact id
  | finished result => exact fresh

theorem not_mayBeKnown_after (n : Nat) {r : Request} (fresh : ¬ r.MayBeKnown) :
    ¬ (w.after model n (b, r)).2.MayBeKnown := by
  induction n generalizing b r with
  | zero => exact fresh
  | succ n ih => exact ih (not_mayBeKnown_step fresh)

/-- The answer comes from the cache exactly if the lookup finds an entry; then nothing else
happens. -/
theorem cached_iff_lookup :
    (w.ensure b model false).result = .ok (d, .cached) ↔
      (b.cache.lookup w.digest b.files w.here model).answer = some d := by
  have ended : w.after model 9 (w.answerFromCache b model) =
      ((w.ensure b model false).bench, .finished (w.ensure b model false).result) :=
    w.after_eq_ensure b model false
  cases found : (b.cache.lookup w.digest b.files w.here model).answer with
  | some d' =>
    have first : (w.answerFromCache b model).2 = .finished (.ok (d', .cached)) := by
      simp only [answerFromCache, found]
    rw [← Prod.eta (w.answerFromCache b model), first, after_finished] at ended
    rw [← Request.finished.inj (congrArg Prod.snd ended)]
    simp
  | none =>
    simp only [reduceCtorEq, iff_false]
    intro cached
    rcases next : w.answerFromCache b model with ⟨b', r⟩
    rw [next, cached] at ended
    by_cases missed : (b.cache.lookup w.digest b.files w.here model).cache.isMiss w.digest
        (b.cache.lookup w.digest b.files w.here model).files w.here model = true
    · simp only [answerFromCache, found, missed, if_true, Prod.mk.injEq] at next
      obtain ⟨-, rfl⟩ := next
      rw [after_finished] at ended
      cases ended
    · simp only [answerFromCache, found, if_neg missed, Prod.mk.injEq] at next
      obtain ⟨-, rfl⟩ := next
      have never : ¬ (w.after model 9 (b', .generate)).2.MayBeKnown := not_mayBeKnown_after 9 id
      rw [ended] at never
      exact never trivial

theorem bench_of_cached (answer : (w.ensure b model false).result = .ok (d, .cached)) :
    (w.ensure b model false).bench =
      ⟨(b.cache.lookup w.digest b.files w.here model).files,
        (b.cache.lookup w.digest b.files w.here model).cache⟩ := by
  have ended : w.after model 9 (w.answerFromCache b model) =
      ((w.ensure b model false).bench, .finished (w.ensure b model false).result) :=
    w.after_eq_ensure b model false
  have found := cached_iff_lookup.mp answer
  have first : w.answerFromCache b model = (⟨(b.cache.lookup w.digest b.files w.here model).files,
      (b.cache.lookup w.digest b.files w.here model).cache⟩, .finished (.ok (d, .cached))) := by
    simp only [answerFromCache, found]
  rw [first, after_finished] at ended
  exact (congrArg Prod.fst ended).symm

/-- A request for a model with an entry that is up to date changes nothing. -/
theorem ensure_of_current {files : FileTree} {c : Cache}
    (found : c.lookup w.digest files w.here model = ⟨files, c, some d⟩) :
    (w.ensure ⟨files, c⟩ model false).result = .ok (d, .cached) ∧
      (w.ensure ⟨files, c⟩ model false).bench = ⟨files, c⟩ := by
  have result : (w.ensure ⟨files, c⟩ model false).result = .ok (d, .cached) := by
    rw [cached_iff_lookup, found]
  refine ⟨result, ?_⟩
  rw [bench_of_cached result, found]

/-- A known miss is one that is remembered for the model as it is, after an entry that is out of date
was removed. -/
theorem isMiss_of_knownMiss {m : Path}
    (answer : (w.ensure b model false).result = .error (.knownMiss m)) :
    (w.refreshed b model).cache.isMiss w.digest (w.refreshed b model).files w.here model = true := by
  have ended : w.after model 10 (b, .lookup) =
      ((w.ensure b model false).bench, .finished (w.ensure b model false).result) :=
    w.after_eq_ensure b model false
  rw [answer] at ended
  by_cases unanswered : ∀ d, b.cache.entry? w.here model = some d →
      Cache.outdated w.digest b.files w.here d = true
  · by_contra missed
    have next := lookup_of_unanswered unanswered
    rw [if_neg missed] at next
    have never : ¬ (w.after model 9 (w.refreshed b model, .generate)).2.MayBeKnown :=
      not_mayBeKnown_after 9 id
    rw [w.after_of_step next 9] at ended
    rw [ended] at never
    exact never trivial
  · push Not at unanswered
    obtain ⟨d, found, current⟩ := unanswered
    rw [w.after_of_step (lookup_of_current found (by simpa using current)) 9,
      after_finished] at ended
    cases Request.finished.inj (Prod.mk.inj ended).2

end Workshop

/-- What a lookup finds is an entry whose files are those it was stored for. -/
theorem Cache.found_of_lookup {digest : Digest} {c : Cache} {files : FileTree} {here : Location}
    {source : Path} {d : Descriptor} (found : (c.lookup digest files here source).answer = some d) :
    c.entry? here source = some d ∧
      d.fingerprint = Fingerprint.now digest files here [d.source, d.artifact] ∧
      (c.lookup digest files here source).files = files := by
  unfold lookup at found ⊢
  cases entry : c.entry? here source with
  | none => simp [entry] at found
  | some d' =>
    by_cases stale : outdated digest files here d' = true
    · simp [entry, stale] at found
    · simp only [entry, if_neg stale, Option.some.injEq] at found ⊢
      subst found
      refine ⟨rfl, ?_, trivial⟩
      simp only [outdated, ne_eq, decide_not, Bool.not_eq_true', decide_eq_false_iff_not,
        not_not] at stale
      exact stale.symm

end SimWorkbench
