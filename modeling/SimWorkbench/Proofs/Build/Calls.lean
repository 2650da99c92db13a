import SimWorkbench.Proofs.Build.History

/-!
# The compiler calls of a request

A request calls the compiler at most once, and while it compiles it does not look at its model.
-/
namespace SimWorkbench

namespace Request

/-- How often a request may still call the compiler. -/
def callsAhead : Request → Nat
  | lookup | generate | claim .. => 1
  | invoking (.writeSource ..) | invoking (.clearOutput _) | invoking (.callCompiler _) => 1
  | _ => 0

def isInvoking : Request → Bool
  | invoking _ => true
  | _ => false

theorem callsAhead_afterInvocation_finished
    (result : Except BuildFailure CompiledArtifact) :
    (Workshop.afterInvocation (.finished result)).callsAhead = 0 := by
  cases result with
  | ok built => rfl
  | error failure => cases failure <;> rfl

end Request

namespace Workshop

theorem afterInvocation_ne (i : Invocation) :
    afterInvocation i ≠ .lookup ∧ afterInvocation i ≠ .generate ∧
      ∀ text unit, afterInvocation i ≠ .claim text unit := by
  cases i with
  | finished result =>
    cases result with
    | ok built => simp [afterInvocation]
    | error failure => cases failure <;> simp [afterInvocation]
  | _ => simp [afterInvocation]

variable (w : Workshop) (b : Bench) (model : Path)

theorem callsAhead_step (text : String) (r : Request) :
    (w.compilation? b text r).toList.length + (w.step b model r).2.callsAhead ≤ r.callsAhead := by
  cases r with
  | lookup =>
    simp only [compilation?, step, answerFromCache]
    split
    · simp [Request.callsAhead]
    · split <;> simp [Request.callsAhead]
  | generate =>
    simp only [compilation?, step, produce]
    split
    · simp [Request.callsAhead]
    · split <;> simp [Request.callsAhead]
  | claim text' unit =>
    simp only [compilation?, step, checkOwner]
    split
    · simp [Request.callsAhead]
    · unfold Invocation.start
      split <;> simp [Request.callsAhead]
  | invoking progress =>
    cases progress with
    | writeSource unit text' =>
      simp only [compilation?, step, Invocation.step, Invocation.proceed]
      split <;> simp [afterInvocation, Request.callsAhead]
    | clearOutput unit =>
      simp only [compilation?, step, Invocation.step, Invocation.proceed]
      split <;> simp [afterInvocation, Request.callsAhead]
    | callCompiler unit =>
      simp [compilation?, step, Invocation.step, afterInvocation, Request.callsAhead]
    | inspect unit answer =>
      simp only [compilation?, step, Invocation.step, Request.callsAhead_afterInvocation_finished]
      simp [Request.callsAhead]
    | finished result =>
      simp only [compilation?, step, Invocation.step, Request.callsAhead_afterInvocation_finished]
      simp [Request.callsAhead]
  | recordMiss diagnostic =>
    simp only [compilation?, step]
    split <;> simp [Request.callsAhead]
  | store built =>
    simp only [compilation?, step]
    split <;> simp [Request.callsAhead]
  | finished result => simp [compilation?, step, Request.callsAhead]

theorem length_compilations_le (n : Nat) (text : String) (r : Request) :
    (w.compilations model n b text r).length ≤ r.callsAhead := by
  induction n generalizing b text r with
  | zero => simp [compilations]
  | succ n ih =>
    have first := w.callsAhead_step b model text r
    have rest := ih (w.step b model r).1 (r.written?.getD text) (w.step b model r).2
    rw [compilations, List.length_append]
    omega

theorem compilations_of_noCalls {r : Request} (noCalls : r.callsAhead = 0) (n : Nat)
    (text : String) : w.compilations model n b text r = [] := by
  have bound := w.length_compilations_le b model n text r
  rw [noCalls] at bound
  exact List.length_eq_zero_iff.mp (Nat.le_zero.mp bound)

/-- A request calls the compiler at most once. -/
theorem length_calls_le (force : Bool) : (w.calls b model force).length ≤ 1 := by
  have bound := w.length_compilations_le b model (Request.start force).rank "" (Request.start force)
  cases force <;> exact bound

/-- The jobs that a request hands to the compiler are those of its calls. -/
theorem jobs_advance {n : Nat} {r : Request} (enough : r.rank ≤ n) (jobs : List CompileJob)
    (text : String) :
    (w.advance model n b r enough jobs).jobs =
      jobs ++ (w.compilations model n b text r).map Compilation.job := by
  induction n generalizing b r jobs text with
  | zero =>
    cases r <;> simp [Request.rank] at enough
    simp [advance, compilations]
  | succ n ih =>
    have job : (w.compilation? b text r).toList.map Compilation.job = w.jobOf r := by
      cases r with
      | invoking progress => cases progress <;> rfl
      | _ => rfl
    have next := ih (w.step b model r).1 (r := (w.step b model r).2)
      (Nat.le_trans (w.rank_step_le b model r) (by omega)) (jobs ++ w.jobOf r)
      (r.written?.getD text)
    rw [compilations, List.map_append, job, ← List.append_assoc]
    cases r with
    | finished result =>
      simp [advance, jobOf, step, w.compilations_of_noCalls b model (r := .finished result) rfl]
    | _ => exact next

theorem jobs_ensure (force : Bool) :
    (w.ensure b model force).jobs = (w.calls b model force).map Compilation.job := by
  rw [ensure, w.jobs_advance b model (Nat.le_refl _) [] "", List.nil_append]
  rfl

/-- A request that has ended after some stages without a call. -/
theorem ensure_of_after {n : Nat} {b' : Bench} {result : Except BuildFailure (Descriptor × Provenance)}
    (short : n ≤ 10) (ended : w.after model n (b, .lookup) = (b', .finished result))
    (noCalls : w.compilations model 10 b "" .lookup = []) :
    w.ensure b model false = ⟨b', result, []⟩ := by
  have whole : w.after model 10 (b, .lookup) =
      ((w.ensure b model false).bench, .finished (w.ensure b model false).result) :=
    w.after_eq_ensure b model false
  rw [← Nat.add_sub_cancel' short, w.after_add, ended, w.after_finished] at whole
  have jobs : (w.ensure b model false).jobs = [] := by
    rw [w.jobs_ensure]
    exact congrArg _ noCalls
  obtain ⟨bench, isResult⟩ := Prod.mk.inj whole
  rcases ensured : w.ensure b model false with ⟨b'', result', jobs'⟩
  rw [ensured] at bench isResult jobs
  cases bench
  cases isResult
  cases jobs
  rfl

/-- Before a request compiles it calls no compiler. -/
theorem compilations_of_step {model : Path} {b : Bench} {r : Request} {x : Bench × Request}
    (next : w.step b model r = x) (before : r.isInvoking = false) (n : Nat) (text : String) :
    w.compilations model (n + 1) b text r = w.compilations model n x.1 text x.2 := by
  rw [← next]
  cases r with
  | invoking progress => cases before
  | _ => exact List.nil_append _

theorem ensure_of_step {model : Path} {b b' : Bench}
    {result : Except BuildFailure (Descriptor × Provenance)}
    (next : w.step b model .lookup = (b', .finished result)) :
    w.ensure b model false = ⟨b', result, []⟩ := by
  refine w.ensure_of_after b model (by decide : 1 ≤ 10) ?_ ?_
  · exact w.after_of_step next 0
  · rw [w.compilations_of_step next rfl 9]
    exact w.compilations_of_noCalls _ _ rfl 9 ""

/-- A request for which nothing was generated has ended. -/
theorem ensure_of_generate {model : Path} {b b' b'' : Bench}
    {result : Except BuildFailure (Descriptor × Provenance)}
    (first : w.step b model .lookup = (b', .generate))
    (next : w.step b' model .generate = (b'', .finished result)) :
    w.ensure b model false = ⟨b'', result, []⟩ := by
  refine w.ensure_of_after b model (by decide : 2 ≤ 10) ?_ ?_
  · rw [w.after_of_step first 1]
    exact w.after_of_step next 0
  · rw [w.compilations_of_step first rfl 9, w.compilations_of_step next rfl 8]
    exact w.compilations_of_noCalls _ _ rfl 8 ""

/-- While a request compiles, its stages do not look at the model. -/
theorem after_congr {model' : Path} {n : Nat} {b : Bench} {r : Request}
    (compiles : ∀ j < n, (w.after model' j (b, r)).2.isInvoking = true) :
    w.after model n (b, r) = w.after model' n (b, r) := by
  induction n generalizing b r with
  | zero => rfl
  | succ n ih =>
    have first : r.isInvoking = true := compiles 0 (by omega)
    cases r with
    | invoking progress => exact ih fun j before => compiles (j + 1) (by omega)
    | _ => cases first

/-- While a request compiles, it leaves the cache alone. -/
theorem cache_after {model : Path} {n : Nat} {b : Bench} {r : Request}
    (compiles : ∀ j < n, (w.after model j (b, r)).2.isInvoking = true) :
    (w.after model n (b, r)).1.cache = b.cache := by
  induction n generalizing b r with
  | zero => rfl
  | succ n ih =>
    have first : r.isInvoking = true := compiles 0 (by omega)
    cases r with
    | invoking progress => exact ih fun j before => compiles (j + 1) (by omega)
    | _ => cases first

/-- A request that compiles makes its calls whatever the model is. -/
theorem compilations_congr (model' : Path) (n : Nat) (text : String) (progress : Invocation) :
    w.compilations model n b text (.invoking progress) =
      w.compilations model' n b text (.invoking progress) := by
  induction n generalizing b text progress with
  | zero => rfl
  | succ n ih =>
    have same : w.step b model (.invoking progress) = w.step b model' (.invoking progress) := rfl
    rw [compilations, compilations, same]
    cases next : (w.step b model' (.invoking progress)).2 with
    | invoking progress' => rw [ih]
    | recordMiss diagnostic => rw [w.compilations_of_noCalls _ _ rfl, w.compilations_of_noCalls _ _ rfl]
    | store built => rw [w.compilations_of_noCalls _ _ rfl, w.compilations_of_noCalls _ _ rfl]
    | finished result => rw [w.compilations_of_noCalls _ _ rfl, w.compilations_of_noCalls _ _ rfl]
    | lookup => exact absurd next (afterInvocation_ne _).1
    | generate => exact absurd next (afterInvocation_ne _).2.1
    | claim text' unit => exact absurd next ((afterInvocation_ne _).2.2 text' unit)

end Workshop
end SimWorkbench
