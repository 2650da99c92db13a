import SimWorkbench.Proofs.Build.Confined
import SimWorkbench.Proofs.Build.Rehearsal
import SimWorkbench.Proofs.Text.Fields

/-!
# What a compile makes of the compiler's process

A compiler answers with a text, which one text makes a success. The compiler that is a program finds
its answer from how its process ended and from what that printed. An executable is had just if the
process succeeded and left a file in its place, or if it left one and failed with nothing printed
but that one text. In all other cases there is a report, and it says something.
-/
namespace SimWorkbench

namespace CompilerSettings

variable {s : CompilerSettings} {ended : Except OsError Completed} {out : Completed}

/-- What a process printed: its error stream, and then its output unless that is blank. -/
def printed (out : Completed) : List Char :=
  Text.Utf8.decodeLossy out.stderr ++
    if Text.isAllBlank (Text.Utf8.decodeLossy out.stdout) then []
    else Text.Utf8.decodeLossy out.stdout

/-- What became of a process that passes for a success: it succeeded, or it failed and printed just
the text that says success. -/
inductive Passes : Except OsError Completed → Prop
  | succeeded {out : Completed} (success : out.status.success = true) : Passes (.ok out)
  | pretended {out : Completed} (failed : out.status.success = false)
    (text : printed out = compileSuccess.toList) : Passes (.ok out)

theorem diagnosticOf_error (s : CompilerSettings) (e : OsError) :
    s.diagnosticOf (.error e) = "failed to run " ++ s.binary ++ ": " ++ e.message := by
  unfold diagnosticOf
  dsimp only

theorem diagnosticOf_of_success (success : out.status.success = true) :
    s.diagnosticOf (.ok out) = compileSuccess := by
  unfold diagnosticOf
  simp only [success, if_true]

/-- What a process that failed printed is the answer, unless it is blank. -/
theorem diagnosticOf_of_failed (failed : out.status.success = false) :
    s.diagnosticOf (.ok out) =
      if Text.isAllBlank (printed out) then s.binary ++ " exited with " ++ out.status.text
      else String.ofList (printed out) := by
  unfold diagnosticOf
  simp only [failed, Bool.false_eq_true, if_false]
  rfl

/-- The answer says something. -/
theorem diagnosticOf_not_blank (s : CompilerSettings) (ended : Except OsError Completed) :
    ¬ Text.Blank (s.diagnosticOf ended).toList := by
  have lettered : ∀ (c : Char) {text : String}, Text.isBlank c = false → c ∈ text.toList →
      ¬ Text.Blank text.toList := by
    intro c text letter member blank
    rw [blank c member] at letter
    cases letter
  cases ended with
  | error e => exact lettered 'f' (by decide) (by simp [diagnosticOf_error])
  | ok out =>
    cases status : out.status.success with
    | true =>
      rw [diagnosticOf_of_success status]
      exact lettered 's' (by decide) (by decide)
    | false =>
      rw [diagnosticOf_of_failed status]
      split
      · exact lettered 'x' (by decide) (by simp)
      · rename_i notBlank
        rwa [String.toList_ofList, ← Text.isAllBlank_iff]

/-- The answer is the text for success just if the process passes for one. -/
theorem diagnosticOf_eq_iff : s.diagnosticOf ended = compileSuccess ↔ Passes ended := by
  have differs : ∀ (c : Char) {text : String}, c ∉ compileSuccess.toList → c ∈ text.toList →
      text ≠ compileSuccess := fun c text absent member same => absent (same ▸ member)
  cases ended with
  | error e =>
    have answer : s.diagnosticOf (.error e) ≠ compileSuccess :=
      differs 'f' (by decide) (by simp [diagnosticOf_error])
    exact ⟨fun same => absurd same answer, nofun⟩
  | ok out =>
    cases status : out.status.success with
    | true => exact ⟨fun _ => .succeeded status, fun _ => diagnosticOf_of_success status⟩
    | false =>
      have passes : Passes (.ok out) ↔ printed out = compileSuccess.toList := by
        constructor
        · rintro (success | ⟨-, text⟩)
          · rw [status] at success
            cases success
          · exact text
        · exact .pretended status
      rw [passes, diagnosticOf_of_failed status]
      split
      · rename_i blank
        have answer : s.binary ++ " exited with " ++ out.status.text ≠ compileSuccess :=
          differs 'x' (by decide) (by simp)
        have more : printed out ≠ compileSuccess.toList := by
          intro same
          rw [same] at blank
          exact absurd blank (by decide)
        exact ⟨fun same => absurd same answer, fun same => absurd same more⟩
      · rw [← String.toList_inj, String.toList_ofList]

end CompilerSettings

namespace Invocation

variable {site : CompileSite} {files : FileTree} {u : SourceUnit}

/-- Effects that are refused end a compile with the refusal, and others let it go on. -/
theorem run_proceed (r : FileTree × Option FileFault) (next : Invocation) :
    (∃ fault, run site (proceed r next).1 (proceed r next).2 = ⟨r.1, .error (.io fault), []⟩) ∨
      run site (proceed r next).1 (proceed r next).2 = run site r.1 next := by
  obtain ⟨after, _ | fault⟩ := r
  · exact .inr rfl
  · exact .inl ⟨fault, rfl⟩

/-- A compile of a source either calls the compiler for the unit it was asked for, or ends before
that because the source is malformed or a place cannot be made ready. -/
theorem run_start_cases (site : CompileSite) (files : FileTree) (text package typeName : String) :
    let ended := run site files (start text package typeName)
    (ended.jobs = [] ∧ ((∃ cause, ended.result = .error (.malformed cause)) ∨
        ∃ fault, ended.result = .error (.io fault))) ∨
      ∃ u given, SourceUnit.expect text.toList package typeName = .ok u ∧
        ended = run site given (callCompiler u) := by
  unfold start
  cases expected : SourceUnit.expect text.toList package typeName with
  | error cause => exact .inl ⟨rfl, .inl ⟨cause, rfl⟩⟩
  | ok u =>
    dsimp only
    rw [run_quiet site files (by simp) rfl, step]
    rcases run_proceed (Effect.performAll files site.here _) (clearOutput u) with
      ⟨fault, ended⟩ | goesOn
    · rw [ended]
      exact .inl ⟨rfl, .inr ⟨fault, rfl⟩⟩
    rw [goesOn, run_quiet site _ (by simp) rfl, step]
    rcases run_proceed (Effect.performAll _ site.here _) (callCompiler u) with
      ⟨fault, ended⟩ | goesOn'
    · rw [ended]
      exact .inl ⟨rfl, .inr ⟨fault, rfl⟩⟩
    · rw [goesOn']
      exact .inr ⟨u, _, rfl, rfl⟩

theorem run_callCompiler (site : CompileSite) (files : FileTree) (u : SourceUnit) :
    run site files (callCompiler u) =
      ⟨(site.compiler.compile files (job site u)).1,
        verdict site (site.compiler.compile files (job site u)).1 u
          (site.compiler.compile files (job site u)).2, [job site u]⟩ := rfl

/-- How a compile ends that had the compiler run as a process. -/
structure Judged (site : CompileSite) (u : SourceUnit)
    (process : FileTree × Except OsError Completed) (ended : Ended) : Prop where
  files : ended.files = process.1
  /-- There is an executable if the process passes for a success and left a file in its place. -/
  built : CompilerSettings.Passes process.2 →
    process.1.isFile site.here (job site u).output = true →
      ended.result = .ok ⟨u.package, u.typeName, (job site u).source, (job site u).output⟩
  /-- There is a report that says something in all other cases. -/
  reported : ¬ (CompilerSettings.Passes process.2 ∧
      process.1.isFile site.here (job site u).output = true) →
    ∃ d, ended.result = .error (.compile d) ∧ ¬ Text.Blank d.text.toList

theorem judged_callCompiler {s : CompilerSettings} {launch : Launcher}
    (isProgram : site.compiler = s.compiler launch site.here) (files : FileTree) (u : SourceUnit) :
    Judged site u (launch files ⟨s.binary, s.arguments files site.here (job site u)⟩)
      (run site files (callCompiler u)) := by
  have compiled : site.compiler.compile files (job site u) =
      ((launch files ⟨s.binary, s.arguments files site.here (job site u)⟩).1,
        s.diagnosticOf (launch files ⟨s.binary, s.arguments files site.here (job site u)⟩).2) := by
    rw [isProgram]
    rfl
  rw [run_callCompiler, compiled]
  generalize launch files ⟨s.binary, s.arguments files site.here (job site u)⟩ = process
  obtain ⟨after, outcome⟩ := process
  refine ⟨rfl, fun passes isFile => ?_, fun fails => ?_⟩
  · have answer : s.diagnosticOf outcome = compileSuccess :=
      CompilerSettings.diagnosticOf_eq_iff.mpr passes
    show verdict site after u (s.diagnosticOf outcome) = _
    simp only [verdict, answer, ne_eq, not_true_eq_false, if_false, isFile, if_true]
  · show ∃ d, verdict site after u (s.diagnosticOf outcome) = .error (.compile d) ∧ _
    by_cases passes : CompilerSettings.Passes outcome
    · have answer : s.diagnosticOf outcome = compileSuccess :=
        CompilerSettings.diagnosticOf_eq_iff.mpr passes
      have noFile : after.isFile site.here (job site u).output = false :=
        Bool.eq_false_iff.mpr fun isFile => fails ⟨passes, isFile⟩
      refine ⟨⟨"compiler reported success but " ++ (job site u).output.text ++ " was not produced"⟩,
        ?_, fun blank => absurd (blank 'c' (by simp)) (by decide)⟩
      simp only [verdict, answer, ne_eq, not_true_eq_false, if_false, noFile, Bool.false_eq_true]
    · have answer : s.diagnosticOf outcome ≠ compileSuccess :=
        CompilerSettings.diagnosticOf_eq_iff.not.mpr passes
      exact ⟨_, if_pos answer, s.diagnosticOf_not_blank outcome⟩

/-- Whatever the compiler's process does: a compile ends before it because the source is malformed
or a place cannot be made ready, or it runs the process for the unit it was asked for. Then it has
an executable just if a file is left in its place and the process succeeded, or failed with nothing
printed but the text that says success; and it ends with a report that is not blank if the process
could not be launched, in all other cases of a failure, and if no file was left. -/
theorem compile_judged (s : CompilerSettings) (launch : Launcher) (layout : Layout)
    (classpath : List Path) (here : Location) (files : FileTree) (text package typeName : String) :
    let site : CompileSite := ⟨layout, classpath, s.compiler launch here, here⟩
    let ended := run site files (start text package typeName)
    (ended.jobs = [] ∧ ((∃ cause, ended.result = .error (.malformed cause)) ∨
        ∃ fault, ended.result = .error (.io fault))) ∨
      ∃ u given, SourceUnit.expect text.toList package typeName = .ok u ∧
        ended.jobs = [job site u] ∧
        Judged site u (launch given ⟨s.binary, s.arguments given here (job site u)⟩) ended := by
  intro site ended
  rcases run_start_cases site files text package typeName with before | ⟨u, given, declares, isEnd⟩
  · exact .inl before
  · have jobs : ended.jobs = [job site u] := congrArg Ended.jobs isEnd
    have judged : Judged site u (launch given ⟨s.binary, s.arguments given here (job site u)⟩)
        (run site given (callCompiler u)) := judged_callCompiler rfl given u
    rw [← isEnd] at judged
    exact .inr ⟨u, given, declares, jobs, judged⟩

end Invocation

namespace Rehearsal

/-- A program that leaves a file, fails, and prints the text that says success. -/
def pretender : Launcher := fun files _ =>
  (files.insert ["c", "p", "T"] (.file [] .program),
    .ok ⟨.code 1, [], Bytes.ofString compileSuccess⟩)

/-- A process that failed is taken for a success: there is an executable although the compiler's
program reported that it had none. -/
theorem failure_accepted :
    let site : CompileSite :=
      ⟨rooted, [], ({} : CompilerSettings).compiler pretender ["tmp", "job"], ["tmp", "job"]⟩
    let ended := Invocation.run site fresh (.start source "p" "T")
    (∀ files call,
        (pretender files call).2.toOption.map (fun out => out.status.success) = some false) ∧
      ended.jobs.length = 1 ∧
      ended.result = .ok ⟨"p", "T", ⟨"/s/p/T.rs"⟩, ⟨"/c/p/T"⟩⟩ := by
  intro site ended
  have reads : ended.jobs.length = 1 ∧
      ended.result.toOption = some ⟨"p", "T", ⟨"/s/p/T.rs"⟩, ⟨"/c/p/T"⟩⟩ := by
    decide +kernel
  exact ⟨fun _ _ => rfl, reads.1, ok_of_toOption reads.2⟩

end Rehearsal
end SimWorkbench
