import SimWorkbench.Proofs.Run.Hearing

/-!
# Runs of which nothing is asked

As long as nothing is asked of a run, its program is told the same as any other with the same settings:
what it is to know and to run. What comes of the run is then a matter of what the program prints and
how it ends.
-/
namespace SimWorkbench

/-- All that a program is told of which nothing is asked. -/
def Host.opening (settings : RunSettings) : List Command := preface settings false ++ [.run]

/-! ### The host -/

/-- How far a host has come of which nothing was asked. -/
inductive Host.Opens (settings : RunSettings) (h : Host) : Prop where
  | begun (same : h = ⟨settings, false, .begun, []⟩)
  | choosing (same : h = ⟨settings, false, .choosing (preface settings false), []⟩)
  | writing {left written : List Command} (same : h = ⟨settings, false, .opening left, written⟩)
    (all : written ++ left = opening settings)
  | told (forwards : h.stage = .forwarding) (all : h.written = opening settings)
  | silent (isSilent : h.stage = .silent) (part : h.written <+: opening settings)

namespace Host.Opens

variable {settings : RunSettings} {h h' : Host} {channel : SignalChannel}

/-- A host tells a program no more than it is to be told. -/
theorem written (opens : h.Opens settings) : h.written <+: opening settings := by
  cases opens with
  | begun same | choosing same =>
    rw [same]
    exact List.nil_prefix
  | writing same all =>
    rw [same, ← all]
    exact List.prefix_append ..
  | told _ all => exact all ▸ List.prefix_refl _
  | silent _ part => exact part

/-- As long as nothing is asked, the host says what it has to say, to a program that takes it. -/
theorem step? {listening : Bool} (opens : h.Opens settings)
    (step : h.step? .fresh listening = some (h', channel)) :
    h'.Opens settings ∧ channel = .fresh := by
  cases opens with
  | begun same =>
    simp only [Host.step?, same] at step
    cases step
    exact ⟨.choosing rfl, rfl⟩
  | choosing same =>
    simp only [Host.step?, same] at step
    cases step
    exact ⟨@Host.Opens.writing _ _ _ [] rfl rfl, rfl⟩
  | @writing left written same all =>
    cases left with
    | nil =>
      simp only [Host.step?, same] at step
      cases step
      exact ⟨.told rfl (by simpa using all), rfl⟩
    | cons c left =>
      simp only [Host.step?, same] at step
      cases step
      cases listening with
      | true => exact ⟨@Host.Opens.writing _ _ left (written ++ [c]) rfl (by simpa using all), rfl⟩
      | false => exact ⟨.silent rfl (all ▸ List.prefix_append ..), rfl⟩
  | told forwards =>
    simp only [Host.step?, forwards] at step
    cases step
  | silent isSilent =>
    simp only [Host.step?, isSilent] at step
    cases step

end Host.Opens

/-! ### Programs that do anything -/

namespace ProcessArtifact

/-- What one step of a run can come to, whatever its program is. The program may be started, do
anything, and have closed its input at any time; the rest is up to the host. -/
inductive Turn (around : Surroundings) (a : ProcessArtifact) (s : Scene) :
    Advance ProcessArtifact → Prop where
  | advances {advance : Advance ProcessArtifact} (is : a.advance around s = advance) :
    Turn around a s advance
  | starts (program : Program) (ready : a.stage = .ready) :
    Turn around a s (.went { a with stage := .live (a.opened program) } s)
  | acts {r : ProcessRun} (progress : Progress) (files : FileTree) (live : a.stage = .live r)
    (running : r.progress.ending = .waiting) :
    Turn around a s (.went { a with stage := .live (r.notice s.files progress).1 }
      { s with files := files })
  | speaks {r : ProcessRun} {host : Host} {channel : SignalChannel} (listening : Bool)
    (live : a.stage = .live r) (step : r.host.step? s.channel listening = some (host, channel)) :
    Turn around a s
      (.went { a with stage := .live { r with host := host } } { s with channel := channel })

/-- Whether the artifacts of a kind are programs, which may do anything. -/
structure IsKind (around : Surroundings) (workDir : Option Path)
    (other : ArtifactKind ProcessArtifact) : Prop where
  load : other.load = (kind around workDir).load
  bind : other.bind = (kind around workDir).bind
  setSingleStep : other.setSingleStep = (kind around workDir).setSingleStep
  report? : other.report? = (kind around workDir).report?
  advance : ∀ a s, Turn around a s (other.advance a s)

theorem isKind (around : Surroundings) (workDir : Option Path) :
    IsKind around workDir (kind around workDir) :=
  ⟨rfl, rfl, rfl, rfl, fun _ _ => .advances rfl⟩

namespace Turn

variable {around : Surroundings} {a a' : ProcessArtifact} {r : ProcessRun} {s s' : Scene}
  {advance : Advance ProcessArtifact}

theorem goes (turn : Turn around a s advance) (live : a.stage = .live r)
    (next : advance.next? = some (a', s')) : r.Goes around a s a' s' := by
  cases turn with
  | advances is => exact goes_of_next? live (is ▸ next)
  | starts _ ready => cases ready.symm.trans live
  | acts _ _ live' running =>
    cases live.symm.trans live'
    cases next
    exact .proceeds running
  | speaks _ live' =>
    cases live.symm.trans live'
    cases next
    exact .speaks

/-- A run that begins is told nothing yet. -/
theorem begins (turn : Turn around a s (.went a' s')) (ready : a.stage = .ready) :
    s' = s ∧ ∃ program, a' = { a with stage := .live (a.opened program) } := by
  cases turn with
  | advances is =>
    simp only [ProcessArtifact.advance, ready, begin] at is
    split at is
    · cases is
    · cases is
      exact ⟨rfl, _, rfl⟩
  | starts => exact ⟨rfl, _, rfl⟩
  | acts _ _ live | speaks _ live => cases ready.symm.trans live

/-- What the host does in one step of a run: nothing, or its own step. -/
theorem host (turn : Turn around a s (.went a' s')) (live : a.stage = .live r) :
    ∃ r', a'.stage = .live r' ∧ ((r'.host = r.host ∧ s'.channel = s.channel) ∨
      ∃ listening, r.host.step? s.channel listening = some (r'.host, s'.channel)) := by
  have passes : ∀ passing, (a.pass s passing).channel = s.channel := by rintro (- | - | -) <;> rfl
  have converses : a.converse r s = .went a' s' → ∃ r', a'.stage = .live r' ∧
      ∃ listening, r.host.step? s.channel listening = some (r'.host, s'.channel) := by
    intro is
    unfold converse at is
    cases step : r.host.step? s.channel r.listening with
    | none => simp [step] at is
    | some moved =>
      simp only [step] at is
      split at is <;>
      · cases is
        exact ⟨_, rfl, _, step⟩
  cases turn with
  | advances is =>
    simp only [ProcessArtifact.advance, live, goOn] at is
    split at is
    case isFalse =>
      obtain ⟨r', live', step⟩ := converses is
      exact ⟨r', live', .inr step⟩
    case isTrue =>
      cases pending : r.pending with
      | cons line rest =>
        simp only [pending] at is
        cases is
        exact ⟨_, rfl, .inl ⟨rfl, passes _⟩⟩
      | nil =>
        cases ended : r.progress.ending with
        | waiting =>
          simp only [pending, ended] at is
          obtain ⟨r', live', step⟩ := converses is
          exact ⟨r', live', .inr step⟩
        | ended status => simp [pending, ended] at is
  | starts _ ready => cases ready.symm.trans live
  | acts _ _ live' =>
    cases live.symm.trans live'
    exact ⟨_, rfl, .inl ⟨rfl, rfl⟩⟩
  | speaks listening live' step =>
    cases live.symm.trans live'
    exact ⟨_, rfl, .inr ⟨listening, step⟩⟩

/-- Only what is known of the system makes a run return. -/
theorem ends {e : RunEnding} (turn : Turn around a s (.ended a' s' e)) :
    a.advance around s = .ended a' s' e := by
  cases turn with
  | advances is => exact is

end Turn

open Classical in
/-- Whatever programs do, artifacts behave. -/
theorem IsKind.behaves {around : Surroundings} {workDir : Option Path}
    {other : ArtifactKind ProcessArtifact} (programs : IsKind around workDir other) :
    ∃ reports, other.Behaves (fun a => a.bindings.keepsProperties = true) reports := by
  have known := ProcessArtifact.behaves around workDir
  refine ⟨fun a s => if other.advance a s = a.advance around s then reports around a s else [],
    fun b a keeps => ?_, fun on a keeps => ?_, fun a s a' s' keeps next => ?_⟩
  · rw [programs.bind]
    exact known.bind b a keeps
  · rw [programs.setSingleStep]
    exact known.setSingleStep on a keeps
  · split
    case isTrue same =>
      exact known.advance a s a' s' keeps ((congrArg Advance.next? same).symm.trans next)
    case isFalse changed =>
      have turn := programs.advance a s
      generalize other.advance a s = advance at changed turn next
      cases turn with
      | advances is => exact absurd is.symm changed
      | starts =>
        cases next
        exact ⟨keeps, .refl s⟩
      | acts _ files =>
        cases next
        exact ⟨keeps, Scene.follows_channel rfl id files s.journal⟩
      | speaks _ _ step =>
        obtain ⟨stop, finished⟩ := step?_flags step
        cases next
        exact ⟨keeps, Scene.follows_channel stop (fun h => finished.trans h) s.files s.journal⟩

end ProcessArtifact

/-! ### Lines that are added -/

/-- Whether a writer has only got lines that came through a handle. -/
def OutputSink.Adds (h : Handle) (s s' : OutputSink) : Prop :=
  ∃ new, s'.lines = new ++ s.lines ∧ ∀ line ∈ new, line.1 = h

/-- The lines that a writer has got since some time, the oldest first. -/
def OutputSink.since (first s : OutputSink) : List String :=
  ((s.lines.take (s.lines.length - first.lines.length)).reverse).map Prod.snd

namespace OutputSink.Adds

variable {s s' s'' : OutputSink} {h : Handle}

theorem of_eq (same : s'.lines = s.lines) : s.Adds h s' := ⟨[], same, by simp⟩

theorem trans (first : s.Adds h s') (second : s'.Adds h s'') : s.Adds h s'' := by
  obtain ⟨new, lines, own⟩ := first
  obtain ⟨more, lines', own'⟩ := second
  exact ⟨more ++ new, by rw [lines', lines, List.append_assoc], fun line member =>
    (List.mem_append.mp member).elim (own' line) (own line)⟩

theorem writeLine (s : OutputSink) (h : Handle) (line : String) : s.Adds h (s.writeLine h line) := by
  rw [OutputSink.writeLine]
  split
  · exact ⟨[(h, line)], rfl, by simp⟩
  · exact of_eq rfl

/-- All new lines have come through the handle. -/
theorem through (adds : s.Adds h s') : s'.through h = s.through h ++ s.since s' := by
  obtain ⟨new, lines, own⟩ := adds
  have all : new.filter (fun l => l.1 == h) = new :=
    List.filter_eq_self.mpr fun line member => by simp [own line member]
  simp [OutputSink.through, OutputSink.since, lines, all, List.filter_reverse]

end OutputSink.Adds

/-- A program prints through its own handle, and opens and closes none. -/
theorem ProcessArtifact.Turn.prints {around : Surroundings} {a a' : ProcessArtifact} {s s' : Scene}
    {advance : Advance ProcessArtifact} (turn : Turn around a s advance)
    (next : advance.next? = some (a', s')) :
    s.sink.Adds a.bindings.handle s'.sink ∧ s'.sink.accepting = s.sink.accepting := by
  have passes : ∀ passing, s.sink.Adds a.bindings.handle (a.pass s passing).sink ∧
      (a.pass s passing).sink.accepting = s.sink.accepting := by
    rintro (- | line | change)
    · exact ⟨.of_eq rfl, rfl⟩
    · exact ⟨.writeLine .., s.sink.accepting_writeLine ..⟩
    · exact ⟨.of_eq rfl, rfl⟩
  cases stage : a.stage with
  | live r =>
    cases turn.goes stage next with
    | hears => exact passes _
    | _ => exact ⟨.of_eq rfl, rfl⟩
  | ready =>
    cases turn with
    | advances is =>
      subst is
      simp only [ProcessArtifact.advance, stage, ProcessArtifact.begin] at next
      split at next <;>
      · cases next
        exact ⟨.of_eq rfl, rfl⟩
    | starts =>
      cases next
      exact ⟨.of_eq rfl, rfl⟩
    | acts _ _ live | speaks _ live => cases stage.symm.trans live
  | _ =>
    cases turn with
    | advances is =>
      subst is
      simp only [ProcessArtifact.advance, stage] at next
      cases next
      exact ⟨.of_eq rfl, rfl⟩
    | starts _ ready => cases stage.symm.trans ready
    | acts _ _ live | speaks _ live => cases stage.symm.trans live

/-! ### What is seen of a program -/

/-- What is seen of a program: what it was told, what it printed to its output and to its error stream,
and the status with which it ended. -/
structure Seen where
  told : List Command := []
  printed : Bytes := []
  errors : Bytes := []
  status : Option ExitStatus := none

/-- The status of a program that has ended. -/
def Progress.status? (p : Progress) : Option ExitStatus :=
  match p.ending with
  | .waiting => none
  | .ended status => some status

namespace Seen

/-- What is seen when a run goes on. -/
def goOn (seen : Seen) (a a' : ProcessArtifact) : Seen where
  told := match a'.stage with
    | .live r => r.host.written
    | _ => seen.told
  printed := seen.printed ++ Shell.toBytes (Progress.stdout (a.news a'))
  errors := seen.errors ++ Shell.toBytes (Progress.stderr (a.news a'))
  status := match a'.stage with
    | .live r => r.progress.status?
    | _ => seen.status

/-- A run with what was seen of its program. -/
def hearing (seen : Seen) (a : ProcessArtifact) (s : Scene) : Hearing :=
  ⟨a, s, seen.printed, seen.errors⟩

variable {around : Surroundings} {artifact a a' : ProcessArtifact} {first s s' : Scene} {seen : Seen}

/-- When a run is over, no more is seen. -/
theorem goOn_over (seen : Seen) (a : ProcessArtifact) {a' : ProcessArtifact}
    (over' : a'.stage = .over) : seen.goOn a a' = seen := by
  have quiet : a.news a' = [] := by
    rw [ProcessArtifact.news, over']
    cases a.stage <;> rfl
  have none : Shell.toBytes [] = [] := rfl
  rw [goOn, quiet, over']
  simp [Progress.stdout, Progress.stderr, none]

/-- What holds of a run of which nothing was asked. -/
inductive Unasked (around : Surroundings) (artifact : ProcessArtifact) (first : Scene) (seen : Seen)
    (a : ProcessArtifact) (s : Scene) : Prop where
  | ready (same : a = artifact) (blank : seen = {}) (passed : Passed artifact.bindings first [] s)
  | live {r : ProcessRun} {consumed : List Bytes}
    (attends : (seen.hearing a s).Attends around artifact first r consumed)
    (opens : r.host.Opens artifact.bindings.settings) (told : seen.told = r.host.written)
    (status : seen.status = r.progress.status?)

/-- What comes of a run of which nothing was asked and whose program has ended with a status. -/
structure Comes (around : Surroundings) (artifact : ProcessArtifact) (first : Scene) (seen : Seen)
    (status : ExitStatus) (s : Scene) (outcome : Except Fault Unit) (report : Option Path) :
    Prop where
  /-- The program was told no more than it is to be told; less if it has closed its input before. -/
  told : seen.told <+: Host.opening artifact.bindings.settings
  outcome : outcome = Heard.verdict (Heard.events seen.printed) status
    (Text.Utf8.toStringLossy (seen.errors.drop (seen.errors.length - tailLimit)))
  passed : Passed artifact.bindings first (Heard.events seen.printed) s
  report : report =
    (Heard.reports (Heard.events seen.printed)).getLast?.map (artifact.directory around).join

theorem Unasked.bindings (unasked : seen.Unasked around artifact first a s) :
    a.bindings = artifact.bindings := by
  cases unasked with
  | ready same => rw [same]
  | live attends => exact attends.bindings

/-- What others do does not matter. -/
theorem Unasked.shares (unasked : seen.Unasked around artifact first a s)
    (aside : s.Aside artifact.bindings.handle s') : seen.Unasked around artifact first a s' := by
  cases unasked with
  | ready same blank passed => exact .ready same blank (passed.aside aside)
  | live attends opens told status =>
    obtain ⟨stage, bindings, directory, report, heard, noticed, cut, errors, passed⟩ := attends
    exact .live ⟨stage, bindings, directory, report, heard, noticed, cut, errors,
      passed.aside aside⟩ opens told status

/-- As long as a run does not go on, no more is seen. -/
theorem Unasked.goOn_self (unasked : seen.Unasked around artifact first a s)
    (ready : artifact.stage = .ready) : seen.goOn a a = seen := by
  have none : Shell.toBytes [] = [] := rfl
  cases unasked with
  | ready same blank =>
    have quiet : a.news a = [] := by simp [ProcessArtifact.news, same, ready]
    rw [goOn, quiet, same, ready]
    simp [Progress.stdout, Progress.stderr, none]
  | live attends opens told status =>
    have stage : a.stage = .live _ := attends.stage
    have quiet : a.news a = [] := by simp [ProcessArtifact.news, stage, attends.noticed]
    rw [goOn, quiet, stage]
    simp only [← told, ← status]
    simp [Progress.stdout, Progress.stderr, none]

/-- The run goes on. -/
theorem Unasked.goesOn (unasked : seen.Unasked around artifact first a s)
    (ready : artifact.stage = .ready) (blank : artifact.report = none)
    (keeps : artifact.bindings.keepsProperties = true)
    (free : artifact.bindings.singleStep = false) (fresh : s.channel = .fresh)
    (turn : ProcessArtifact.Turn around a s (.went a' s')) :
    (seen.goOn a a').Unasked around artifact first a' s' ∧ s'.channel = .fresh := by
  cases unasked with
  | ready same isBlank passed =>
    subst same isBlank
    obtain ⟨rfl, program, rfl⟩ := turn.begins ready
    have quiet : a.news { a with stage := .live (a.opened program) } = [] := by
      rw [ProcessArtifact.news, ready]
    have begun := @Hearing.Attends.of_started around first (({} : Seen).hearing a s') program blank rfl
      rfl passed
    rw [← Hearing.went_of_quiet quiet] at begun
    refine ⟨.live begun (.begun ?_) rfl rfl, fresh⟩
    simp only [ProcessArtifact.opened, Host.start, hearing, free]
  | live attends opens told status =>
    obtain ⟨r', stage, host⟩ := turn.host attends.stage
    obtain ⟨opens', fresh'⟩ : r'.host.Opens artifact.bindings.settings ∧ s'.channel = .fresh := by
      rcases host with ⟨same, channel⟩ | ⟨listening, step⟩
      · exact ⟨same ▸ opens, channel.trans fresh⟩
      · exact opens.step? (fresh ▸ step)
    have sound := attends.goes keeps (turn.goes attends.stage rfl)
    cases sound with
    | ready same =>
      have isArtifact : a' = artifact := same
      cases stage.symm.trans (isArtifact ▸ ready)
    | returned isOver => cases stage.symm.trans isOver
    | live attends' =>
      cases stage.symm.trans attends'.stage
      refine ⟨.live attends' opens' ?_ ?_, fresh'⟩ <;> simp only [goOn, stage]

/-- When the run returns, what was seen of its program says what comes of it. -/
theorem Unasked.ends (unasked : seen.Unasked around artifact first a s)
    (ready : artifact.stage = .ready) {e : RunEnding}
    (ended : a.advance around s = .ended a' s' e) :
    a'.stage = .over ∧ (∃ channel, s' = { s with channel := channel }) ∧
      ∃ outcome, e = .returned outcome ∧ ∀ status, seen.status = some status →
        seen.Comes around artifact first status s outcome a'.report := by
  cases unasked with
  | ready same blank passed =>
    subst same blank
    simp only [ProcessArtifact.advance, ready, ProcessArtifact.begin] at ended
    split at ended
    · cases ended
      exact ⟨rfl, ⟨_, rfl⟩, _, rfl, fun _ status => by cases status⟩
    · cases ended
  | live attends opens told status =>
    obtain ⟨status', isEnded, rfl, -, passed, rfl, isOver, report⟩ := attends.ends ended
    refine ⟨isOver, ⟨_, rfl⟩, _, rfl, fun given same => ?_⟩
    have isStatus : given = status' := by
      rw [status, Progress.status?, isEnded] at same
      exact (Option.some.inj same).symm
    subst isStatus
    exact ⟨told ▸ opens.written, rfl, passed, report⟩

end Seen
end SimWorkbench
