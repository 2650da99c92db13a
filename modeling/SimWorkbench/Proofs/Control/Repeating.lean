import SimWorkbench.Proofs.Control.Alone

/-!
# Runs do not depend on earlier ones

Whatever was prepared, run, stopped and stepped before: once no session is on, the preparation of a
descriptor makes a run that knows only the descriptor, the settings and the observers. Unless it is
asked for a stop or a step, its program is told what any other would be told, and what comes of it
follows from what the program does.
-/
namespace SimWorkbench

namespace Controller

/-! ### Runs of which nothing is asked -/

section Plays

variable {around : Surroundings} {workDir : Option Path} {here : Location}
  {b c e : Controller ProcessArtifact} {run r : Run ProcessArtifact} {first : Scene} {seen : Seen}
  {event : Event} {kind : ArtifactKind ProcessArtifact}

/-- What is seen of the program of a run when something happens. -/
def seenAfter (seen : Seen) : Option (Run ProcessArtifact) → Option (Run ProcessArtifact) → Seen
  | some r, some r' => seen.goOn r.artifact r'.artifact
  | _, _ => seen

/-- What some schedule leads to that asks nothing of a run, with what is seen of its program. -/
inductive Plays (around : Surroundings) (workDir : Option Path) (here : Location) (id : Nat)
    (b : Controller ProcessArtifact) : Seen → Controller ProcessArtifact → Prop where
  | start : Plays around workDir here id b {} b
  | goesOn {seen : Seen} {c e : Controller ProcessArtifact} {event : Event}
    {kind : ArtifactKind ProcessArtifact} (past : Plays around workDir here id b seen c)
    (programs : ProcessArtifact.IsKind around workDir kind) (quiet : event.asksNothing)
    (happened : c.happen? kind here event = some e) :
    Plays around workDir here id b (seenAfter seen (c.run? id) (e.run? id)) e

/-- Whether a run is of a program that was loaded and bound and has not begun. -/
structure Blank (run : Run ProcessArtifact) : Prop where
  ready : run.artifact.stage = .ready
  unreported : run.artifact.report = none
  keeps : run.artifact.bindings.keepsProperties = true
  free : run.artifact.bindings.singleStep = false
  handle : run.artifact.bindings.handle = run.handle

theorem MadeBy.blank {d : Descriptor} (made : MadeBy b workDir d run) : Blank run := by
  obtain ⟨-, -, executable, places, same⟩ := made
  constructor <;> rw [same] <;> rfl

/-- What holds of a run until its program has ended and all was heard. -/
structure Underway (around : Surroundings) (run : Run ProcessArtifact) (first : Scene) (seen : Seen)
    (c : Controller ProcessArtifact) (r : Run ProcessArtifact) : Prop where
  goes : ∀ outcome report, r.worker ≠ .ended outcome report
  fresh : r.channel = .fresh
  unreported : r.report = none
  writable : c.sink.isOpen run.handle = true
  adds : first.sink.Adds run.handle c.sink
  unasked : seen.Unasked around run.artifact first r.artifact (c.scene r)

/-- What holds of a run afterwards. -/
structure Finished (around : Surroundings) (run : Run ProcessArtifact) (first : Scene) (seen : Seen)
    (c : Controller ProcessArtifact) (r : Run ProcessArtifact) (outcome : Except Fault Unit)
    (path : Option Path) : Prop where
  ended : r.worker = .ended outcome path
  silent : r.artifact.stage = .over
  report : ∀ report, r.report = some report →
    report = ⟨run.id, run.name, outcome, path, r.properties⟩
  adds : first.sink.Adds run.handle c.sink
  comes : ∀ status, seen.status = some status → ∃ s : Scene,
    seen.Comes around run.artifact first status s outcome path ∧ s.sink.isOpen run.handle = true ∧
      s.sink.lines = c.sink.lines ∧ s.notices = c.notices ∧ s.properties = r.properties

/-- What holds of a prepared run that is started and of which nothing is asked. -/
inductive Phase (around : Surroundings) (run : Run ProcessArtifact) (first : Scene) (seen : Seen)
    (c : Controller ProcessArtifact) : Prop where
  | prepared (prepared : c.prepared = some run)
    (point : c.control = .admitting ∧ c.guard = 0 ∨ c.control = .taking) (blank : seen = {})
    (sink : c.sink = first.sink) (notices : c.notices = first.notices)
  | launching (point : c.control = .launching run) (blank : seen = {})
    (sink : c.sink = first.sink) (notices : c.notices = first.notices)
  | underway {r : Run ProcessArtifact} (member : r ∈ c.runs) (marks : r.marks = run.marks)
    (calm : c.control.asks = false) (alone : c.Alone run.id)
    (underway : Underway around run first seen c r)
  | finished {r : Run ProcessArtifact} {outcome : Except Fault Unit} {path : Option Path}
    (member : r ∈ c.runs) (marks : r.marks = run.marks) (calm : c.control.asks = false)
    (alone : c.Alone run.id) (finished : Finished around run first seen c r outcome path)
  | later {r : Run ProcessArtifact} (member : r ∈ c.runs) (greater : run.id < r.id)

/-- A run that rests goes on to be under way. -/
theorem Underway.rests {r' : Run ProcessArtifact} (underway : Underway around run first seen c r)
    (rests : Rests c r e r') (blank : Blank run) (marks : r.marks = run.marks) :
    Underway around run first seen e r' := by
  obtain ⟨goes, fresh, unreported, writable, adds, unasked⟩ := underway
  have handle : r.handle = run.handle := congrArg (·.2.2.2) marks
  obtain ⟨channel, report, isOpen⟩ := rests.going goes
  rw [handle] at isOpen
  refine ⟨?_, channel.trans fresh, report.trans unreported, isOpen writable,
    adds.trans (.of_eq rests.lines), ?_⟩
  · intro outcome path ended
    rcases rests.worker with same | ⟨-, running⟩
    · exact goes _ _ (same.symm.trans ended)
    · cases running.symm.trans ended
  · rw [rests.artifact]
    refine unasked.shares ⟨rests.properties, rests.notices, ?_, fun _ => ?_⟩
    · simp only [scene, OutputSink.through, rests.lines]
    · rw [blank.handle]
      exact writable

theorem Finished.rests {r' : Run ProcessArtifact} {outcome : Except Fault Unit} {path : Option Path}
    (finished : Finished around run first seen c r outcome path) (rests : Rests c r e r')
    (marks : r.marks = run.marks) : Finished around run first seen e r' outcome path := by
  obtain ⟨ended, silent, isReport, adds, comes⟩ := finished
  have id : r.id = run.id := congrArg Prod.fst marks
  have name : r.name = run.name := congrArg (·.2.2.1) marks
  refine ⟨?_, rests.artifact ▸ silent, fun report reported => ?_, adds.trans (.of_eq rests.lines),
    fun status same => ?_⟩
  · rcases rests.worker with same | ⟨unborn, -⟩
    · exact same.trans ended
    · cases unborn.symm.trans ended
  · rw [rests.properties]
    rcases rests.report with same | ⟨_, _, ended', made⟩
    · exact isReport report (same.symm.trans reported)
    · cases ended'.symm.trans ended
      rw [← Option.some.inj (made.symm.trans reported), id, name]
  · obtain ⟨s, comes, isOpen, lines, notices, properties⟩ := comes status same
    exact ⟨s, comes, isOpen, lines.trans rests.lines.symm, notices.trans rests.notices.symm,
      properties.trans rests.properties.symm⟩

/-- The worker of a run goes on. -/
theorem Underway.works (underway : Underway around run first seen c r) (blank : Blank run)
    (member : r ∈ c.runs) (programs : ProcessArtifact.IsKind around workDir kind)
    (step : Works kind c r e) :
    ∃ r' ∈ e.runs, r'.marks = r.marks ∧
      (Underway around run first (seen.goOn r.artifact r'.artifact) e r' ∨
        ∃ outcome path,
          Finished around run first (seen.goOn r.artifact r'.artifact) e r' outcome path) := by
  obtain ⟨goes, fresh, unreported, writable, adds, unasked⟩ := underway
  have handle : r.artifact.bindings.handle = run.handle := by rw [unasked.bindings, blank.handle]
  cases step with
  | @went artifact scene advanced =>
    have turn := advanced ▸ programs.advance r.artifact (c.scene r)
    obtain ⟨printed, accepting⟩ := turn.prints rfl
    rw [handle] at printed
    obtain ⟨unasked', fresh'⟩ :=
      unasked.goesOn blank.ready blank.unreported blank.keeps blank.free fresh turn
    refine ⟨_, mem_changed.mpr (.inr ⟨r, member, rfl, rfl⟩), rfl, .inl ⟨by simp, fresh', unreported,
      ?_, adds.trans printed, unasked'⟩⟩
    rw [OutputSink.isOpen, worked_sink, accepting]
    exact writable
  | @ended artifact scene ending advanced =>
    have returned := (advanced ▸ programs.advance r.artifact (c.scene r)).ends
    obtain ⟨isOver, ⟨channel, rfl⟩, outcome, rfl, comes⟩ := unasked.ends blank.ready returned
    have point : endPoint kind artifact (.returned outcome) = .ended outcome artifact.report := by
      rw [endPoint, programs.report?]
      rfl
    refine ⟨_, mem_changed.mpr (.inr ⟨r, member, rfl, rfl⟩), rfl,
      .inr ⟨outcome, artifact.report, point, isOver, fun report reported => ?_, adds, ?_⟩⟩
    · cases unreported.symm.trans reported
    · rw [seen.goOn_over _ isOver]
      exact fun status same => ⟨_, comes status same, writable, rfl, rfl, rfl⟩

/-- As long as no session is on, other threads only announce and deliver reports. -/
theorem Happens.waits {α : Type} {kind : ArtifactKind α} {c e : Controller α}
    (happens : Happens kind here c event e) (sound : c.Sound) (spent : ∀ r ∈ c.runs, r.isOver)
    (busy : c.idle = false) (quiet : event.asksNothing) (abandoned : c.Abandoned) :
    (event = .control ∧ Controls kind here c e) ∨
      (e.runs.map Run.id = c.runs.map Run.id ∧ e.control = c.control ∧ e.prepared = c.prepared ∧
        e.guard = c.guard ∧ e.sink = c.sink ∧ e.notices = c.notices) := by
  have ids := happens.ids
  cases happens with
  | roams hs running => exact absurd running (abandoned.not_roams hs)
  | refuses => exact quiet.elim
  | controls step => exact .inl ⟨rfl, step⟩
  | works hs running => exact absurd (spent _ hs) (sound.admitted.present hs running)
  | tidies hs step =>
    right
    have control : e.control = c.control := by cases step <;> rfl
    obtain ⟨runs, announcements, delivered, same⟩ := step.of_over (spent _ hs)
    refine ⟨ids.resolve_right ?_, control, ?_⟩
    · rintro (⟨_, point, -, next⟩ | ⟨_, refused⟩)
      · rw [control, point] at next
        cases next
      · cases refused
    · rw [same]
      exact ⟨rfl, rfl, rfl, rfl⟩
  | arena | files => exact .inr ⟨rfl, rfl, rfl, rfl, rfl, rfl⟩
  | begins idle | givesUp idle | closes idle | settings idle | observer idle =>
    cases idle.symm.trans busy

/-- A prepared run has a greater number than all that were started. -/
theorem Numbered.lt_of_prepared {α : Type} {c : Controller α} {run r : Run α} (numbered : c.Numbered)
    (prepared : c.prepared = some run) (member : r ∈ c.runs) : r.id < run.id := by
  have increasing := (List.pairwise_append.mp numbered.increasing).1
  rw [prepared] at increasing
  exact (List.pairwise_append.mp increasing).2.2 r.id (List.mem_map_of_mem member) run.id (by simp)

/-- Of a run that was not started, nothing is seen. -/
theorem seenAfter_of_less (less : ∀ r ∈ c.runs, r.id < run.id)
    (found : Option (Run ProcessArtifact)) : seenAfter seen (c.run? run.id) found = seen := by
  have unknown : c.run? run.id = none := by
    refine List.find?_eq_none.mpr fun r member => ?_
    simpa using Nat.ne_of_lt (less r member)
  rw [unknown]
  rfl

/-- A prepared run that is being started waits until the control thread takes it. -/
theorem Happens.phase_of_prepared (happens : Happens kind here c event e) (sound : c.Sound)
    (abandoned : c.Abandoned) (quiet : event.asksNothing) (prepared : c.prepared = some run)
    (point : c.control = .admitting ∧ c.guard = 0 ∨ c.control = .taking) (isBlank : seen = {})
    (sink : c.sink = first.sink) (notices : c.notices = first.notices) :
    Phase around run first seen e := by
  have busy : c.idle = false := by
    rcases point with ⟨point, -⟩ | point <;> simp [idle, point]
  have spent := sound.ready.prepared (by simp [prepared])
  rcases happens.waits sound spent busy quiet abandoned with
    ⟨-, step⟩ | ⟨-, control, prepared', guard, sink', notices'⟩
  · rcases point with ⟨point, free⟩ | point
    · cases step with
      | admits => exact .prepared prepared (.inr rfl) isBlank sink notices
      | rejects _ busy => exact absurd free busy
      | waits waits => simp [idle, point] at waits
      | _ point' => cases point.symm.trans point'
    · cases step with
      | takes _ prepared' =>
        cases prepared.symm.trans prepared'
        exact .launching rfl isBlank sink notices
      | prepareAgain _ unprepared | lacks _ unprepared => cases prepared.symm.trans unprepared
      | waits waits => simp [idle, point] at waits
      | _ point' => cases point.symm.trans point'
  · exact .prepared (prepared'.trans prepared) (by rw [control, guard]; exact point) isBlank
      (sink'.trans sink) (notices'.trans notices)

/-- A run that is being launched is alone when it is. -/
theorem Happens.phase_of_launching (happens : Happens kind here c event e) (composed : c.Composed)
    (abandoned : c.Abandoned) (quiet : event.asksNothing) (empty : first.properties = [])
    (point : c.control = .launching run) (isBlank : seen = {}) (sink : c.sink = first.sink)
    (notices : c.notices = first.notices) : Phase around run first seen e := by
  have sound := composed.sound
  have spent := (sound.admitted.control (by rw [point]; rfl)).2
  rcases happens.waits sound spent (by simp [idle, point]) quiet abandoned with
    ⟨-, step⟩ | ⟨-, control, -, -, sink', notices'⟩
  · cases step with
    | launches point' =>
      cases point.symm.trans point'
      have new := sound.unstarted.inHand run (by rw [point]; rfl)
      have writable := composed.cleared.writable run (.inr (by rw [point]; rfl))
      refine .underway (r := run) (by simp) rfl rfl (fun s hs other => ?_)
        ⟨by simp [new.worker], new.channel, new.report, writable, .of_eq (congrArg _ sink), ?_⟩
      · rcases List.mem_append.mp hs with hs | hs
        · exact (sound.admitted.orderly s hs).ended (Nat.le_trans (by decide) (spent s hs))
        · rw [List.mem_singleton.mp hs] at other
          exact absurd rfl other
      · exact .ready rfl isBlank ⟨⟨[], by simp [scene, sink, Heard.outputs], fun _ => rfl⟩,
          notices, new.properties.trans empty.symm⟩
    | waits waits => simp [idle, point] at waits
    | _ point' => cases point.symm.trans point'
  · exact .launching (control.trans point) isBlank (sink'.trans sink) (notices'.trans notices)

theorem Phase.happens (phase : Phase around run first seen c) (blank : Blank run)
    (empty : first.properties = []) (composed : c.Composed) (abandoned : c.Abandoned)
    (programs : ProcessArtifact.IsKind around workDir kind) (quiet : event.asksNothing)
    (happened : c.happen? kind here event = some e) :
    Phase around run first (seenAfter seen (c.run? run.id) (e.run? run.id)) e := by
  have sound := composed.sound
  have happens := happens_of_happen? happened
  have sound' := sound.happens happens
  -- Where a run is before and after, what is seen of its program is what is seen of them.
  have known : ∀ {r r' : Run ProcessArtifact}, r ∈ c.runs → r.id = run.id → r' ∈ e.runs →
      r'.id = run.id → seenAfter seen (c.run? run.id) (e.run? run.id) =
        seen.goOn r.artifact r'.artifact := by
    intro r r' hr same hr' same'
    rw [← same, sound.numbered.run?_of_mem hr, same.trans same'.symm,
      sound'.numbered.run?_of_mem hr']
    rfl
  cases phase with
  | prepared prepared point isBlank sink notices =>
    rw [seenAfter_of_less fun r => sound.numbered.lt_of_prepared prepared]
    exact happens.phase_of_prepared sound abandoned quiet prepared point isBlank sink notices
  | launching point isBlank sink notices =>
    rw [seenAfter_of_less fun r => sound.numbered.lt_of_launching point]
    exact happens.phase_of_launching composed abandoned quiet empty point isBlank sink notices
  | @underway r member marks calm alone underway =>
    have id : r.id = run.id := congrArg Prod.fst marks
    have calm' := happens.asks quiet calm
    rcases happens.rests sound member (id ▸ alone) calm quiet abandoned with
      ⟨running, step⟩ | ⟨s, hs, greater⟩ | ⟨r', rests, alone'⟩
    · obtain ⟨r', member', marks', goes⟩ := underway.works blank member programs step
      have id' : r'.id = run.id := (congrArg Prod.fst marks').trans id
      have alone' : e.Alone run.id := by
        cases step <;> exact alone.changes rfl (fun _ => rfl) fun _ _ isOwn other =>
          absurd (isOwn.trans id) other
      rw [known member id member' id']
      rcases goes with underway' | ⟨outcome, path, finished⟩
      · exact .underway member' (marks'.trans marks) calm' alone' underway'
      · exact .finished member' (marks'.trans marks) calm' alone' finished
    · exact .later hs (id ▸ greater)
    · have id' : r'.id = run.id := (congrArg Prod.fst rests.marks).trans id
      rw [known member id rests.member id', rests.artifact, underway.unasked.goOn_self blank.ready]
      exact .underway rests.member (rests.marks.trans marks) calm' (id ▸ alone')
        (underway.rests rests blank marks)
  | @finished r outcome path member marks calm alone finished =>
    have id : r.id = run.id := congrArg Prod.fst marks
    have calm' := happens.asks quiet calm
    rcases happens.rests sound member (id ▸ alone) calm quiet abandoned with
      ⟨running, -⟩ | ⟨s, hs, greater⟩ | ⟨r', rests, alone'⟩
    · cases running.symm.trans finished.ended
    · exact .later hs (id ▸ greater)
    · have id' : r'.id = run.id := (congrArg Prod.fst rests.marks).trans id
      rw [known member id rests.member id', rests.artifact, seen.goOn_over _ finished.silent]
      exact .finished rests.member (rests.marks.trans marks) calm' (id ▸ alone')
        (finished.rests rests marks)
  | later member greater =>
    obtain ⟨s, hs, marks⟩ := happens.kept quiet.granted member
    exact .later hs (Nat.lt_of_lt_of_eq greater (congrArg Prod.fst marks).symm)

/-- From a start on, a prepared run goes from phase to phase. -/
theorem Plays.phase (plays : Plays around workDir here run.id (b.begin .start) seen c)
    (composed : b.Composed) (abandoned : b.Abandoned) (idle : b.idle = true) (free : b.guard = 0)
    (prepared : b.prepared = some run) (blank : Blank run) :
    Phase around run (b.scene run) seen c ∧ c.Composed ∧ c.Abandoned := by
  have empty := (composed.sound.unstarted.prepared run prepared).properties
  induction plays with
  | start =>
    have began : b.happen? (ProcessArtifact.kind around workDir) here (.call .start) =
        some (b.begin .start) := if_pos idle
    exact ⟨.prepared prepared (.inl ⟨rfl, free⟩) rfl rfl rfl,
      composed.happens (ProcessArtifact.isKind around workDir) began, abandoned⟩
  | goesOn _ programs quiet happened ih =>
    obtain ⟨phase, composed, abandoned⟩ := ih
    exact ⟨phase.happens blank empty composed abandoned programs quiet happened,
      composed.happens programs happened,
      (happens_of_happen? happened).abandoned abandoned quiet.granted⟩

end Plays

/-- What observers were told since some time, the oldest first. -/
def noticesSince (first c : Controller ProcessArtifact) : List (String × PropertyChange) :=
  (c.notices.take (c.notices.length - first.notices.length)).reverse

/-- A performance of a descriptor: on a controller on which anything happened, no session is on and no
worker was left to itself, it is prepared and a run is started. The run is asked for no stop and no step
and is refused no thread, its program ends with a status, the run is reported, and no other has been
launched since. -/
structure Performance (around : Surroundings) (workDir : Option Path) (here : Location)
    (classesDir : Path) (settings : RunSettings) (observers : List String) (d : Descriptor) where
  first : Controller ProcessArtifact
  before : Controller ProcessArtifact
  called : Controller ProcessArtifact
  last : Controller ProcessArtifact
  seen : Seen
  status : ExitStatus
  report : RunReport
  isFirst : ∃ settings hasListener rootPaths scratchDir naming files,
    first = fresh settings hasListener (.fresh rootPaths classesDir scratchDir naming) files
  history : Lives around workDir here (fun _ _ => True) first before
  abandoned : before.Abandoned
  idle : before.idle = true
  inactive : before.isActive = false
  settings : before.settings = settings
  observers : before.observers = observers
  prepares : Lives around workDir here (fun _ event => event.isDuring = true)
    (before.begin (.prepare d)) called
  succeeded : called.control = .answered .done
  plays : Plays around workDir here before.nextRun (called.begin .start) seen last
  ended : seen.status = some status
  reported : ∃ run ∈ last.runs, run.id = before.nextRun ∧ run.report = some report
  latest : ∀ run ∈ last.runs, run.id ≤ before.nextRun

namespace Performance

variable {around : Surroundings} {workDir : Option Path} {here : Location} {classesDir : Path}
  {settings : RunSettings} {observers : List String} {d : Descriptor}

/-- The lines that the output got from the start on. -/
def lines (p : Performance around workDir here classesDir settings observers d) : List String :=
  p.called.sink.since p.last.sink

/-- What observers were told from the start on. -/
def notices (p : Performance around workDir here classesDir settings observers d) :
    List (String × PropertyChange) :=
  p.called.noticesSince p.last

/-- What comes of a performance follows from what its program did. -/
theorem comes (p : Performance around workDir here classesDir settings observers d) :
    p.seen.told <+: Host.opening settings ∧
    p.lines = Heard.outputs (Heard.events p.seen.printed) ∧
    p.notices = ((Heard.changes (Heard.events p.seen.printed)).flatMap fun c =>
      observers.map fun o => (o, c)) ∧
    classesDir.below? d.artifact = some p.report.artifact ∧
    p.report.outcome = Heard.verdict (Heard.events p.seen.printed) p.status
      (Text.Utf8.toStringLossy (p.seen.errors.drop (p.seen.errors.length - tailLimit))) ∧
    p.report.report = (Heard.reports (Heard.events p.seen.printed)).getLast?.map
      (workDir.getD around.here.path).join ∧
    p.report.properties = .ofChanges (Heard.changes (Heard.events p.seen.printed)) := by
  obtain ⟨first, before, called, last, seen, status, report,
    ⟨_, _, rootPaths, scratchDir, naming, _, rfl⟩, history, abandoned, idle, inactive, rfl, rfl,
    prepares, succeeded, plays, ended, ⟨r, member, isRun, reported⟩, latest⟩ := p
  have composed : before.Composed :=
    history.composed (.fresh _ _ (.fresh rootPaths classesDir scratchDir naming) _)
  have isDir : before.arena.classesDir = classesDir :=
    history.invariant (P := fun c => c.arena.classesDir = classesDir) rfl
      fun _ same _ happened => (happens_of_happen? happened).sameDirs.classesDir.trans same
  obtain ⟨free, abandoned', run, prepared, made⟩ := prepares.prepares inactive abandoned succeeded
  have begun : before.happen? (ProcessArtifact.kind around workDir) here (.call (.prepare d)) =
      some (before.begin (.prepare d)) := if_pos idle
  have composed' : called.Composed :=
    prepares.composed (composed.happens (ProcessArtifact.isKind around workDir) begun)
  rw [← made.id] at plays
  obtain ⟨phase, composedLast, -⟩ := plays.phase composed' abandoned'
    (by rw [Controller.idle, succeeded]) free prepared made.blank
  have numbered := composedLast.sound.numbered
  have own : r.id = run.id := isRun.trans made.id.symm
  cases phase with
  | prepared isPrepared =>
    exact absurd own (Nat.ne_of_lt (numbered.lt_of_prepared isPrepared member))
  | launching point => exact absurd own (Nat.ne_of_lt (numbered.lt_of_launching point member))
  | later hs greater => exact absurd (latest _ hs) (by rw [← made.id]; omega)
  | underway hs marks _ _ underway =>
    have same := numbered.eq_of_id hs member ((congrArg Prod.fst marks).trans own.symm)
    cases underway.unreported.symm.trans (same ▸ reported)
  | @finished s outcome path hs marks _ _ finished =>
    obtain rfl := numbered.eq_of_id hs member ((congrArg Prod.fst marks).trans own.symm)
    obtain ⟨scene, comes, isOpen, lines, notices, properties⟩ := finished.comes status ended
    obtain ⟨told, isOutcome, passed, isReport⟩ := comes
    obtain rfl := finished.report report reported
    obtain ⟨-, name, executable, places, isArtifact⟩ := made
    rw [isArtifact] at told passed isReport
    have empty := (composed'.sound.unstarted.prepared run prepared).properties
    refine ⟨told, ?_, ?_, isDir ▸ name, isOutcome, isReport, ?_⟩
    · obtain ⟨dropped, all, none⟩ := passed.lines
      rw [none isOpen, List.append_nil] at all
      have through : scene.sink.through run.handle = last.sink.through run.handle := by
        rw [OutputSink.through, lines, OutputSink.through]
      exact (List.append_cancel_left (all.trans (through.trans finished.adds.through))).symm
    · have told := notices.symm.trans passed.notices
      simp [Performance.notices, noticesSince, told, Controller.scene]
    · exact properties.symm.trans (passed.properties.trans
        (congrArg (fun ps => List.foldl Properties.record ps _) empty))

/-- However many runs were prepared, stepped, stopped and broken off before: two performances of a
descriptor with the same settings and the same observers are alike if their programs print the same and
end with the same status. Both programs are told a beginning of what the settings say, the same if they
take as many commands; the output gets the same lines, observers are told the same, and what is reported
is the same. -/
theorem alike (p q : Performance around workDir here classesDir settings observers d)
    (printed : p.seen.printed = q.seen.printed) (errors : p.seen.errors = q.seen.errors)
    (status : p.status = q.status) :
    (p.seen.told <+: Host.opening settings ∧ q.seen.told <+: Host.opening settings ∧
      (p.seen.told.length = q.seen.told.length → p.seen.told = q.seen.told)) ∧
      p.notices = q.notices ∧ p.lines = q.lines ∧
      p.report.artifact = q.report.artifact ∧ p.report.outcome = q.report.outcome ∧
      p.report.report = q.report.report ∧ p.report.properties = q.report.properties := by
  obtain ⟨told, lines, notices, name, outcome, report, properties⟩ := p.comes
  obtain ⟨told', lines', notices', name', outcome', report', properties'⟩ := q.comes
  refine ⟨⟨told, told', fun same => ?_⟩, ?_, ?_, Option.some.inj (name.symm.trans name'), ?_, ?_, ?_⟩
  · rw [List.prefix_iff_eq_take.mp told, List.prefix_iff_eq_take.mp told', same]
  · rw [notices, notices', printed]
  · rw [lines, lines', printed]
  · rw [outcome, outcome', printed, errors, status]
  · rw [report, report', printed]
  · rw [properties, properties', printed]

end Performance

/-- The state after some events in turn, each with what the programs do then; none if one of them cannot
happen. -/
def livesOf? (here : Location) (c : Controller ProcessArtifact)
    (events : List (ArtifactKind ProcessArtifact × Event)) : Option (Controller ProcessArtifact) :=
  events.foldlM (fun c event => c.happen? event.1 here event.2) c

theorem Lives.of_livesOf? {around : Surroundings} {workDir : Option Path} {here : Location}
    {b c e : Controller ProcessArtifact} {events : List (ArtifactKind ProcessArtifact × Event)}
    (lives : Lives around workDir here (fun _ _ => True) b c)
    (allowed : ∀ event ∈ events, ProcessArtifact.IsKind around workDir event.1)
    (happened : livesOf? here c events = some e) :
    Lives around workDir here (fun _ _ => True) b e := by
  induction events generalizing c with
  | nil =>
    cases happened
    exact lives
  | cons event rest ih =>
    obtain ⟨next, isNext, happened⟩ := Option.bind_eq_some_iff.mp happened
    exact ih (lives.tail (allowed event List.mem_cons_self) trivial isNext)
      (fun other member => allowed other (List.mem_cons_of_mem _ member)) happened

/-- What is seen of the program of a run on some events in turn, each with what the programs do then,
and the state after them; none if one of them cannot happen. -/
def playsOf? (here : Location) (id : Nat) (seen : Seen) (c : Controller ProcessArtifact)
    (events : List (ArtifactKind ProcessArtifact × Event)) :
    Option (Seen × Controller ProcessArtifact) :=
  events.foldlM (fun s event => (s.2.happen? event.1 here event.2).map fun e =>
    (seenAfter s.1 (s.2.run? id) (e.run? id), e)) (seen, c)

theorem Plays.of_playsOf? {around : Surroundings} {workDir : Option Path} {here : Location} {id : Nat}
    {b c e : Controller ProcessArtifact} {seen seen' : Seen}
    {events : List (ArtifactKind ProcessArtifact × Event)}
    (plays : Plays around workDir here id b seen c)
    (allowed : ∀ event ∈ events,
      ProcessArtifact.IsKind around workDir event.1 ∧ event.2.asksNothing)
    (happened : playsOf? here id seen c events = some (seen', e)) :
    Plays around workDir here id b seen' e := by
  induction events generalizing seen c with
  | nil =>
    cases happened
    exact plays
  | cons event rest ih =>
    rw [playsOf?, List.foldlM_cons] at happened
    obtain ⟨⟨_, next⟩, head, happened⟩ := Option.bind_eq_some_iff.mp happened
    obtain ⟨_, isNext, ⟨⟩⟩ := Option.map_eq_some_iff.mp head
    obtain ⟨programs, quiet⟩ := allowed event List.mem_cons_self
    exact ih (plays.goesOn programs quiet isNext)
      (fun other member => allowed other (List.mem_cons_of_mem _ member)) happened

end Controller

namespace Rehearsal

/-- A controller whose stage holds an executable, with one who watches. -/
def attended : Controller ProcessArtifact :=
  .fresh {} true stageArena ⟨[(["b"], .directory), (["b", "sh"], .tool "sh"), (["c"], .directory),
    (["c", "a"], .file (Bytes.ofString "#!/b/sh\n") .program), (["s"], .directory)]⟩

abbrev Show : Type := Controller.Performance ⟨[], []⟩ none [] ⟨"/c"⟩ {} ["o"] staged

/-- Scripts that are carried out. -/
def scripted : ArtifactKind ProcessArtifact := ProcessArtifact.kind ⟨[], []⟩ none

/-- Programs that do nothing but take what is written to them, or have closed their input. -/
def hearing (listening : Bool) : ArtifactKind ProcessArtifact :=
  { scripted with
    advance := fun a s =>
      match a.stage with
      | .live r =>
        match r.host.step? s.channel listening with
        | some (host, channel) =>
          .went { a with stage := .live { r with host := host } } { s with channel := channel }
        | none => a.advance ⟨[], []⟩ s
      | _ => a.advance ⟨[], []⟩ s }

theorem isKind_hearing (listening : Bool) :
    ProcessArtifact.IsKind ⟨[], []⟩ none (hearing listening) := by
  refine ⟨rfl, rfl, rfl, rfl, fun a s => ?_⟩
  simp only [hearing]
  split
  case h_1 r live =>
    split
    case h_1 step => exact .speaks listening live step
    case h_2 => exact .advances rfl
  case h_2 => exact .advances rfl

/-- Programs that do some things in their next step. -/
def doing (progress : Progress) : ArtifactKind ProcessArtifact :=
  { scripted with
    advance := fun a s =>
      match a.stage with
      | .live r =>
        if r.progress.ending = .waiting then
          .went { a with stage := .live (r.notice s.files progress).1 } s
        else a.advance ⟨[], []⟩ s
      | _ => a.advance ⟨[], []⟩ s }

theorem isKind_doing (progress : Progress) : ProcessArtifact.IsKind ⟨[], []⟩ none (doing progress) := by
  refine ⟨rfl, rfl, rfl, rfl, fun a s => ?_⟩
  simp only [doing]
  split
  case h_1 r live =>
    split
    case isTrue running => exact .acts progress s.files live running
    case isFalse => exact .advances rfl
  case h_2 => exact .advances rfl

/-- What the programs print. -/
def shown : String := "hi\n@property p 0 1\n@done\n"

open Controller.Event in
/-- The program of a run prints that and ends, and the run is torn down in some steps. -/
def shows (run steps : Nat) : List (ArtifactKind ProcessArtifact × Controller.Event) :=
  (doing ⟨[.stdout shown.toList], .ended (.code 0)⟩, worker run) ::
    List.replicate 4 (scripted, worker run) ++ List.replicate steps (scripted, monitor run)

open Controller.Event in
/-- A run is started whose program takes the opening, or has closed its input when it comes. -/
def whole (listening : Bool) (run : Nat) : List (ArtifactKind ProcessArtifact × Controller.Event) :=
  List.replicate 8 (scripted, control) ++ (scripted, worker run) ::
    List.replicate (if listening then 7 else 3) (hearing listening, worker run) ++ shows run 12

theorem allowed_whole (listening : Bool) (run : Nat) : ∀ event ∈ whole listening run,
    ProcessArtifact.IsKind ⟨[], []⟩ none event.1 ∧ event.2.asksNothing := by
  have isKind : ProcessArtifact.IsKind ⟨[], []⟩ none scripted := ProcessArtifact.isKind _ _
  cases listening <;>
    simp [whole, shows, isKind, isKind_hearing, isKind_doing, Controller.Event.asksNothing]

open Controller.Event in
/-- A run is asked for a step before it is started, and to stop before its program was told to run. -/
def brokenOff : List (ArtifactKind ProcessArtifact × Controller.Event) :=
  (call (.prepare staged) :: List.replicate 7 control ++ call .step :: List.replicate 3 control ++
    call .start :: List.replicate 7 control ++ [worker 1]).map (scripted, ·) ++
    (hearing true, worker 1) :: (call .stop :: List.replicate 6 control).map (scripted, ·) ++
    List.replicate 6 (hearing true, worker 1) ++ shows 1 10

theorem allowed_brokenOff : ∀ event ∈ brokenOff,
    ProcessArtifact.IsKind ⟨[], []⟩ none event.1 := by
  have isKind : ProcessArtifact.IsKind ⟨[], []⟩ none scripted := ProcessArtifact.isKind _ _
  simp [brokenOff, shows, isKind, isKind_hearing, isKind_doing]

/-- Whether events after others perform a run with some number, which is told some commands. -/
def performs (history : List (ArtifactKind ProcessArtifact × Controller.Event)) (run : Nat)
    (events : List (ArtifactKind ProcessArtifact × Controller.Event)) (told : List Command) : Bool :=
  (Controller.livesOf? [] attended ((scripted, .observer "o") :: history)).any fun before =>
    decide (before.idle ∧ before.isActive = false ∧ before.settings = {} ∧
      before.observers = ["o"] ∧ before.nextRun = run) && before.strays.isEmpty &&
    let prepares := List.replicate 8 Controller.Event.control
    ((before.begin (.prepare staged)).after? scripted [] prepares).any fun called =>
      called.control.answer? == some .done &&
      (Controller.playsOf? [] run {} (called.begin .start) events).any fun s =>
        decide (s.1.status = some (.code 0) ∧ s.1.errors = [] ∧
          s.1.printed = Bytes.ofString shown ∧ s.1.told = told ∧ (∀ r ∈ s.2.runs, r.id ≤ run)) &&
        s.2.runs.any fun r => r.id == run && r.report.isSome

theorem exists_of_performs {history events : List (ArtifactKind ProcessArtifact × Controller.Event)}
    {run : Nat} {told : List Command}
    (past : ∀ event ∈ history, ProcessArtifact.IsKind ⟨[], []⟩ none event.1)
    (allowed : ∀ event ∈ events,
      ProcessArtifact.IsKind ⟨[], []⟩ none event.1 ∧ event.2.asksNothing)
    (performs : performs history run events told = true) : ∃ p : Show, p.before.nextRun = run ∧
      p.status = .code 0 ∧ p.seen.errors = [] ∧ p.seen.printed = Bytes.ofString shown ∧
      p.seen.told = told := by
  obtain ⟨before, lives, facts⟩ := (Option.any_eq_true _ _).mp performs
  rw [Bool.and_eq_true, Bool.and_eq_true, decide_eq_true_iff] at facts
  obtain ⟨⟨⟨idle, inactive, settings, observers, rfl⟩, alone⟩, facts⟩ := facts
  obtain ⟨called, prepares, facts⟩ := (Option.any_eq_true _ _).mp facts
  rw [Bool.and_eq_true, beq_iff_eq, ControlPoint.answer?_eq_some] at facts
  obtain ⟨answered, facts⟩ := facts
  obtain ⟨⟨seen, last⟩, plays, facts⟩ := (Option.any_eq_true _ _).mp facts
  rw [Bool.and_eq_true, decide_eq_true_iff, List.any_eq_true] at facts
  obtain ⟨⟨status, errors, printed, isTold, latest⟩, r, member, own⟩ := facts
  rw [Bool.and_eq_true, beq_iff_eq] at own
  obtain ⟨report, reported⟩ := Option.isSome_iff_exists.mp own.2
  exact ⟨{
    first := attended
    before := before
    called := called
    last := last
    seen := seen
    status := .code 0
    report := report
    isFirst := ⟨_, _, _, _, _, _, rfl⟩
    history := (Controller.Lives.refl attended).of_livesOf?
      (List.forall_mem_cons.mpr ⟨ProcessArtifact.isKind _ _, past⟩) lives
    abandoned := fun s member => by simp [List.isEmpty_iff.mp alone] at member
    idle := idle
    inactive := inactive
    settings := settings
    observers := observers
    prepares := .of_reaches
      (Controller.reaches_of_after? (by simp [Controller.Event.isDuring]) prepares)
    succeeded := answered
    plays := Controller.Plays.start.of_playsOf? allowed plays
    ended := status
    reported := ⟨r, member, own.1, reported⟩
    latest := latest }, rfl, rfl, errors, printed, isTold⟩

/-- A program that takes the opening can be the first one. -/
theorem performs_first : performs [] 1 (whole true 1) (Host.opening {}) = true := by decide +kernel

end Rehearsal

open Rehearsal in
/-- Programs do the same in the first run, and after a run that was asked for a step and to stop. -/
theorem Controller.Performance.alike_rehearsed : ∃ p q : Show,
    p.before.nextRun = 1 ∧ q.before.nextRun = 2 ∧ p.lines = ["hi"] ∧ p.seen.told = q.seen.told ∧
      p.notices = q.notices ∧ p.lines = q.lines ∧ p.report.artifact = q.report.artifact ∧
      p.report.outcome = q.report.outcome ∧ p.report.report = q.report.report ∧
      p.report.properties = q.report.properties := by
  have performed : performs brokenOff 2 (whole true 2) (Host.opening {}) = true := by decide +kernel
  obtain ⟨p, isFirst, status, errors, printed, told⟩ :=
    exists_of_performs (List.forall_mem_nil _) (allowed_whole true 1) performs_first
  obtain ⟨q, isSecond, status', errors', printed', told'⟩ :=
    exists_of_performs allowed_brokenOff (allowed_whole true 2) performed
  obtain ⟨⟨-, -, same⟩, rest⟩ := p.alike q (printed.trans printed'.symm) (errors.trans errors'.symm)
    (status.trans status'.symm)
  refine ⟨p, q, isFirst, isSecond, ?_, same (by rw [told, told']), rest⟩
  rw [p.comes.2.1, printed]
  decide +kernel

namespace Rehearsal

/-- A script that takes the right to execute it away. -/
def disabling : String := "#!/b/sh\n/b/chmod -x /c/a\necho @done\n"

/-- A controller whose stage holds that script. -/
def disabled : Controller ProcessArtifact :=
  .fresh {} true stageArena ⟨[(["b"], .directory), (["b", "chmod"], .tool "chmod"),
    (["b", "sh"], .tool "sh"), (["c"], .directory),
    (["c", "a"], .file (Bytes.ofString disabling) .program), (["s"], .directory)]⟩

open Controller.Event in
/-- The script is prepared and started, and goes on until its run is reported; then all that again. -/
def repeated : List Controller.Event :=
  let start := call (.prepare staged) :: List.replicate 8 control ++
    call .start :: List.replicate 8 control
  start ++ List.replicate 6 (worker 1) ++ List.replicate 13 (monitor 1) ++
    start ++ worker 2 :: List.replicate 13 (monitor 2)

/-- Two programs that print the same and end alike are not told the same if one of them closes its
input. -/
theorem told_differs : ∃ p q : Show,
    p.seen.printed = q.seen.printed ∧ p.seen.errors = q.seen.errors ∧ p.status = q.status ∧
      p.seen.told = Host.opening {} ∧ q.seen.told = [] := by
  have performed : performs brokenOff 2 (whole false 2) [] = true := by decide +kernel
  obtain ⟨p, -, status, errors, printed, told⟩ :=
    exists_of_performs (List.forall_mem_nil _) (allowed_whole true 1) performs_first
  obtain ⟨q, -, status', errors', printed', told'⟩ :=
    exists_of_performs allowed_brokenOff (allowed_whole false 2) performed
  exact ⟨p, q, printed.trans printed'.symm, errors.trans errors'.symm, status.trans status'.symm, told,
    told'⟩

/-- A run can take from its executable the right to be executed. Then the next run of the same bytes is
prepared and started, and its process cannot be started. -/
theorem disabled_fails : ∃ c, Controller.Reaches scripted [] (fun _ _ => True) disabled c ∧
    c.files.get? ["c", "a"] = some (.file (Bytes.ofString disabling) .plain) ∧
    c.delivered.map RunReport.outcome = [.error (.io "failed to start /s/run-3-000000/a"
      "Permission denied (os error 13)"), .ok ()] := by
  have reported : ((disabled.after? scripted [] repeated).any fun c =>
      decide (c.files.get? ["c", "a"] = some (.file (Bytes.ofString disabling) .plain) ∧
        c.delivered.map RunReport.outcome = [.error (.io "failed to start /s/run-3-000000/a"
          "Permission denied (os error 13)"), .ok ()])) = true := by decide +kernel
  obtain ⟨c, happened, facts⟩ := (Option.any_eq_true _ _).mp reported
  exact ⟨c, Controller.reaches_of_after? (fun _ _ _ => trivial) happened, of_decide_eq_true facts⟩

end Rehearsal

open Rehearsal in
/-- Programs that print the same and end alike need not be told the same, and a run can keep the next
one from starting its process, though the bytes of the executable stay as they are. -/
theorem Controller.Performance.unlike :
    (∃ p q : Show, p.seen.printed = q.seen.printed ∧ p.seen.errors = q.seen.errors ∧
      p.status = q.status ∧ p.seen.told = Host.opening {} ∧ q.seen.told = []) ∧
    ∃ c, Controller.Reaches scripted [] (fun _ _ => True) disabled c ∧
      c.files.get? ["c", "a"] = some (.file (Bytes.ofString disabling) .plain) ∧
      c.delivered.map RunReport.outcome = [.error (.io "failed to start /s/run-3-000000/a"
        "Permission denied (os error 13)"), .ok ()] :=
  ⟨told_differs, disabled_fails⟩

end SimWorkbench
