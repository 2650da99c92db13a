import SimWorkbench.Proofs.Control.Launching
import SimWorkbench.Proofs.Control.Teardown
import SimWorkbench.Proofs.Run.Unasked

/-!
# Runs that are left alone

Programs do anything at any time; so what an artifact does in its next step is not fixed by a kind, and
every step of a history may be one of another kind. On all histories a preparation makes a run that
knows only its descriptor, the settings and the observers. A run that is asked nothing, beside others
whose workers have ended, is changed by its own threads alone.
-/
namespace SimWorkbench

namespace ControlPoint

variable {α : Type}

/-- Whether the control thread asks something of a run or closes its output, now or next. -/
def asks : ControlPoint α → Bool
  | stopping | silencing _ | flushing | restoring | stepping | advancing _ => true
  | showing _ next | telling _ next => next.asks
  | _ => false

@[simp] theorem asks_afterFault (starting : Bool) (fault : ControlFault) :
    (Controller.afterFault starting fault : ControlPoint α).asks = false := by
  cases starting <;> rfl

end ControlPoint

namespace Controller

/-! ### Histories -/

/-- What some schedule of allowed events leads to on which the programs do anything. -/
inductive Lives (around : Surroundings) (workDir : Option Path) (here : Location)
    (allows : Controller ProcessArtifact → Event → Prop) :
    Controller ProcessArtifact → Controller ProcessArtifact → Prop where
  | refl (c : Controller ProcessArtifact) : Lives around workDir here allows c c
  | tail {kind : ArtifactKind ProcessArtifact} {c d e : Controller ProcessArtifact} {event : Event}
    (past : Lives around workDir here allows c d)
    (programs : ProcessArtifact.IsKind around workDir kind) (allowed : allows d event)
    (happened : d.happen? kind here event = some e) : Lives around workDir here allows c e

section Lives

variable {around : Surroundings} {workDir : Option Path} {here : Location}
  {allows : Controller ProcessArtifact → Event → Prop} {c d : Controller ProcessArtifact}

theorem Lives.invariant {P : Controller ProcessArtifact → Prop}
    (lives : Lives around workDir here allows c d) (first : P c)
    (kept : ∀ {kind : ArtifactKind ProcessArtifact} {c d : Controller ProcessArtifact} {event : Event},
      ProcessArtifact.IsKind around workDir kind → P c → allows c event →
        c.happen? kind here event = some d → P d) : P d := by
  induction lives with
  | refl => exact first
  | tail _ programs allowed happened ih => exact kept programs (ih first) allowed happened

theorem Lives.of_reaches (path : Reaches (ProcessArtifact.kind around workDir) here allows c d) :
    Lives around workDir here allows c d := by
  induction path with
  | refl => exact .refl _
  | tail _ allowed happened ih => exact ih.tail (ProcessArtifact.isKind around workDir) allowed happened

/-- What holds between two events, whatever the programs do. -/
structure Composed (c : Controller ProcessArtifact) : Prop where
  sound : c.Sound
  placed : c.Placed
  keeping : c.Keeping fun a => a.bindings.keepsProperties = true
  cleared : c.Cleared

theorem Composed.fresh (settings : RunSettings) (hasListener : Bool) {arena : Arena}
    (forest : arena.Forest) (files : FileTree) :
    (Controller.fresh settings hasListener arena files).Composed :=
  ⟨.fresh .., .fresh _ _ forest _, .fresh .., .fresh ..⟩

theorem Composed.happens {kind : ArtifactKind ProcessArtifact} {event : Event} (composed : c.Composed)
    (programs : ProcessArtifact.IsKind around workDir kind)
    (happened : c.happen? kind here event = some d) : d.Composed := by
  obtain ⟨sound, placed, keeping, cleared⟩ := composed
  obtain ⟨reports, behaves⟩ := programs.behaves
  have happens := happens_of_happen? happened
  exact ⟨sound.happens happens, placed.happens sound.numbered happens,
    keeping.happens behaves sound.numbered happens,
    cleared.happens sound placed behaves keeping happens⟩

theorem Lives.composed (lives : Lives around workDir here allows c d) (composed : c.Composed) :
    d.Composed :=
  lives.invariant composed fun programs composed _ happened => composed.happens programs happened

end Lives

/-! ### Runs that were forsaken -/

section Abandoned

variable {α : Type} {kind : ArtifactKind α} {here : Location} {c e : Controller α} {event : Event}

/-- Whether the workers of all runs that were forsaken have ended. -/
def Abandoned (c : Controller α) : Prop :=
  ∀ s ∈ c.strays, ∃ outcome report, s.worker = .ended outcome report

/-- Whether the worker of a run that was forsaken goes on is a matter of that worker alone. -/
theorem Abandoned.not_roams {s : Run α} (abandoned : c.Abandoned) (member : s ∈ c.strays) :
    s.worker ≠ .running := by
  intro running
  obtain ⟨_, _, ended⟩ := abandoned s member
  cases running.symm.trans ended

theorem Happens.abandoned (happens : Happens kind here c event e) (abandoned : c.Abandoned)
    (granted : ∀ cause, event ≠ .refusal cause) : e.Abandoned := by
  cases happens with
  | controls step => cases step <;> exact abandoned
  | works _ _ step => cases step <;> exact abandoned
  | tidies _ step => cases step <;> exact abandoned
  | roams member running => exact absurd running (abandoned.not_roams member)
  | refuses => exact absurd rfl (granted _)
  | _ => exact abandoned

end Abandoned

/-! ### Preparations -/

section Preparing

variable {around : Surroundings} {workDir : Option Path} {here : Location} {d : Descriptor}
  {first c e : Controller ProcessArtifact} {run : Run ProcessArtifact}
  {kind : ArtifactKind ProcessArtifact}

/-- Whether a run was made of a descriptor, by a controller in some state. -/
structure MadeBy (first : Controller ProcessArtifact) (workDir : Option Path) (d : Descriptor)
    (run : Run ProcessArtifact) : Prop where
  id : run.id = first.nextRun
  name : first.arena.classesDir.below? d.artifact = some run.name
  artifact : ∃ executable places, run.artifact =
    { ProcessArtifact.fresh executable places workDir with
      bindings := { settings := first.settings, handle := run.handle, observers := first.observers } }

/-- What the control thread has in hand when it prepares a descriptor, given the next number of a run
and the prepared run. -/
def Prepares (first : Controller ProcessArtifact) (workDir : Option Path) (d : Descriptor)
    (nextRun : Nat) (prepared : Option (Run ProcessArtifact)) : ControlPoint ProcessArtifact → Prop
  | .asking d' => d' = d ∧ nextRun = first.nextRun
  | .discarding d' starting => d' = d ∧ starting = false ∧ nextRun = first.nextRun
  | .resolving d' starting => d' = d ∧ starting = false ∧ nextRun = first.nextRun + 1
  | .loading _ starting id loaded _ => starting = false ∧ id = first.nextRun ∧
    first.arena.classesDir.below? d.artifact = some loaded.name
  | .binding _ starting id loaded artifact => starting = false ∧ id = first.nextRun ∧
    first.arena.classesDir.below? d.artifact = some loaded.name ∧
    ∃ executable places, artifact = .fresh executable places workDir
  | .abandoning starting _ _ => starting = false
  | .entering _ starting run => starting = false ∧ MadeBy first workDir d run
  | .showing _ next | .telling _ next => Prepares first workDir d nextRun prepared next
  | .answered .done => ∃ run, prepared = some run ∧ MadeBy first workDir d run
  | .answered (.failed _) => True
  | _ => False

/-- What holds while a descriptor is prepared. -/
structure Preparing (first : Controller ProcessArtifact) (workDir : Option Path) (d : Descriptor)
    (c : Controller ProcessArtifact) : Prop where
  free : c.guard = 0
  settings : c.settings = first.settings
  observers : c.observers = first.observers
  classesDir : c.arena.classesDir = first.arena.classesDir
  hand : Prepares first workDir d c.nextRun c.prepared c.control

/-- What is loaded is a program. -/
theorem fresh_of_load {files : FileTree} {loaded : LoadedArtifact} {places : List Path}
    {notes : List String} {artifact : ProcessArtifact}
    (programs : ProcessArtifact.IsKind around workDir kind)
    (done : kind.load files loaded places = (notes, .ok artifact)) :
    artifact = .fresh loaded.executable places workDir := by
  rw [programs.load] at done
  simp only [ProcessArtifact.kind, Prod.mk.injEq] at done
  split at done
  · exact (Except.ok.inj done.2).symm
  · cases done.2

theorem Preparing.controls (preparing : Preparing first workDir d c)
    (programs : ProcessArtifact.IsKind around workDir kind) (step : Controls kind here c e)
    (classesDir : e.arena.classesDir = c.arena.classesDir)
    (named : ∀ {d starting id loaded places}, c.control = .resolving d starting →
      e.control = .loading d starting id loaded places →
      c.arena.classesDir.below? d.artifact = some loaded.name) :
    Preparing first workDir d e := by
  obtain ⟨free, settings, observers, isDir, hand⟩ := preparing
  have isDir' := classesDir.trans isDir
  have goes : ∀ {p}, Prepares first workDir d c.nextRun c.prepared p →
      Preparing first workDir d (c.atPoint p) := fun hand => ⟨free, settings, observers, isDir, hand⟩
  cases step with
  | waits => exact goes hand
  | refuses point busy => omega
  | asks point =>
    rw [point] at hand
    exact goes ⟨hand.1, rfl, hand.2⟩
  | discards point | numbers point =>
    rw [point] at hand
    exact ⟨free, settings, observers, isDir', hand.1, hand.2.1, congrArg (· + 1) hand.2.2⟩
  | misses point =>
    rw [point] at hand
    obtain ⟨-, rfl, -⟩ := hand
    exact ⟨free, settings, observers, isDir', trivial⟩
  | resolves point =>
    rw [point] at hand
    obtain ⟨rfl, rfl, numbered⟩ := hand
    refine ⟨free, settings, observers, isDir', rfl, ?_, isDir ▸ named point rfl⟩
    rw [numbered, Nat.add_sub_cancel]
  | failsToLoad point =>
    rw [point] at hand
    exact ⟨free, settings, observers, isDir', hand.1⟩
  | loads point done =>
    rw [point] at hand
    exact ⟨free, settings, observers, isDir', hand.1, hand.2.1, hand.2.2, _, _,
      fresh_of_load programs done⟩
  | abandons point =>
    rw [point] at hand
    obtain rfl := hand
    exact ⟨free, settings, observers, isDir', trivial⟩
  | binds point =>
    rw [point] at hand
    obtain ⟨isCall, isNext, name, executable, places, rfl⟩ := hand
    refine ⟨free, settings, observers, isDir', isCall, isNext, name, executable, places, ?_⟩
    simp only [bound, programs.bind, ProcessArtifact.kind, bindings, settings, observers]
  | prepares point =>
    rw [point] at hand
    exact ⟨free, settings, observers, isDir', _, rfl, hand.2⟩
  | shows point | passes point | tells point =>
    rw [point] at hand
    exact ⟨free, settings, observers, isDir', hand⟩
  | entersToStart point =>
    rw [point] at hand
    cases hand.1
  | _ point =>
    rw [point] at hand
    exact hand.elim

/-- A preparation makes no thread. -/
theorem Preparing.granted {event : Event} (preparing : Preparing first workDir d c)
    (happens : Happens kind here c event e) (cause : String) : event ≠ .refusal cause := by
  rintro rfl
  have hand := preparing.hand
  cases happens with
  | refuses _ forsakes =>
    cases forsakes with
    | worker point | monitor point =>
      rw [point] at hand
      exact hand

theorem Preparing.happens {event : Event} (preparing : Preparing first workDir d c)
    (programs : ProcessArtifact.IsKind around workDir kind) (during : event.isDuring = true)
    (happened : c.happen? kind here event = some e) : Preparing first workDir d e := by
  have happens := happens_of_happen? happened
  have classesDir := happens.sameDirs.classesDir
  have granted := preparing.granted happens
  obtain ⟨free, settings, observers, isDir, hand⟩ := preparing
  cases happens with
  | controls step =>
    cases happened
    exact Preparing.controls ⟨free, settings, observers, isDir, hand⟩ programs step classesDir
      named_of_resolving
  | roams _ _ step => cases step <;> exact ⟨free, settings, observers, isDir, hand⟩
  | refuses => exact absurd rfl (granted _)
  | works _ _ step => cases step <;> exact ⟨free, settings, observers, isDir, hand⟩
  | tidies _ step =>
    cases step with
    | leaves => exact ⟨by simp [free], settings, observers, isDir, hand⟩
    | disposes => exact ⟨free, settings, observers, classesDir.trans isDir, hand⟩
    | _ => exact ⟨free, settings, observers, isDir, hand⟩
  | arena => exact ⟨free, settings, observers, classesDir.trans isDir, hand⟩
  | files => exact ⟨free, settings, observers, isDir, hand⟩
  | _ => cases during

/-- A preparation that succeeds makes a run of the descriptor. -/
theorem Lives.prepares (inactive : first.isActive = false)
    (abandoned : first.Abandoned)
    (lives : Lives around workDir here (fun _ event => event.isDuring = true)
      (first.begin (.prepare d)) c)
    (succeeded : c.control = .answered .done) :
    c.guard = 0 ∧ c.Abandoned ∧ ∃ run, c.prepared = some run ∧ MadeBy first workDir d run := by
  have free : first.guard = 0 := by simpa [isActive] using inactive
  obtain ⟨preparing, isAbandoned⟩ : Preparing first workDir d c ∧ c.Abandoned := by
    refine lives.invariant (P := fun c => Preparing first workDir d c ∧ c.Abandoned)
      ⟨⟨free, rfl, rfl, rfl, rfl, rfl⟩, abandoned⟩ fun programs kept during happened => ?_
    have happens := happens_of_happen? happened
    exact ⟨kept.1.happens programs during happened,
      happens.abandoned kept.2 (kept.1.granted happens)⟩
  have hand := preparing.hand
  rw [succeeded] at hand
  exact ⟨preparing.free, isAbandoned, hand⟩

end Preparing

/-! ### Runs that are left alone -/

section Alone

variable {α : Type} {kind : ArtifactKind α} {here : Location} {c e : Controller α} {id : Nat}
  {run r : Run α} {event : Event}

/-- Whether an event asks nothing of a run and refuses it no thread. -/
def Event.asksNothing : Event → Prop
  | .call k => k ≠ .stop ∧ k ≠ .step
  | .refusal _ => False
  | _ => True

theorem Event.asksNothing.granted {event : Event} (quiet : event.asksNothing) (cause : String) :
    event ≠ .refusal cause := by
  rintro rfl
  exact quiet

theorem Happens.asks (happens : Happens kind here c event e) (quiet : event.asksNothing)
    (calm : c.control.asks = false) : e.control.asks = false := by
  cases happens with
  | controls step => cases step <;> simp_all [ControlPoint.asks]
  | @begins call =>
    cases call with
    | stop => exact absurd rfl quiet.1
    | step => exact absurd rfl quiet.2
    | _ => rfl
  | works _ _ step => cases step <;> exact calm
  | tidies _ step => cases step <;> exact calm
  | roams _ _ step => cases step <;> exact calm
  | refuses => exact quiet.elim
  | givesUp | closes => rfl
  | _ => exact calm

/-- Whether the workers of all other runs have ended. -/
def Alone (c : Controller α) (id : Nat) : Prop :=
  ∀ s ∈ c.runs, s.id ≠ id → ∃ outcome report, s.worker = .ended outcome report

/-- Changes that take no worker on from its end leave a run alone. -/
theorem Alone.changes {f : Run α → Run α} {i : Nat} (alone : c.Alone id)
    (runs : e.runs = changed i f c.runs) (same : ∀ s, (f s).id = s.id)
    (ended : ∀ s ∈ c.runs, s.id = i → s.id ≠ id → (f s).worker = s.worker) : e.Alone id := by
  intro s hs other
  rw [runs] at hs
  rcases mem_changed.mp hs with ⟨hs, -⟩ | ⟨old, hold, isOwn, rfl⟩
  · exact alone s hs other
  · rw [same] at other
    rw [ended old hold isOwn other]
    exact alone old hold other

/-- What happens to a run that is left alone, apart from what its worker does: its threads are made,
and when its worker has ended its report is. -/
structure Rests (c : Controller α) (r : Run α) (e : Controller α) (r' : Run α) : Prop where
  member : r' ∈ e.runs
  marks : r'.marks = r.marks
  artifact : r'.artifact = r.artifact
  properties : r'.properties = r.properties
  worker : r'.worker = r.worker ∨ r.worker = .unborn ∧ r'.worker = .running
  going : (∀ outcome report, r.worker ≠ .ended outcome report) → r'.channel = r.channel ∧
    r'.report = r.report ∧ (c.sink.isOpen r.handle = true → e.sink.isOpen r.handle = true)
  report : r'.report = r.report ∨ ∃ outcome report, r.worker = .ended outcome report ∧
    r'.report = some ⟨r.id, r.name, outcome, report, r.properties⟩
  lines : e.sink.lines = c.sink.lines
  notices : e.notices = c.notices

theorem Rests.of_same (member : r ∈ c.runs) (runs : e.runs = c.runs)
    (lines : e.sink.lines = c.sink.lines) (notices : e.notices = c.notices)
    (writable : c.sink.isOpen r.handle = true → e.sink.isOpen r.handle = true) :
    Rests c r e r where
  member := runs ▸ member
  marks := rfl
  artifact := rfl
  properties := rfl
  worker := .inl rfl
  going _ := ⟨rfl, rfl, writable⟩
  report := .inl rfl
  lines := lines
  notices := notices

/-- A run that is launched has a greater number than all that were. -/
theorem Numbered.lt_of_launching (numbered : c.Numbered) (point : c.control = .launching run)
    (member : r ∈ c.runs) : r.id < run.id := by
  have increasing := numbered.increasing
  rw [Controller.ids, point] at increasing
  exact (List.pairwise_append.mp increasing).2.2 r.id
    (List.mem_append_left _ (List.mem_map_of_mem member)) run.id (by simp [ControlPoint.id?])

theorem Controls.rests (step : Controls kind here c e) (sound : c.Sound) (member : r ∈ c.runs)
    (alone : c.Alone r.id) (calm : c.control.asks = false) :
    (∃ s ∈ e.runs, r.id < s.id) ∨ ∃ r', Rests c r e r' ∧ e.Alone r.id := by
  have same : ∀ {e : Controller α}, e.runs = c.runs → e.sink.lines = c.sink.lines →
      e.notices = c.notices → (c.sink.isOpen r.handle = true → e.sink.isOpen r.handle = true) →
      ∃ r', Rests c r e r' ∧ e.Alone r.id := fun runs lines notices writable =>
    ⟨r, .of_same member runs lines notices writable, by rw [Alone, runs]; exact alone⟩
  cases step with
  | launches point => exact .inl ⟨_, by simp, sound.numbered.lt_of_launching point member⟩
  | spawnsWorker point =>
    -- A worker that is yet to be made is that of the run.
    obtain ⟨s, hs, rfl, -, unborn⟩ := sound.admitted.spawning _ true (by rw [point]; rfl)
    have own : s.id = r.id := by
      by_contra other
      obtain ⟨_, _, ended⟩ := alone s hs other
      rw [unborn.mp rfl] at ended
      cases ended
    obtain rfl := sound.numbered.eq_of_id hs member own
    refine .inr ⟨{ s with worker := .running },
      ⟨mem_changed.mpr (.inr ⟨s, hs, rfl, rfl⟩), rfl, rfl, rfl, .inr ⟨unborn.mp rfl, rfl⟩,
        fun _ => ⟨rfl, rfl, id⟩, .inl rfl, rfl, rfl⟩,
      alone.changes rfl (fun _ => rfl) fun _ _ isOwn other => absurd isOwn other⟩
  | @spawnsMonitor i point =>
    refine .inr ?_
    have alone' := alone.changes (e := (c.modifyRun i fun r => { r with monitor := .joining }).atPoint
      (.answered (.started i))) rfl (fun _ => rfl) fun _ _ _ _ => rfl
    by_cases isOwn : r.id = i
    · exact ⟨{ r with monitor := .joining },
        ⟨mem_changed.mpr (.inr ⟨r, member, isOwn, rfl⟩), rfl, rfl, rfl, .inl rfl,
          fun _ => ⟨rfl, rfl, id⟩, .inl rfl, rfl, rfl⟩, alone'⟩
    · exact ⟨r, ⟨mem_changed.mpr (.inl ⟨member, isOwn⟩), rfl, rfl, rfl, .inl rfl,
        fun _ => ⟨rfl, rfl, id⟩, .inl rfl, rfl, rfl⟩, alone'⟩
  | asksToStop point | turnsStepping point | advances point | silences point
  | silencesAgain point | silencesNothing point | flushes point =>
    rw [point] at calm
    cases calm
  | binds =>
    exact .inr (same rfl rfl rfl fun isOpen =>
      (c.sink.isOpen_session_of_lt (OutputSink.lt_of_isOpen isOpen)).trans isOpen)
  | _ => exact .inr (same rfl rfl rfl id)

theorem Tidies.rests {s : Run α} (step : Tidies here c s e) (sound : c.Sound) (hs : s ∈ c.runs)
    (member : r ∈ c.runs) (alone : c.Alone r.id) : ∃ r', Rests c r e r' ∧ e.Alone r.id := by
  have admitted := sound.admitted
  have lines : e.sink.lines = c.sink.lines := by cases step <;> rfl
  have notices : e.notices = c.notices := by cases step <;> rfl
  have alone' : e.Alone r.id := by
    cases step <;> exact alone.changes rfl (fun _ => rfl) fun _ _ _ _ => rfl
  by_cases isOwn : s.id = r.id
  · obtain rfl := sound.numbered.eq_of_id hs member isOwn
    have spent : ∃ outcome report, s.worker = .ended outcome report := by
      have ended := (admitted.orderly s hs).ended
      cases step with
      | joins _ spent => exact ⟨_, _, spent⟩
      | finishes point | releases point | releasesAgain point | flushes point | disposes point
      | reports point | clears point | clearsNothing point | looks point | looksAway point
      | shows point | passes point | tells point | leaves point | calls point | delivers point =>
        exact ended (by simp [point, MonitorPoint.rank])
    have rests : ∀ {f : Run α → Run α}, e.runs = changed s.id f c.runs →
        ((f s).marks = s.marks ∧ (f s).artifact = s.artifact ∧
          (f s).properties = s.properties ∧ (f s).worker = s.worker) →
        ((f s).report = s.report ∨ ∃ outcome report, s.worker = .ended outcome report ∧
          (f s).report = some ⟨s.id, s.name, outcome, report, s.properties⟩) →
        ∃ r', Rests c s e r' ∧ e.Alone s.id := by
      rintro f runs ⟨marks, artifact, properties, worker⟩ report
      obtain ⟨_, _, spent⟩ := spent
      exact ⟨f s, ⟨runs ▸ mem_changed.mpr (.inr ⟨s, hs, rfl, rfl⟩), marks, artifact, properties,
        .inl worker, fun going => absurd spent (going _ _), report, lines, notices⟩, alone'⟩
    cases step with
    | reports _ spent => exact rests rfl ⟨rfl, rfl, rfl, rfl⟩ (.inr ⟨_, _, spent, rfl⟩)
    | _ => exact rests rfl ⟨rfl, rfl, rfl, rfl⟩ (.inl rfl)
  · have kept : r ∈ e.runs := by
      cases step <;> exact mem_changed.mpr (.inl ⟨member, fun same => isOwn same.symm⟩)
    refine ⟨r, ⟨kept, rfl, rfl, rfl, .inl rfl, fun going => ⟨rfl, rfl, ?_⟩, .inl rfl, lines,
      notices⟩, alone'⟩
    -- As long as the run goes on, the sessions of all others are over.
    have present : ¬r.isOver := by
      intro isOver
      obtain ⟨_, _, ended⟩ := (admitted.orderly r member).ended (Nat.le_trans (by decide) isOver)
      exact going _ _ ended
    have spent : s.isOver := by
      by_contra isOn
      exact isOwn (admitted.unique s hs r member isOn present)
    obtain ⟨_, _, _, rfl⟩ := step.of_over spent
    exact id

/-- Whatever happens to a run that is left alone: its worker goes on, another run is launched, or it
rests. -/
theorem Happens.rests (happens : Happens kind here c event e) (sound : c.Sound)
    (member : r ∈ c.runs) (alone : c.Alone r.id) (calm : c.control.asks = false)
    (quiet : event.asksNothing) (abandoned : c.Abandoned) :
    (r.worker = .running ∧ Works kind c r e) ∨ (∃ s ∈ e.runs, r.id < s.id) ∨
      ∃ r', Rests c r e r' ∧ e.Alone r.id := by
  have same : ∀ {e : Controller α}, e.runs = c.runs → e.sink = c.sink → e.notices = c.notices →
      ∃ r', Rests c r e r' ∧ e.Alone r.id := fun runs sink notices =>
    ⟨r, .of_same member runs (congrArg _ sink) notices (by rw [sink]; exact id),
      by rw [Alone, runs]; exact alone⟩
  cases happens with
  | controls step => exact .inr (step.rests sound member alone calm)
  | tidies hs step => exact .inr (.inr (step.rests sound hs member alone))
  | @works e s hs running step =>
    have own : s.id = r.id := by
      by_contra other
      obtain ⟨_, _, ended⟩ := alone s hs other
      rw [running] at ended
      cases ended
    obtain rfl := sound.numbered.eq_of_id hs member own
    exact .inl ⟨running, step⟩
  | roams hs running => exact absurd running (abandoned.not_roams hs)
  | refuses => exact quiet.elim
  | _ => exact .inr (.inr (same rfl rfl rfl))

end Alone

end Controller
end SimWorkbench
