import SimWorkbench.Proofs.Control.Activity
import SimWorkbench.Proofs.Run.Conduct

/-!
# What a run leaves

When a run is over, its monitor tears down what the run had, step by step. What was torn down stays
so, whatever other runs do and whoever else works on the arena; so whoever is told of the end of the
run finds all of it torn down.
-/
namespace SimWorkbench

variable {α : Type}

namespace Controller

variable {kind : ArtifactKind α} {here : Location} {c d : Controller α} {id : Nat} {run : Run α}
  {keeps : α → Prop} {reports : α → Scene → List PropertyChange}

/-! ### Contexts -/

/-- What holds of the contexts of runs between two events: they are run contexts as long as they are
there. -/
structure Placed (c : Controller α) : Prop where
  forest : c.arena.Forest
  runs : ∀ x ∈ c.contexts, c.arena.RunIfLive x

theorem Placed.fresh (settings : RunSettings) (hasListener : Bool) {arena : Arena}
    (forest : arena.Forest) (files : FileTree) :
    (fresh settings hasListener arena files : Controller α).Placed := by
  refine ⟨forest, ?_⟩
  simp [Controller.fresh, contexts, ControlPoint.context?]

theorem mem_contexts (member : run ∈ c.runs) : run.context ∈ c.contexts :=
  List.mem_append_left _ (List.mem_append_left _ (List.mem_map_of_mem member))

theorem Placed.happens {event : Event} (placed : c.Placed) (numbered : c.Numbered)
    (happens : Happens kind here c event d) : d.Placed := by
  have old : ∀ x ∈ c.contexts, d.arena.RunIfLive x := fun x member =>
    happens.follows.runIfLive (numbered.issued x member) (placed.runs x member)
  refine ⟨happens.forest placed.forest, fun x member => ?_⟩
  rcases happens.grows numbered.unprepared with passes | numbers | step
  · exact old x (passes.contexts.subset member)
  · obtain ⟨runs, unprepared, ⟨_, _, control⟩, -⟩ := numbers
    have isOld : x ∈ c.runs.map Run.context := by
      simpa [contexts, runs, unprepared, control, ControlPoint.context?] using member
    exact old x (List.mem_append_left _ (List.mem_append_left _ isOld))
  · obtain ⟨_, runs, prepared, -, ⟨_, _, loaded, _, control, context⟩, name, arena⟩ := step
    have isOld : x ∈ c.runs.map Run.context ++ c.prepared.toList.map Run.context ∨
        x = c.arena.createRun.2 := by
      simpa [contexts, runs, prepared, control, context, ControlPoint.context?, or_assoc] using member
    rcases isOld with isOld | rfl
    · exact old x (List.mem_append_left _ isOld)
    · have loading := c.arena.createRun.1.follows_load c.files here c.arena.createRun.2 name
      exact arena ▸ loading.runIfLive (Nat.lt_succ_self _) placed.forest.runIfLive_createRun

/-! ### Teardown -/

/-- What holds of a run between two events: what its monitor has torn down, and what it has told. -/
structure Tidied (c : Controller α) (r : Run α) : Prop where
  handle : r.handle < c.sink.accepting.length
  finished : 3 ≤ r.monitor.rank → r.channel.finished = true
  released : 4 ≤ r.monitor.rank → c.sink.isOpen r.handle = false
  disposed : 6 ≤ r.monitor.rank → c.arena.node? r.context = none
  unreported : r.monitor.rank ≤ 6 → r.report = none
  reported : 7 ≤ r.monitor.rank → ∃ outcome path, r.worker = .ended outcome path ∧
    r.report = some ⟨r.id, r.name, outcome, path, r.properties⟩
  announced : (c.announcements.filter fun a => a.run == r.id) =
    if 13 ≤ r.monitor.rank then r.report.toList else []
  delivered : (c.delivered.filter fun a => a.run == r.id) =
    if 14 ≤ r.monitor.rank then r.report.toList else []

/-- What other runs do, and whatever happens to the arena, undoes nothing. -/
theorem Tidied.others (tidied : c.Tidied run) (given : run.context.number < c.arena.next)
    (sink : c.sink.Follows d.sink) (arena : c.arena.Follows d.arena)
    (announcements : (d.announcements.filter fun a => a.run == run.id) =
      c.announcements.filter fun a => a.run == run.id)
    (delivered : (d.delivered.filter fun a => a.run == run.id) =
      c.delivered.filter fun a => a.run == run.id) : d.Tidied run where
  handle := Nat.lt_of_lt_of_le tidied.handle sink.handles
  finished := tidied.finished
  released high := sink.closed _ tidied.handle (tidied.released high)
  disposed high := arena.gone given (tidied.disposed high)
  unreported := tidied.unreported
  reported := tidied.reported
  announced := announcements.trans tidied.announced
  delivered := delivered.trans tidied.delivered

/-- The monitor passes a point at which it tears down nothing and tells nobody. -/
theorem Tidied.passes (tidied : c.Tidied run) {point : MonitorPoint}
    (same : ∀ k ∈ [3, 4, 6, 7, 13, 14], k ≤ point.rank ↔ k ≤ run.monitor.rank) :
    c.Tidied { run with monitor := point } := by
  have at3 := same 3 (by simp)
  have at4 := same 4 (by simp)
  have at6 := same 6 (by simp)
  have at7 := same 7 (by simp)
  have at13 := same 13 (by simp)
  have at14 := same 14 (by simp)
  exact {
    handle := tidied.handle
    finished := fun high => tidied.finished (at3.mp high)
    released := fun high => tidied.released (at4.mp high)
    disposed := fun high => tidied.disposed (at6.mp high)
    unreported := fun low => tidied.unreported (by simp only at low; omega)
    reported := fun high => tidied.reported (at7.mp high)
    announced := by simpa only [at13] using tidied.announced
    delivered := by simpa only [at14] using tidied.delivered }

/-- A new run holds all that is to be torn down, and nobody has been told of it. -/
theorem Tidied.of_new (new : run.IsNew) (handle : run.handle < c.sink.accepting.length)
    (announced : ∀ a ∈ c.announcements, a.run ≠ run.id)
    (delivered : ∀ a ∈ c.delivered, a.run ≠ run.id) : c.Tidied run := by
  have unborn : run.monitor.rank = 0 := by rw [new.monitor]; rfl
  have early : ∀ k, 1 ≤ k → ¬k ≤ run.monitor.rank := fun k positive => by omega
  refine ⟨handle, fun high => absurd high (early 3 (by decide)),
    fun high => absurd high (early 4 (by decide)), fun high => absurd high (early 6 (by decide)),
    fun _ => new.report, fun high => absurd high (early 7 (by decide)), ?_, ?_⟩
  · rw [if_neg (early 13 (by decide))]
    exact List.filter_eq_nil_iff.mpr fun a ha => by simpa using announced a ha
  · rw [if_neg (early 14 (by decide))]
    exact List.filter_eq_nil_iff.mpr fun a ha => by simpa using delivered a ha

/-- Before its monitor begins to tear down, a run may do what it likes. -/
theorem Tidied.early {s : Run α} (tidied : c.Tidied run) (old : run.monitor.rank ≤ 2)
    (new : s.monitor.rank ≤ 2) (id : s.id = run.id) (handle : s.handle = run.handle)
    (report : s.report = run.report) : c.Tidied s where
  handle := handle ▸ tidied.handle
  finished high := absurd high (by omega)
  released high := absurd high (by omega)
  disposed high := absurd high (by omega)
  unreported _ := report ▸ tidied.unreported (by omega)
  reported high := absurd high (by omega)
  announced := by
    rw [id, tidied.announced, if_neg (by omega), if_neg (by omega)]
  delivered := by
    rw [id, tidied.delivered, if_neg (by omega), if_neg (by omega)]

/-- A request to a run whose channel is closed has no effect. -/
theorem Tidied.asked (tidied : c.Tidied run) (signal : Signal) :
    c.Tidied { run with channel := run.channel.request signal } where
  handle := tidied.handle
  finished high := by
    have closed := tidied.finished high
    simpa [SignalChannel.request_of_finished closed] using closed
  released := tidied.released
  disposed := tidied.disposed
  unreported := tidied.unreported
  reported := tidied.reported
  announced := tidied.announced
  delivered := tidied.delivered

theorem Tidied.finishes (tidied : c.Tidied run) (point : run.monitor = .finishing) :
    c.Tidied { run with channel := run.channel.finish, monitor := .releasing } where
  handle := tidied.handle
  finished _ := rfl
  released high := absurd high (by simp [MonitorPoint.rank])
  disposed high := absurd high (by simp [MonitorPoint.rank])
  unreported _ := tidied.unreported (by rw [point]; decide)
  reported high := absurd high (by simp [MonitorPoint.rank])
  announced := tidied.announced.trans (by rw [point]; rfl)
  delivered := tidied.delivered.trans (by rw [point]; rfl)

theorem Tidied.releases {point : MonitorPoint} (tidied : c.Tidied run)
    (isHere : run.monitor = .releasing) (isNext : point = .flushing ∨ point = .disposing) :
    Tidied { c with sink := c.sink.close run.handle } { run with monitor := point } where
  handle := by simpa [OutputSink.close] using tidied.handle
  finished _ := tidied.finished (by rw [isHere]; decide)
  released _ := c.sink.isOpen_close_self run.handle
  disposed high := absurd high (by rcases isNext with rfl | rfl <;> simp [MonitorPoint.rank])
  unreported _ := tidied.unreported (by rw [isHere]; decide)
  reported high := absurd high (by rcases isNext with rfl | rfl <;> simp [MonitorPoint.rank])
  announced := tidied.announced.trans (by rw [isHere]; rcases isNext with rfl | rfl <;> rfl)
  delivered := tidied.delivered.trans (by rw [isHere]; rcases isNext with rfl | rfl <;> rfl)

theorem Tidied.disposes (tidied : c.Tidied run) (files : FileTree) {arena : Arena}
    (point : run.monitor = .disposing) (gone : arena.node? run.context = none) :
    (c.withArena files arena).Tidied { run with monitor := .reporting } where
  handle := tidied.handle
  finished _ := tidied.finished (by rw [point]; decide)
  released _ := tidied.released (by rw [point]; decide)
  disposed _ := gone
  unreported _ := tidied.unreported (by rw [point]; decide)
  reported high := absurd high (by simp [MonitorPoint.rank])
  announced := tidied.announced.trans (by rw [point]; rfl)
  delivered := tidied.delivered.trans (by rw [point]; rfl)

theorem Tidied.makesReport {outcome : Except Fault Unit} {path : Option Path} (tidied : c.Tidied run)
    (point : run.monitor = .reporting) (ended : run.worker = .ended outcome path) :
    c.Tidied { run with
      report := some ⟨run.id, run.name, outcome, path, run.properties⟩, monitor := .clearing } where
  handle := tidied.handle
  finished _ := tidied.finished (by rw [point]; decide)
  released _ := tidied.released (by rw [point]; decide)
  disposed _ := tidied.disposed (by rw [point]; decide)
  unreported low := absurd low (by simp [MonitorPoint.rank])
  reported _ := ⟨outcome, path, ended, rfl⟩
  announced := tidied.announced.trans (by rw [point]; rfl)
  delivered := tidied.delivered.trans (by rw [point]; rfl)

/-- The report of a run that has one is its own. -/
theorem Tidied.filter_report (tidied : c.Tidied run) (high : 7 ≤ run.monitor.rank) :
    (run.report.toList.filter fun a => a.run == run.id) = run.report.toList := by
  obtain ⟨outcome, path, -, report⟩ := tidied.reported high
  simp [report]

theorem Tidied.calls (tidied : c.Tidied run) (point : run.monitor = .calling) :
    Tidied { c with announcements := run.report.toList ++ c.announcements }
      { run with monitor := .delivering } where
  handle := tidied.handle
  finished _ := tidied.finished (by rw [point]; decide)
  released _ := tidied.released (by rw [point]; decide)
  disposed _ := tidied.disposed (by rw [point]; decide)
  unreported low := absurd low (by simp [MonitorPoint.rank])
  reported _ := tidied.reported (by rw [point]; decide)
  announced := by
    have none : (c.announcements.filter fun a => a.run == run.id) = [] :=
      tidied.announced.trans (by rw [point]; rfl)
    rw [List.filter_append, none, tidied.filter_report (by rw [point]; decide), List.append_nil]
    rfl
  delivered := tidied.delivered.trans (by rw [point]; rfl)

theorem Tidied.delivers (tidied : c.Tidied run) (point : run.monitor = .delivering) :
    Tidied { c with delivered := run.report.toList ++ c.delivered }
      { run with monitor := .gone } where
  handle := tidied.handle
  finished _ := tidied.finished (by rw [point]; decide)
  released _ := tidied.released (by rw [point]; decide)
  disposed _ := tidied.disposed (by rw [point]; decide)
  unreported low := absurd low (by simp [MonitorPoint.rank])
  reported _ := tidied.reported (by rw [point]; decide)
  announced := tidied.announced.trans (by rw [point]; rfl)
  delivered := by
    have none : (c.delivered.filter fun a => a.run == run.id) = [] :=
      tidied.delivered.trans (by rw [point]; rfl)
    rw [List.filter_append, none, tidied.filter_report (by rw [point]; decide), List.append_nil]
    rfl

/-- What a run has does not depend on the rest of the state. -/
theorem Tidied.congr (tidied : c.Tidied run) (sink : d.sink.accepting = c.sink.accepting)
    (arena : d.arena = c.arena) (announcements : d.announcements = c.announcements)
    (delivered : d.delivered = c.delivered) :
    d.Tidied run where
  handle := sink ▸ tidied.handle
  finished := tidied.finished
  released high := by rw [OutputSink.isOpen, sink]; exact tidied.released high
  disposed := arena ▸ tidied.disposed
  unreported := tidied.unreported
  reported := tidied.reported
  announced := announcements ▸ tidied.announced
  delivered := delivered ▸ tidied.delivered

/-- What a monitor does to its own run. -/
theorem Tidied.tidies (tidied : c.Tidied run) (forest : c.arena.Forest)
    (isRun : c.arena.RunIfLive run.context) (step : Tidies here c run d) :
    ∃ f : Run α → Run α, d.runs = changed run.id f c.runs ∧ d.Tidied (f run) := by
  cases step with
  | finishes point => exact ⟨_, rfl, (tidied.finishes point).congr rfl rfl rfl rfl⟩
  | releases point => exact ⟨_, rfl, (tidied.releases point (.inl rfl)).congr rfl rfl rfl rfl⟩
  | releasesAgain point => exact ⟨_, rfl, (tidied.releases point (.inr rfl)).congr rfl rfl rfl rfl⟩
  | disposes point =>
    have disposed := tidied.disposes (c.arena.dispose c.files here run.context).1 point
      (isRun.dispose forest c.files here)
    exact ⟨_, rfl, disposed.congr rfl rfl rfl rfl⟩
  | reports point ended => exact ⟨_, rfl, (tidied.makesReport point ended).congr rfl rfl rfl rfl⟩
  | calls point => exact ⟨_, rfl, (tidied.calls point).congr rfl rfl rfl rfl⟩
  | delivers point => exact ⟨_, rfl, (tidied.delivers point).congr rfl rfl rfl rfl⟩
  | joins point | flushes point | clears point | clearsNothing point | looks point | looksAway point
  | shows point | passes point | tells point | leaves point =>
    exact ⟨_, rfl, (tidied.passes (by rw [point]; decide)).congr rfl rfl rfl rfl⟩

/-! ### All runs -/

/-- All artifacts that were bound keep their properties. -/
structure Keeping (keeps : α → Prop) (c : Controller α) : Prop where
  runs : ∀ r ∈ c.runs, keeps r.artifact
  strays : ∀ r ∈ c.strays, keeps r.artifact
  prepared : ∀ run, c.IsPrepared run → keeps run.artifact

theorem Keeping.fresh (keeps : α → Prop) (settings : RunSettings) (hasListener : Bool)
    (arena : Arena) (files : FileTree) :
    (fresh settings hasListener arena files : Controller α).Keeping keeps := by
  constructor <;> simp [Controller.fresh, IsPrepared, ControlPoint.run?]

theorem forall_changed {f : Run α → Run α} {P : Run α → Prop} {runs : List (Run α)}
    (all : ∀ r ∈ runs, P r) (own : ∀ r ∈ runs, r.id = id → P (f r)) : ∀ s ∈ changed id f runs, P s := by
  intro s hs
  rcases mem_changed.mp hs with ⟨hs, -⟩ | ⟨r, hr, same, rfl⟩
  · exact all s hs
  · exact own r hr same

theorem Keeping.controls (keeping : c.Keeping keeps) (behaves : kind.Behaves keeps reports)
    (step : Controls kind here c d) : d.Keeping keeps := by
  obtain ⟨runs, strays, prepared⟩ := keeping
  refine ⟨?_, ?_, fun run is => ?_⟩
  · cases step with
    | launches point =>
      refine fun r hr => (List.mem_append.mp hr).elim (runs r) fun hr => ?_
      rw [List.mem_singleton.mp hr]
      exact prepared _ (.inr (by rw [point]; rfl))
    | spawnsWorker | spawnsMonitor | asksToStop | turnsStepping | advances =>
      exact forall_changed runs fun r hr _ => runs r hr
    | _ => exact runs
  · cases step <;> exact strays
  · rcases step.isPrepared is with was | ⟨-, -, _, _, _, rfl⟩ | ⟨old, isPrepared, rfl⟩
    · exact prepared run was
    · exact behaves.bind _ _ rfl
    · exact behaves.setSingleStep _ _ (prepared old (.inl isPrepared))

theorem Keeping.happens {event : Event} (keeping : c.Keeping keeps)
    (behaves : kind.Behaves keeps reports) (numbered : c.Numbered)
    (happens : Happens kind here c event d) : d.Keeping keeps := by
  have prepared : event ≠ .control → ∀ run, d.IsPrepared run → keeps run.artifact :=
    fun other run is => keeping.prepared run (happens.isPrepared other is)
  cases happens with
  | controls step => exact keeping.controls behaves step
  | works member _ step => cases step with
    | went advanced | ended advanced =>
      have kept := (behaves.advance _ _ _ _ (keeping.runs _ member) (by rw [advanced]; rfl)).1
      exact ⟨numbered.forall_changed member kept fun r hr _ => keeping.runs r hr, keeping.strays,
        keeping.prepared⟩
  | roams member _ step => cases step with
    | went advanced | ended advanced =>
      have kept := (behaves.advance _ _ _ _ (keeping.strays _ member) (by rw [advanced]; rfl)).1
      exact ⟨keeping.runs, forall_changed keeping.strays fun _ _ _ => kept, keeping.prepared⟩
  | tidies _ step =>
    cases step <;>
      exact ⟨forall_changed keeping.runs fun r hr _ => keeping.runs r hr, keeping.strays,
        keeping.prepared⟩
  | refuses member forsakes =>
    exact ⟨fun r hr => keeping.runs r (mem_without.mp hr).1,
      forsakes.forall_artifacts keeping.strays (keeping.runs _ member), prepared (nomatch ·)⟩
  | _ => exact ⟨keeping.runs, keeping.strays, prepared (nomatch ·)⟩

/-- Workers open no handle and close none. -/
theorem Works.accepting (step : Works kind c run d) (behaves : kind.Behaves keeps reports)
    (kept : keeps run.artifact) : d.sink.accepting = c.sink.accepting := by
  cases step with
  | went advanced | ended advanced =>
    exact (behaves.advance _ _ _ _ kept (by rw [advanced]; rfl)).2.accepting

theorem Roams.accepting (step : Roams kind c run d) (behaves : kind.Behaves keeps reports)
    (kept : keeps run.artifact) : d.sink.accepting = c.sink.accepting := by
  cases step with
  | went advanced | ended advanced =>
    exact (behaves.advance _ _ _ _ kept (by rw [advanced]; rfl)).2.accepting

theorem Happens.sink {event : Event} (happens : Happens kind here c event d)
    (behaves : kind.Behaves keeps reports) (keeping : c.Keeping keeps) :
    c.sink.Follows d.sink := by
  cases happens with
  | controls step => cases step with
    | binds => exact c.sink.follows_session
    | silences | silencesAgain => exact c.sink.follows_close _
    | flushes => exact c.sink.follows_flush
    | _ => exact .refl _
  | works member _ step =>
    exact .of_accepting (step.accepting behaves (keeping.runs _ member))
  | roams member _ step =>
    exact .of_accepting (step.accepting behaves (keeping.strays _ member))
  | tidies _ step => cases step with
    | releases | releasesAgain => exact c.sink.follows_close _
    | flushes => exact c.sink.follows_flush
    | _ => exact .refl _
  | _ => exact .refl _

/-- The output of the active run is closed only when no run is prepared. -/
theorem Sound.unprepared_of_silencing (sound : c.Sound) (point : c.control = .silencing id) :
    ¬c.IsPrepared run := by
  obtain ⟨-, context, active⟩ := sound.marked.locked id (by rw [point]; rfl)
  rcases sound.marked.unmarked id context active with unmarks | ⟨r, hr, -, -, low⟩
  · rw [point] at unmarks
    cases unmarks
  · exact sound.ready.unprepared hr (by rw [Run.isOver]; omega) run

/-- The control thread closes the output of no run that is prepared. -/
theorem Controls.writable (step : Controls kind here c d) (sound : c.Sound) (is : c.IsPrepared run)
    (isOpen : c.sink.isOpen run.handle = true) : d.sink.isOpen run.handle = true := by
  cases step with
  | binds => exact (c.sink.isOpen_session_of_lt (OutputSink.lt_of_isOpen isOpen)).trans isOpen
  | silences point | silencesAgain point => exact absurd is (sound.unprepared_of_silencing point)
  | _ => exact isOpen

/-- Whoever prepares a run gives it an open handle, and nobody closes that before the run is
launched. -/
theorem Happens.writable {event : Event} (happens : Happens kind here c event d)
    (behaves : kind.Behaves keeps reports) (keeping : c.Keeping keeps) (sound : c.Sound)
    (writable : ∀ run, c.IsPrepared run → c.sink.isOpen run.handle = true) :
    ∀ run, d.IsPrepared run → d.sink.isOpen run.handle = true := by
  intro run is
  have prepared := fun other => happens.isPrepared other is
  have was := fun other => writable run (prepared other)
  have same : ∀ {s : OutputSink}, s.accepting = c.sink.accepting → ∀ run, c.IsPrepared run →
      s.isOpen run.handle = true := fun accepting run is => by
    rw [OutputSink.isOpen, accepting]
    exact writable run is
  cases happens with
  | controls step =>
    rcases step.isPrepared is with was | ⟨-, session, _, _, _, rfl⟩ | ⟨old, isOld, rfl⟩
    · exact step.writable sound was (writable run was)
    · rw [session]
      exact c.sink.isOpen_session_self
    · have kept := step.writable sound (.inl isOld) (writable old (.inl isOld))
      exact kept
  | works member _ step =>
    exact same (step.accepting behaves (keeping.runs _ member)) run
      (prepared fun other => by cases other)
  | roams member _ step =>
    exact same (step.accepting behaves (keeping.strays _ member)) run
      (prepared fun other => by cases other)
  | @tidies _ tidied member step =>
    have prepared := step.isPrepared is
    cases step with
    | releases point | releasesAgain point =>
      have present : ¬tidied.isOver := by simp [Run.isOver, point, MonitorPoint.rank]
      exact absurd prepared (sound.ready.unprepared member present run)
    | _ => exact was fun other => by cases other
  | _ => exact was fun other => by cases other

/-- What holds of all runs between two events. -/
structure Cleared (c : Controller α) : Prop where
  tidied : ∀ r ∈ c.runs, c.Tidied r
  /-- The runs that were not started can write. -/
  writable : ∀ run, c.IsPrepared run → c.sink.isOpen run.handle = true
  announced : ∀ a ∈ c.announcements, ∃ r ∈ c.runs, r.id = a.run
  delivered : ∀ a ∈ c.delivered, ∃ r ∈ c.runs, r.id = a.run

theorem Cleared.fresh (settings : RunSettings) (hasListener : Bool) (arena : Arena)
    (files : FileTree) : (fresh settings hasListener arena files : Controller α).Cleared := by
  constructor <;> simp [Controller.fresh, IsPrepared, ControlPoint.run?]

/-- Nobody is told of anything. -/
theorem Cleared.goesOn (cleared : c.Cleared) (tidied : ∀ r ∈ d.runs, d.Tidied r)
    (kept : ∀ i, (∃ r ∈ c.runs, r.id = i) → ∃ r ∈ d.runs, r.id = i)
    (writable : ∀ run, d.IsPrepared run → d.sink.isOpen run.handle = true)
    (announcements : d.announcements = c.announcements) (delivered : d.delivered = c.delivered) :
    d.Cleared where
  tidied := tidied
  writable := writable
  announced a ha := kept _ (cleared.announced a (announcements ▸ ha))
  delivered a ha := kept _ (cleared.delivered a (delivered ▸ ha))

theorem Cleared.controls (cleared : c.Cleared) (sound : c.Sound) (step : Controls kind here c d)
    (sink : c.sink.Follows d.sink)
    (writable : ∀ run, d.IsPrepared run → d.sink.isOpen run.handle = true) : d.Cleared := by
  have numbered := sound.numbered
  have arena := (Happens.controls step).follows
  have kept := (Happens.controls step).kept_id (fun _ => by simp)
  have others : d.announcements = c.announcements → d.delivered = c.delivered →
      ∀ r ∈ c.runs, d.Tidied r := fun announcements delivered r hr =>
    (cleared.tidied r hr).others (numbered.issued _ (mem_contexts hr)) sink arena
      (by rw [announcements]) (by rw [delivered])
  cases step with
  | launches point =>
    have new := sound.unstarted.inHand _ (by rw [point]; rfl)
    have other := numbered.ne_of_launching point
    have given := OutputSink.lt_of_isOpen (cleared.writable _ (.inr (by rw [point]; rfl)))
    refine cleared.goesOn (fun r hr => ?_) kept writable rfl rfl
    rcases List.mem_append.mp hr with hr | hr
    · exact others rfl rfl r hr
    · rw [List.mem_singleton.mp hr]
      refine .of_new new given (fun a ha same => ?_) fun a ha same => ?_
      · obtain ⟨r, hr, is⟩ := cleared.announced a ha
        exact other r hr (is.trans same)
      · obtain ⟨r, hr, is⟩ := cleared.delivered a ha
        exact other r hr (is.trans same)
  | asksToStop | turnsStepping | advances =>
    exact cleared.goesOn (forall_changed (others rfl rfl) fun r hr _ => (others rfl rfl r hr).asked _)
      kept writable rfl rfl
  | spawnsWorker point | spawnsMonitor point =>
    obtain ⟨run, member, rfl, unborn, -⟩ := sound.admitted.spawning _ _ (by rw [point]; rfl)
    refine cleared.goesOn (numbered.forall_changed member ?_ fun r hr _ => others rfl rfl r hr)
      kept writable rfl rfl
    exact (others rfl rfl run member).early (by simp [unborn, MonitorPoint.rank])
      (by simp [unborn, MonitorPoint.rank]) rfl rfl rfl
  | _ => exact cleared.goesOn (others rfl rfl) kept writable rfl rfl

/-- What a monitor tells is about its own run. -/
theorem Tidies.mentions (step : Tidies here c run d) (tidied : c.Tidied run) :
    (∃ own : List RunReport, (∀ a ∈ own, a.run = run.id) ∧
      d.announcements = own ++ c.announcements) ∧
    ∃ own : List RunReport, (∀ a ∈ own, a.run = run.id) ∧ d.delivered = own ++ c.delivered := by
  have own : 7 ≤ run.monitor.rank → ∀ a ∈ run.report.toList, a.run = run.id := fun high a ha => by
    obtain ⟨outcome, path, -, report⟩ := tidied.reported high
    rw [report] at ha
    cases List.mem_singleton.mp ha
    rfl
  cases step with
  | calls point => exact ⟨⟨_, own (by rw [point]; decide), rfl⟩, ⟨[], by simp, rfl⟩⟩
  | delivers point => exact ⟨⟨[], by simp, rfl⟩, ⟨_, own (by rw [point]; decide), rfl⟩⟩
  | _ => exact ⟨⟨[], by simp, rfl⟩, ⟨[], by simp, rfl⟩⟩

theorem Cleared.tidies (cleared : c.Cleared) (numbered : c.Numbered) (placed : c.Placed)
    (member : run ∈ c.runs) (step : Tidies here c run d) (arena : c.arena.Follows d.arena)
    (sink : c.sink.Follows d.sink) (kept : ∀ i, (∃ r ∈ c.runs, r.id = i) → ∃ r ∈ d.runs, r.id = i)
    (writable : ∀ run, d.IsPrepared run → d.sink.isOpen run.handle = true) : d.Cleared := by
  have tidied := cleared.tidied run member
  obtain ⟨f, runs, own⟩ := tidied.tidies placed.forest (placed.runs _ (mem_contexts member)) step
  obtain ⟨⟨called, calledOwn, announcements⟩, ⟨yielded, yieldedOwn, delivered⟩⟩ :=
    step.mentions tidied
  -- What is told of one run is not told of another one.
  have filtered : ∀ (list old : List RunReport), (∀ a ∈ list, a.run = run.id) → ∀ i, i ≠ run.id →
      ((list ++ old).filter fun a => a.run == i) = old.filter fun a => a.run == i := by
    intro list old all i other
    rw [List.filter_append, List.filter_eq_nil_iff.mpr fun a ha => ?_, List.nil_append]
    simpa [all a ha] using Ne.symm other
  have named : ∀ (list old : List RunReport), (∀ a ∈ list, a.run = run.id) →
      (∀ a ∈ old, ∃ r ∈ c.runs, r.id = a.run) → ∀ a ∈ list ++ old, ∃ r ∈ d.runs, r.id = a.run := by
    intro list old all known a ha
    refine kept a.run ?_
    rcases List.mem_append.mp ha with ha | ha
    · exact ⟨run, member, (all a ha).symm⟩
    · exact known a ha
  refine ⟨?_, writable, ?_, ?_⟩
  · rw [runs]
    refine numbered.forall_changed member own fun r hr other => ?_
    exact (cleared.tidied r hr).others (numbered.issued _ (mem_contexts hr)) sink arena
      (announcements ▸ filtered _ _ calledOwn _ other) (delivered ▸ filtered _ _ yieldedOwn _ other)
  · exact announcements ▸ named _ _ calledOwn cleared.announced
  · exact delivered ▸ named _ _ yieldedOwn cleared.delivered

/-- A run is forsaken before anybody is told of it. -/
theorem Cleared.forsaken {strays : List (Run α)} {fault : ThreadFault} (cleared : c.Cleared)
    (member : run ∈ c.runs) (unborn : run.monitor = .unborn)
    (writable : ∀ other, (c.forsaken run strays fault).IsPrepared other →
      c.sink.isOpen other.handle = true) : (c.forsaken run strays fault).Cleared := by
  have early : ∀ k, 1 ≤ k → ¬k ≤ run.monitor.rank := fun k positive => by
    rw [unborn, MonitorPoint.rank]
    omega
  have tidied := cleared.tidied run member
  have announced := tidied.announced.trans (if_neg (early 13 (by decide)))
  have delivered := tidied.delivered.trans (if_neg (early 14 (by decide)))
  have stays : ∀ {told : List RunReport}, (told.filter fun a => a.run == run.id) = [] →
      (∀ a ∈ told, ∃ r ∈ c.runs, r.id = a.run) →
        ∀ a ∈ told, ∃ r ∈ without run.id c.runs, r.id = a.run := by
    intro told nothing known a ha
    obtain ⟨r, hr, is⟩ := known a ha
    have other : a.run ≠ run.id := by simpa using List.filter_eq_nil_iff.mp nothing a ha
    exact ⟨r, mem_without.mpr ⟨hr, is ▸ other⟩, is⟩
  exact ⟨fun r hr => (cleared.tidied r (mem_without.mp hr).1).congr rfl rfl rfl rfl, writable,
    stays announced cleared.announced, stays delivered cleared.delivered⟩

theorem Cleared.happens {event : Event} (cleared : c.Cleared) (sound : c.Sound) (placed : c.Placed)
    (behaves : kind.Behaves keeps reports) (keeping : c.Keeping keeps)
    (happens : Happens kind here c event d) : d.Cleared := by
  have numbered := sound.numbered
  have arena := happens.follows
  have sink := happens.sink behaves keeping
  have writable := happens.writable behaves keeping sound cleared.writable
  have kept := happens.kept_id
  have others : d.announcements = c.announcements → d.delivered = c.delivered →
      ∀ r ∈ c.runs, d.Tidied r := fun announcements delivered r hr =>
    (cleared.tidied r hr).others (numbered.issued _ (mem_contexts hr)) sink arena
      (by rw [announcements]) (by rw [delivered])
  cases happens with
  | controls step => exact cleared.controls sound step sink writable
  | works member running step =>
    have low : _ ≤ 2 := Nat.le_succ_of_le (sound.admitted.waits member running)
    cases step with
    | went | ended =>
      refine cleared.goesOn (numbered.forall_changed member ?_ fun r hr _ => others rfl rfl r hr)
        (kept fun _ => by simp) writable rfl rfl
      exact (others rfl rfl _ member).early low low rfl rfl rfl
  | tidies member step =>
    exact cleared.tidies numbered placed member step arena sink (kept fun _ => by simp) writable
  | refuses member forsakes =>
    exact cleared.forsaken member (sound.admitted.unborn_of_forsakes numbered member forsakes) writable
  | roams _ _ step =>
    cases step <;> exact cleared.goesOn (others rfl rfl) (kept fun _ => by simp) writable rfl rfl
  | _ => exact cleared.goesOn (others rfl rfl) (kept fun _ => by simp) writable rfl rfl

end Controller
end SimWorkbench
