import Mathlib.Tactic.Simps.Basic
import SimWorkbench.Control.Schedule
import SimWorkbench.Proofs.Context.Account

/-!
# What an event does

A worker's step changes its run and what the run sees; a monitor's step is one of a dozen. What the
control thread does in one step is read off where it is; what else it is about to do is its goal. No
event gives a run another number, context, name or handle, and none takes a run away but the refusal
of one of its threads.
-/
namespace SimWorkbench

variable {α : Type}

namespace MonitorPoint

/-- How far a monitor has come. -/
def rank : MonitorPoint → Nat
  | unborn => 0
  | joining => 1
  | finishing => 2
  | releasing => 3
  | flushing => 4
  | disposing => 5
  | reporting => 6
  | clearing => 7
  | looking => 8
  | showing => 9
  | telling => 10
  | leaving => 11
  | calling => 12
  | delivering => 13
  | gone => 14

end MonitorPoint

namespace ControlPoint

end ControlPoint

namespace Controller

variable {kind : ArtifactKind α} {here : Location} {c d : Controller α} {id : Nat} {run : Run α}

/-! ### Runs by their numbers -/

theorem mem_of_run? (found : c.run? id = some run) : run ∈ c.runs ∧ run.id = id := by
  have isId := List.find?_some found
  exact ⟨List.mem_of_find?_eq_some found, by simpa using isId⟩

/-- Some runs after a change of the one with a number. -/
def changed (id : Nat) (f : Run α → Run α) (runs : List (Run α)) : List (Run α) :=
  runs.map fun r => if r.id == id then f r else r

theorem mem_changed {f : Run α → Run α} {runs : List (Run α)} :
    run ∈ changed id f runs ↔
      (run ∈ runs ∧ run.id ≠ id) ∨ ∃ old ∈ runs, old.id = id ∧ run = f old := by
  simp only [changed, List.mem_map, beq_iff_eq]
  constructor
  · rintro ⟨old, member, rfl⟩
    by_cases isOwn : old.id = id
    · rw [if_pos isOwn]
      exact .inr ⟨old, member, isOwn, rfl⟩
    · rw [if_neg isOwn]
      exact .inl ⟨member, isOwn⟩
  · rintro (⟨member, other⟩ | ⟨old, member, isOwn, rfl⟩)
    · exact ⟨run, member, if_neg other⟩
    · exact ⟨old, member, if_pos isOwn⟩

/-- What a change leaves alone is the same of all runs. -/
theorem map_changed {β : Type} {f : Run α → Run α} {g : Run α → β} (same : ∀ r, g (f r) = g r)
    (runs : List (Run α)) : (changed id f runs).map g = runs.map g := by
  rw [changed, List.map_map]
  refine List.map_congr_left fun r _ => ?_
  by_cases isOwn : r.id = id <;> simp [isOwn, same]

theorem changed_id (id : Nat) (runs : List (Run α)) : changed id (fun r => r) runs = runs := by
  simp [changed]

/-- Some runs but the one with a number. -/
def without (id : Nat) (runs : List (Run α)) : List (Run α) := runs.filter fun r => r.id != id

@[simp] theorem mem_without {runs : List (Run α)} :
    run ∈ without id runs ↔ run ∈ runs ∧ run.id ≠ id := by
  simp [without]

theorem without_sublist (id : Nat) (runs : List (Run α)) : (without id runs).Sublist runs :=
  List.filter_sublist

/-! ### Parts that operations leave alone -/

/-- The state with other files and another arena. -/
@[simps]
def withArena (c : Controller α) (files : FileTree) (arena : Arena) : Controller α :=
  { c with files := files, arena := arena }

/-- The state with other runs. -/
@[simps]
def withRuns (c : Controller α) (runs : List (Run α)) : Controller α := { c with runs := runs }

/-- The state with other notes. -/
@[simps]
def withJournal (c : Controller α) (journal : List String) : Controller α :=
  { c with journal := journal }

/-- The state in which the listener was told other things. -/
@[simps]
def withTold (c : Controller α) (told : List Transport) : Controller α := { c with told := told }

/-- The state with other settings and observers for later runs. -/
@[simps]
def withBindings (c : Controller α) (settings : RunSettings) (observers : List String) :
    Controller α :=
  { c with settings := settings, observers := observers }

/-- The state when the control thread has got to some point. -/
@[simps]
def atPoint (c : Controller α) (p : ControlPoint α) : Controller α := { c with control := p }

@[simp] theorem modifyRun_eq (c : Controller α) (id : Nat) (f : Run α → Run α) :
    c.modifyRun id f = c.withRuns (changed id f c.runs) := rfl

@[simp] theorem noteAll_eq (c : Controller α) (notes : List String) :
    c.noteAll notes = c.withJournal (notes.reverse ++ c.journal) := rfl

/-- What the listener was told after it is told of a state, if there is a listener. -/
def toldOf (c : Controller α) (state : Transport) : List Transport :=
  if c.hasListener then state :: c.told else c.told

theorem tell_eq (c : Controller α) (state : Transport) :
    c.tell state = c.withTold (c.toldOf state) := by
  rw [tell, toldOf]
  split <;> rfl

@[simp] theorem dispose_eq (c : Controller α) (here : Location) (context : ContextId) :
    c.dispose here context = c.withArena (c.arena.dispose c.files here context).1
      (c.arena.dispose c.files here context).2.1 := rfl

/-! ### Steps of workers and monitors -/

/-- The state after the worker of a run has brought it to some point. -/
@[simps]
def worked (c : Controller α) (id : Nat) (artifact : α) (scene : Scene) (worker : WorkerPoint) :
    Controller α :=
  { c with
    files := scene.files, sink := scene.sink, notices := scene.notices, journal := scene.journal
    runs := changed id (fun r => { r with
      artifact := artifact, channel := scene.channel, properties := scene.properties,
      worker := worker }) c.runs }

/-- The state after the worker of a run that was forsaken has brought it to some point. -/
@[simps]
def strayed (c : Controller α) (id : Nat) (artifact : α) (scene : Scene) (worker : WorkerPoint) :
    Controller α :=
  { c with
    files := scene.files, sink := scene.sink, notices := scene.notices, journal := scene.journal
    strays := changed id (fun r => { r with
      artifact := artifact, channel := scene.channel, properties := scene.properties,
      worker := worker }) c.strays }

/-- What the worker of a run can do in one step. -/
inductive Works (kind : ArtifactKind α) (c : Controller α) (run : Run α) : Controller α → Prop where
  | went {artifact : α} {scene : Scene}
    (advanced : kind.advance run.artifact (c.scene run) = .went artifact scene) :
    Works kind c run (c.worked run.id artifact scene .running)
  | ended {artifact : α} {scene : Scene} {ending : RunEnding}
    (advanced : kind.advance run.artifact (c.scene run) = .ended artifact scene ending) :
    Works kind c run (c.worked run.id artifact scene (endPoint kind artifact ending))

/-- What a worker that ends hands to the monitor. -/
theorem endPoint_eq (kind : ArtifactKind α) (artifact : α) (ending : RunEnding) :
    ∃ outcome report, endPoint kind artifact ending = .ended outcome report := by
  cases ending <;> exact ⟨_, _, rfl⟩

/-- A worker that goes on runs, and what it sees and what it comes to is what its artifact makes of
it. -/
theorem advance?_cases {change : Run α → Run α} (went : c.advance? kind run = some (d, change)) :
    run.worker = .running ∧ ∃ artifact scene worker, d = c.setScene scene ∧
      change = (fun r => { r with
        artifact := artifact, channel := scene.channel, properties := scene.properties,
        worker := worker }) ∧
      ((kind.advance run.artifact (c.scene run) = .went artifact scene ∧ worker = .running) ∨
        ∃ ending, kind.advance run.artifact (c.scene run) = .ended artifact scene ending ∧
          worker = endPoint kind artifact ending) := by
  unfold advance? at went
  cases point : run.worker with
  | unborn => simp [point] at went
  | ended outcome report => simp [point] at went
  | running =>
    refine ⟨rfl, ?_⟩
    cases advanced : kind.advance run.artifact (c.scene run) with
    | blocked => simp [point, advanced] at went
    | went artifact scene =>
      simp only [point, advanced, Option.some.injEq, Prod.mk.injEq] at went
      exact ⟨artifact, scene, .running, went.1.symm, went.2.symm, .inl ⟨rfl, rfl⟩⟩
    | ended artifact scene ending =>
      simp only [point, advanced, Option.some.injEq, Prod.mk.injEq] at went
      exact ⟨artifact, scene, _, went.1.symm, went.2.symm, .inr ⟨ending, rfl, rfl⟩⟩

theorem works_of_stepWorker? (happened : c.stepWorker? kind id = some d) :
    ∃ run ∈ c.runs, run.id = id ∧ run.worker = .running ∧ Works kind c run d := by
  obtain ⟨run, found, happened⟩ := Option.bind_eq_some_iff.mp happened
  obtain ⟨⟨seen, change⟩, went, happened⟩ := Option.bind_eq_some_iff.mp happened
  obtain ⟨member, rfl⟩ := mem_of_run? found
  obtain ⟨running, artifact, scene, worker, rfl, rfl, advanced⟩ := advance?_cases went
  cases happened
  refine ⟨run, member, rfl, running, ?_⟩
  rcases advanced with ⟨advanced, rfl⟩ | ⟨ending, advanced, rfl⟩
  · exact .went advanced
  · exact .ended advanced

/-- What the worker of a run that was forsaken can do in one step. -/
inductive Roams (kind : ArtifactKind α) (c : Controller α) (run : Run α) : Controller α → Prop where
  | went {artifact : α} {scene : Scene}
    (advanced : kind.advance run.artifact (c.scene run) = .went artifact scene) :
    Roams kind c run (c.strayed run.id artifact scene .running)
  | ended {artifact : α} {scene : Scene} {ending : RunEnding}
    (advanced : kind.advance run.artifact (c.scene run) = .ended artifact scene ending) :
    Roams kind c run (c.strayed run.id artifact scene (endPoint kind artifact ending))

theorem roams_of_stepStray? (happened : c.stepStray? kind id = some d) :
    ∃ run ∈ c.strays, run.id = id ∧ run.worker = .running ∧ Roams kind c run d := by
  obtain ⟨run, found, happened⟩ := Option.bind_eq_some_iff.mp happened
  obtain ⟨⟨seen, change⟩, went, happened⟩ := Option.bind_eq_some_iff.mp happened
  have isId : run.id = id := by simpa using List.find?_some found
  obtain ⟨running, artifact, scene, worker, rfl, rfl, advanced⟩ := advance?_cases went
  cases happened
  refine ⟨run, List.mem_of_find?_eq_some found, isId, running, ?_⟩
  subst isId
  rcases advanced with ⟨advanced, rfl⟩ | ⟨ending, advanced, rfl⟩
  · exact .went advanced
  · exact .ended advanced

/-- The state after the monitor of a run has gone to some point. -/
@[simps]
def moved (c : Controller α) (id : Nat) (point : MonitorPoint) : Controller α :=
  { c with runs := changed id (fun r => { r with monitor := point }) c.runs }

/-- What the monitor of a run can do in one step. -/
inductive Tidies (here : Location) (c : Controller α) (run : Run α) : Controller α → Prop where
  | joins {outcome : Except Fault Unit} {path : Option Path} (point : run.monitor = .joining)
    (spent : run.worker = .ended outcome path) : Tidies here c run (c.moved run.id .finishing)
  | finishes (point : run.monitor = .finishing) :
    Tidies here c run
      (c.modifyRun run.id fun r => { r with channel := r.channel.finish, monitor := .releasing })
  | releases (point : run.monitor = .releasing) (isOpen : c.sink.isOpen run.handle = true) :
    Tidies here c run (moved { c with sink := c.sink.close run.handle } run.id .flushing)
  | releasesAgain (point : run.monitor = .releasing) (closed : c.sink.isOpen run.handle = false) :
    Tidies here c run (moved { c with sink := c.sink.close run.handle } run.id .disposing)
  | flushes (point : run.monitor = .flushing) :
    Tidies here c run (moved { c with sink := c.sink.flush } run.id .disposing)
  | disposes (point : run.monitor = .disposing) :
    Tidies here c run ((c.dispose here run.context).moved run.id .reporting)
  | reports {outcome : Except Fault Unit} {path : Option Path} (point : run.monitor = .reporting)
    (spent : run.worker = .ended outcome path) :
    Tidies here c run (c.modifyRun run.id fun r =>
      { r with report := some ⟨run.id, run.name, outcome, path, run.properties⟩,
               monitor := .clearing })
  | clears {id : Nat} (point : run.monitor = .clearing) (unlocked : c.control.locksMark = false)
    (isOwn : c.active = some (id, run.context)) :
    Tidies here c run (moved { c with active := none } run.id .looking)
  | clearsNothing (point : run.monitor = .clearing) (unlocked : c.control.locksMark = false)
    (other : ∀ id, c.active ≠ some (id, run.context)) :
    Tidies here c run (c.moved run.id .looking)
  | looks (point : run.monitor = .looking) (activity : c.transport.showsActivity = true) :
    Tidies here c run (c.moved run.id .showing)
  | looksAway (point : run.monitor = .looking) (activity : c.transport.showsActivity = false) :
    Tidies here c run (c.moved run.id .leaving)
  | shows (point : run.monitor = .showing) (changed : c.transport ≠ .stopped) :
    Tidies here c run (moved { c with transport := .stopped } run.id .telling)
  | passes (point : run.monitor = .showing) (shown : c.transport = .stopped) :
    Tidies here c run (c.moved run.id .leaving)
  | tells (point : run.monitor = .telling) :
    Tidies here c run ((c.withTold (c.toldOf .stopped)).moved run.id .leaving)
  | leaves (point : run.monitor = .leaving) :
    Tidies here c run (moved { c with guard := c.guard - 1 } run.id .calling)
  | calls (point : run.monitor = .calling) :
    Tidies here c run (moved
      { c with announcements := run.report.toList ++ c.announcements } run.id .delivering)
  | delivers (point : run.monitor = .delivering) :
    Tidies here c run (moved { c with delivered := run.report.toList ++ c.delivered } run.id .gone)

theorem tidies_of_stepMonitor? (happened : c.stepMonitor? here id = some d) :
    ∃ run ∈ c.runs, run.id = id ∧ Tidies here c run d := by
  unfold stepMonitor? at happened
  cases found : c.run? id with
  | none => simp [found] at happened
  | some run =>
    obtain ⟨member, rfl⟩ := mem_of_run? found
    refine ⟨run, member, rfl, ?_⟩
    simp only [found, Option.bind_eq_bind, Option.bind_some] at happened
    cases point : run.monitor with
    | unborn => simp [point] at happened
    | gone => simp [point] at happened
    | joining =>
      cases spent : run.worker with
      | ended outcome path =>
        simp only [point, spent, Option.some.injEq] at happened
        exact happened ▸ .joins point spent
      | _ => simp [point, spent] at happened
    | reporting =>
      cases spent : run.worker with
      | ended outcome path =>
        simp only [point, spent, Option.some.injEq] at happened
        exact happened ▸ .reports point spent
      | _ => simp [point, spent] at happened
    | clearing =>
      by_cases locked : c.control.locksMark = true
      · simp [point, locked] at happened
      · simp only [point, if_neg locked, Option.some.injEq] at happened
        have unlocked : c.control.locksMark = false := by simpa using locked
        by_cases isOwn : (c.active.any fun a => a.2 == run.context) = true
        · rw [if_pos isOwn] at happened
          obtain ⟨⟨id, context⟩, active, same⟩ := Option.any_eq_true _ _ |>.mp isOwn
          obtain rfl : context = run.context := by simpa using same
          exact happened ▸ .clears point unlocked active
        · rw [if_neg isOwn] at happened
          exact happened ▸ .clearsNothing point unlocked fun id active => isOwn (by simp [active])
    | showing =>
      by_cases shown : c.transport = .stopped
      · simp only [point, show', if_pos shown, Option.some.injEq] at happened
        exact happened ▸ .passes point shown
      · simp only [point, show', if_neg shown, Option.some.injEq] at happened
        exact happened ▸ .shows point shown
    | finishing =>
      simp only [point, Option.some.injEq] at happened
      exact happened ▸ .finishes point
    | releasing =>
      simp only [point, Option.some.injEq] at happened
      by_cases isOpen : c.sink.isOpen run.handle = true
      · rw [if_pos isOpen] at happened
        exact happened ▸ .releases point isOpen
      · rw [if_neg isOpen] at happened
        exact happened ▸ .releasesAgain point (by simpa using isOpen)
    | flushing =>
      simp only [point, Option.some.injEq] at happened
      exact happened ▸ .flushes point
    | disposing =>
      simp only [point, Option.some.injEq] at happened
      exact happened ▸ .disposes point
    | looking =>
      simp only [point, Option.some.injEq] at happened
      by_cases activity : c.transport.showsActivity = true
      · rw [if_pos activity] at happened
        exact happened ▸ .looks point activity
      · rw [if_neg activity] at happened
        exact happened ▸ .looksAway point (by simpa using activity)
    | telling =>
      simp only [point, Option.some.injEq, tell_eq] at happened
      exact happened ▸ .tells point
    | leaving =>
      simp only [point, Option.some.injEq] at happened
      exact happened ▸ .leaves point
    | calling =>
      simp only [point, Option.some.injEq] at happened
      exact happened ▸ .calls point
    | delivering =>
      simp only [point, Option.some.injEq] at happened
      exact happened ▸ .delivers point

/-! ### Steps of the control thread -/

/-- All that resolving can come to: a new run context is taken away again, or it holds the
artifact. -/
theorem resolve_cases (c : Controller α) (here : Location) (descriptor : Descriptor) :
    (∃ files e, (files = c.files ∨ ∃ name,
        c.arena.createRun.1.load c.files here c.arena.createRun.2 name =
          (files, c.arena.createRun.1, .error e)) ∧
      c.resolve here descriptor =
        ((c.withArena files c.arena.createRun.1).dispose here c.arena.createRun.2, .error e)) ∨
    ∃ name files arena loaded,
      c.arena.createRun.1.load c.files here c.arena.createRun.2 name = (files, arena, .ok loaded) ∧
      loaded.context = c.arena.createRun.2 ∧ c.resolve here descriptor =
        (c.withArena files arena, .ok (loaded, arena.searchPath c.arena.createRun.2)) := by
  cases named : Controller.artifactName (c.withArena c.files c.arena.createRun.1) descriptor with
  | error e =>
    simp only [withArena] at named
    exact .inl ⟨c.files, e, .inl rfl, by simp only [resolve, named, withArena]⟩
  | ok name =>
    simp only [withArena] at named
    rcases c.arena.createRun.1.load_cases c.files here c.arena.createRun.2 name with
      ⟨e, refused⟩ | ⟨_, files, e, -, refused⟩ | ⟨_, _, files, _, _, -, -, -, done⟩
    · exact .inl ⟨c.files, e, .inl rfl, by simp only [resolve, named, refused, withArena]⟩
    · exact .inl ⟨files, e, .inr ⟨name, refused⟩, by simp only [resolve, named, refused, withArena]⟩
    · exact .inr ⟨name, files, _, _, done, rfl, by simp only [resolve, named, done, withArena]⟩

/-- The run that is made of an artifact when it is bound. -/
def bound (kind : ArtifactKind α) (c : Controller α) (id : Nat) (loaded : LoadedArtifact)
    (artifact : α) : Run α :=
  ⟨id, loaded.context, loaded.name, (kind.bind (c.bindings c.sink.session.2) artifact).2, .fresh,
    c.sink.session.2, [], .unborn, .unborn, none⟩

/-- What the control thread can do in one step. -/
inductive Controls (kind : ArtifactKind α) (here : Location) (c : Controller α) :
    Controller α → Prop where
  | waits (point : c.idle = true ∨ c.control = .closed) : Controls kind here c c
  | refuses {descriptor : Descriptor} (point : c.control = .asking descriptor)
    (busy : 0 < c.guard) :
    Controls kind here c (c.atPoint (.answered (.failed .sessionActive)))
  | asks {descriptor : Descriptor} (point : c.control = .asking descriptor) (free : c.guard = 0) :
    Controls kind here c (c.atPoint (.discarding descriptor false))
  | discards {descriptor : Descriptor} {starting : Bool} {run : Run α}
    (point : c.control = .discarding descriptor starting) (prepared : c.prepared = some run) :
    Controls kind here c (atPoint
      { c.dispose here run.context with prepared := none, nextRun := c.nextRun + 1 }
      (.resolving descriptor starting))
  | numbers {descriptor : Descriptor} {starting : Bool}
    (point : c.control = .discarding descriptor starting) (unprepared : c.prepared = none) :
    Controls kind here c
      (atPoint { c with nextRun := c.nextRun + 1 } (.resolving descriptor starting))
  | misses {descriptor : Descriptor} {starting : Bool} {files : FileTree} {e : ResolutionError}
    (point : c.control = .resolving descriptor starting)
    (tried : files = c.files ∨ ∃ name,
      c.arena.createRun.1.load c.files here c.arena.createRun.2 name =
        (files, c.arena.createRun.1, .error e)) :
    Controls kind here c (((c.withArena files c.arena.createRun.1).dispose here
      c.arena.createRun.2).atPoint (afterFault starting (.resolution e)))
  | resolves {descriptor : Descriptor} {starting : Bool} {name : Path} {files : FileTree}
    {arena : Arena} {loaded : LoadedArtifact} (point : c.control = .resolving descriptor starting)
    (done : c.arena.createRun.1.load c.files here c.arena.createRun.2 name =
      (files, arena, .ok loaded)) (context : loaded.context = c.arena.createRun.2) :
    Controls kind here c ((c.withArena files arena).atPoint
      (.loading descriptor starting (c.nextRun - 1) loaded
        (arena.searchPath c.arena.createRun.2)))
  | failsToLoad {descriptor : Descriptor} {starting : Bool} {id : Nat} {loaded : LoadedArtifact}
    {places : List Path} {notes : List String} {e : LoadFault}
    (point : c.control = .loading descriptor starting id loaded places)
    (refused : kind.load c.files loaded places = (notes, .error e)) :
    Controls kind here c ((c.noteAll notes).atPoint (.abandoning starting loaded.context (.load e)))
  | loads {descriptor : Descriptor} {starting : Bool} {id : Nat} {loaded : LoadedArtifact}
    {places : List Path} {notes : List String} {artifact : α}
    (point : c.control = .loading descriptor starting id loaded places)
    (done : kind.load c.files loaded places = (notes, .ok artifact)) :
    Controls kind here c ((c.noteAll notes).atPoint (.binding descriptor starting id loaded artifact))
  | abandons {starting : Bool} {context : ContextId} {fault : ControlFault}
    (point : c.control = .abandoning starting context fault) :
    Controls kind here c ((c.dispose here context).atPoint (afterFault starting fault))
  | binds {descriptor : Descriptor} {starting : Bool} {id : Nat} {loaded : LoadedArtifact}
    {artifact : α} (point : c.control = .binding descriptor starting id loaded artifact) :
    Controls kind here c ((noteAll { c with sink := c.sink.session.1 }
      (kind.bind (c.bindings c.sink.session.2) artifact).1).atPoint
      (.entering descriptor starting (bound kind c id loaded artifact)))
  | entersToStart {descriptor : Descriptor} {run : Run α}
    (point : c.control = .entering descriptor true run) :
    Controls kind here c (atPoint
      { c with arena := (c.arena.enter run.context).1, lastDescriptor := some descriptor }
      (.showing .rewound (.launching run)))
  | prepares {descriptor : Descriptor} {run : Run α}
    (point : c.control = .entering descriptor false run) :
    Controls kind here c (atPoint
      { c with arena := (c.arena.enter run.context).1, lastDescriptor := some descriptor,
               prepared := some run }
      (.showing .rewound (.answered .done)))
  | admits (point : c.control = .admitting) (free : c.guard = 0) :
    Controls kind here c (atPoint { c with guard := 1 } .taking)
  | rejects (point : c.control = .admitting) (busy : c.guard ≠ 0) :
    Controls kind here c (c.atPoint (.answered .rejected))
  | takes {run : Run α} (point : c.control = .taking) (prepared : c.prepared = some run) :
    Controls kind here c (atPoint { c with prepared := none } (.launching run))
  | prepareAgain {descriptor : Descriptor} (point : c.control = .taking)
    (unprepared : c.prepared = none) (last : c.lastDescriptor = some descriptor) :
    Controls kind here c (c.atPoint (.discarding descriptor true))
  | lacks (point : c.control = .taking) (unprepared : c.prepared = none) :
    Controls kind here c (c.atPoint (.givingBack .notPrepared))
  | launches {run : Run α} (point : c.control = .launching run) :
    Controls kind here c (atPoint
      { c with active := some (run.id, run.context), runs := c.runs ++ [run] }
      (.showing .running (.spawningWorker run.id)))
  | spawnsWorker {id : Nat} (point : c.control = .spawningWorker id) :
    Controls kind here c ((c.modifyRun id fun r => { r with worker := .running }).atPoint
      (.spawningMonitor id))
  | spawnsMonitor {id : Nat} (point : c.control = .spawningMonitor id) :
    Controls kind here c ((c.modifyRun id fun r => { r with monitor := .joining }).atPoint
      (.answered (.started id)))
  | unmarks {context : ContextId} {fault : ThreadFault}
    (point : c.control = .unmarking context fault) :
    Controls kind here c (atPoint { c with active := none } (.forsaking context fault))
  | forsakes {context : ContextId} {fault : ThreadFault}
    (point : c.control = .forsaking context fault) :
    Controls kind here c
      ((c.dispose here context).atPoint (.showing .stopped (.yielding fault)))
  | yields {fault : ThreadFault} (point : c.control = .yielding fault) :
    Controls kind here c (atPoint { c with guard := c.guard - 1 } (.refused fault))
  | givesBack {fault : ControlFault} (point : c.control = .givingBack fault) :
    Controls kind here c (atPoint { c with guard := c.guard - 1 } (.answered (.failed fault)))
  | asksToStop {id : Nat} {context : ContextId} (point : c.control = .stopping)
    (active : c.active = some (id, context)) :
    Controls kind here c ((c.modifyRun id fun r =>
      { r with channel := r.channel.request .stop }).atPoint (.silencing id))
  | stopsNothing (point : c.control = .stopping) (inactive : c.active = none) :
    Controls kind here c (c.atPoint .restoring)
  | silences {id : Nat} {run : Run α} (point : c.control = .silencing id)
    (found : c.run? id = some run) (isOpen : c.sink.isOpen run.handle = true) :
    Controls kind here c (atPoint { c with sink := c.sink.close run.handle } .flushing)
  | silencesAgain {id : Nat} {run : Run α} (point : c.control = .silencing id)
    (found : c.run? id = some run) (closed : c.sink.isOpen run.handle = false) :
    Controls kind here c (atPoint { c with sink := c.sink.close run.handle } .restoring)
  | silencesNothing {id : Nat} (point : c.control = .silencing id) (unknown : c.run? id = none) :
    Controls kind here c (c.atPoint .restoring)
  | flushes (point : c.control = .flushing) :
    Controls kind here c (atPoint { c with sink := c.sink.flush } .restoring)
  | restores (point : c.control = .restoring) :
    Controls kind here c (atPoint { c with arena := c.arena.restoreStage.1 }
      (.showing .stopped (.answered .done)))
  | turnsStepping {id : Nat} {context : ContextId} (point : c.control = .stepping)
    (active : c.active = some (id, context)) :
    Controls kind here c ((c.modifyRun id fun r =>
      { r with channel := r.channel.request (.singleStep true) }).atPoint (.advancing id))
  | setsStepping {run : Run α} (point : c.control = .stepping) (inactive : c.active = none)
    (prepared : c.prepared = some run) :
    Controls kind here c (atPoint { c.noteAll (kind.setSingleStep true run.artifact).1 with
        prepared := some { run with artifact := (kind.setSingleStep true run.artifact).2 } }
      (.showing .stepped (.answered .done)))
  | stepsNothing (point : c.control = .stepping) (inactive : c.active = none)
    (unprepared : c.prepared = none) :
    Controls kind here c (c.atPoint (.showing .stepped (.answered .done)))
  | advances {id : Nat} (point : c.control = .advancing id) :
    Controls kind here c ((c.modifyRun id fun r =>
      { r with channel := r.channel.request .step }).atPoint (.showing .stepped (.answered .done)))
  | shows {state : Transport} {next : ControlPoint α} (point : c.control = .showing state next)
    (changed : c.transport ≠ state) :
    Controls kind here c (atPoint { c with transport := state } (.telling state next))
  | passes {state : Transport} {next : ControlPoint α} (point : c.control = .showing state next)
    (shown : c.transport = state) : Controls kind here c (c.atPoint next)
  | tells {state : Transport} {next : ControlPoint α} (point : c.control = .telling state next) :
    Controls kind here c ((c.withTold (c.toldOf state)).atPoint next)

theorem controls_stepControl (kind : ArtifactKind α) (here : Location) (c : Controller α) :
    Controls kind here c (c.stepControl kind here) := by
  cases point : c.control with
  | answered answer =>
    rw [stepControl, point]
    exact .waits (.inl (by simp [idle, point]))
  | refused fault =>
    rw [stepControl, point]
    exact .waits (.inl (by simp [idle, point]))
  | closed =>
    rw [stepControl, point]
    exact .waits (.inr point)
  | asking descriptor =>
    rw [stepControl, point]
    by_cases busy : 0 < c.guard
    · simp only [isActive, busy, decide_true, if_true]
      exact .refuses point busy
    · simp only [isActive, busy, decide_false, Bool.false_eq_true, if_false]
      exact .asks point (by omega)
  | discarding descriptor starting =>
    rw [stepControl, point]
    cases prepared : c.prepared with
    | some run => exact .discards point prepared
    | none => exact .numbers point prepared
  | resolving descriptor starting =>
    rw [stepControl, point]
    rcases c.resolve_cases here descriptor with ⟨files, e, tried, missed⟩ |
      ⟨name, files, arena, loaded, done, context, resolved⟩
    · simp only [missed]
      exact .misses point tried
    · simp only [resolved]
      exact .resolves point done context
  | loading descriptor starting id loaded places =>
    rw [stepControl, point]
    rcases result : kind.load c.files loaded places with ⟨notes, e | artifact⟩
    · simp only [result]
      exact .failsToLoad point result
    · simp only [result]
      exact .loads point result
  | abandoning starting context fault =>
    rw [stepControl, point]
    exact .abandons point
  | binding descriptor starting id loaded artifact =>
    rw [stepControl, point]
    exact .binds point
  | entering descriptor starting run =>
    rw [stepControl, point]
    cases starting with
    | true => exact .entersToStart point
    | false => exact .prepares point
  | admitting =>
    rw [stepControl, point]
    by_cases free : c.guard = 0
    · simp only [free, if_true]
      exact .admits point free
    · simp only [free, if_false]
      exact .rejects point free
  | taking =>
    rw [stepControl, point]
    cases prepared : c.prepared with
    | some run => exact .takes point prepared
    | none =>
      cases last : c.lastDescriptor with
      | some descriptor => exact .prepareAgain point prepared last
      | none => exact .lacks point prepared
  | launching run =>
    rw [stepControl, point]
    exact .launches point
  | spawningWorker id =>
    rw [stepControl, point]
    exact .spawnsWorker point
  | spawningMonitor id =>
    rw [stepControl, point]
    exact .spawnsMonitor point
  | unmarking context fault =>
    rw [stepControl, point]
    exact .unmarks point
  | forsaking context fault =>
    rw [stepControl, point]
    exact .forsakes point
  | yielding fault =>
    rw [stepControl, point]
    exact .yields point
  | givingBack fault =>
    rw [stepControl, point]
    exact .givesBack point
  | stopping =>
    rw [stepControl, point]
    cases active : c.active with
    | some run => exact .asksToStop point active
    | none => exact .stopsNothing point active
  | silencing id =>
    rw [stepControl, point]
    cases found : c.run? id with
    | some run =>
      by_cases isOpen : c.sink.isOpen run.handle = true
      · simp only [found, isOpen, if_true]
        exact .silences point found isOpen
      · simp only [found, isOpen]
        exact .silencesAgain point found (by simpa using isOpen)
    | none =>
      simp only [found]
      exact .silencesNothing point found
  | flushing =>
    rw [stepControl, point]
    exact .flushes point
  | restoring =>
    rw [stepControl, point]
    exact .restores point
  | stepping =>
    rw [stepControl, point]
    cases active : c.active with
    | some run => exact .turnsStepping point active
    | none =>
      cases prepared : c.prepared with
      | some run => exact .setsStepping point active prepared
      | none => exact .stepsNothing point active prepared
  | advancing id =>
    rw [stepControl, point]
    exact .advances point
  | showing state next =>
    rw [stepControl, point]
    by_cases shown : c.transport = state
    · simp only [show', shown, if_true]
      exact shown ▸ .passes point shown
    · simp only [show', shown, if_false]
      exact .shows point shown
  | telling state next =>
    rw [stepControl, point]
    simp only [tell_eq]
    exact .tells point

/-! ### Runs that are forsaken -/

/-- The state in which a run is forsaken that was refused a thread. -/
@[simps]
def forsaken (c : Controller α) (run : Run α) (strays : List (Run α)) (fault : ThreadFault) :
    Controller α :=
  { c with
    runs := without run.id c.runs, strays := strays
    control := .unmarking run.context fault }

/-- Which thread was refused to the run that has just been launched, and which runs are stray ones from
then on: the run is one of them if it has a worker. -/
inductive Forsakes (c : Controller α) (run : Run α) : String → List (Run α) → Prop where
  | worker (point : c.control = .spawningWorker run.id) : Forsakes c run "worker" c.strays
  | monitor (point : c.control = .spawningMonitor run.id) :
    Forsakes c run "monitor" (c.strays ++ [{ run with channel := run.channel.request .stop }])

/-- A run that is forsaken keeps its artifact. -/
theorem Forsakes.forall_artifacts {P : α → Prop} {role : String} {strays : List (Run α)}
    (forsakes : Forsakes c run role strays) (others : ∀ r ∈ c.strays, P r.artifact)
    (own : P run.artifact) : ∀ r ∈ strays, P r.artifact := by
  cases forsakes with
  | worker => exact others
  | monitor =>
    refine fun r hr => (List.mem_append.mp hr).elim (others r) fun hr => ?_
    rw [List.mem_singleton.mp hr]
    exact own

/-- All that a refusal can come to. -/
theorem refuse?_cases {cause : String} (refused : c.refuse? cause = some d) :
    ∃ run ∈ c.runs, ∃ role strays, Forsakes c run role strays ∧
      d = c.forsaken run strays ⟨role, cause⟩ := by
  unfold refuse? at refused
  split at refused
  · obtain ⟨run, found, rfl⟩ := Option.map_eq_some_iff.mp refused
    obtain ⟨member, rfl⟩ := mem_of_run? found
    exact ⟨run, member, _, _, .worker ‹_›, rfl⟩
  · obtain ⟨run, found, rfl⟩ := Option.map_eq_some_iff.mp refused
    obtain ⟨member, rfl⟩ := mem_of_run? found
    exact ⟨run, member, _, _, .monitor ‹_›, rfl⟩
  · cases refused

/-! ### Events -/

/-- What an event can do. -/
inductive Happens (kind : ArtifactKind α) (here : Location) (c : Controller α) :
    Event → Controller α → Prop where
  | begins {call : Call} (idle : c.idle = true) :
    Happens kind here c (.call call) (c.atPoint call.entry)
  | controls {d : Controller α} (step : Controls kind here c d) : Happens kind here c .control d
  | works {d : Controller α} {run : Run α} (member : run ∈ c.runs) (running : run.worker = .running)
    (step : Works kind c run d) : Happens kind here c (.worker run.id) d
  | tidies {d : Controller α} {run : Run α} (member : run ∈ c.runs) (step : Tidies here c run d) :
    Happens kind here c (.monitor run.id) d
  | refuses {cause role : String} {run : Run α} {strays : List (Run α)} (member : run ∈ c.runs)
    (forsakes : Forsakes c run role strays) :
    Happens kind here c (.refusal cause) (c.forsaken run strays ⟨role, cause⟩)
  | roams {d : Controller α} {run : Run α} (member : run ∈ c.strays) (running : run.worker = .running)
    (step : Roams kind c run d) : Happens kind here c (.stray run.id) d
  | givesUp {run : Run α} (idle : c.idle = true) (prepared : c.prepared = some run) :
    Happens kind here c .close
      (atPoint { c.dispose here run.context with prepared := none } .closed)
  | closes (idle : c.idle = true) (unprepared : c.prepared = none) :
    Happens kind here c .close (c.atPoint .closed)
  | arena {call : ArenaCall} :
    Happens kind here c (.arena call) (c.withArena (c.arena.perform c.files here call).1
      (c.arena.perform c.files here call).2.1)
  | files {files : FileTree} : Happens kind here c (.files files) (c.withArena files c.arena)
  | settings {settings : RunSettings} (idle : c.idle = true) :
    Happens kind here c (.settings settings) (c.withBindings settings c.observers)
  | observer {name : String} (idle : c.idle = true) :
    Happens kind here c (.observer name) (c.withBindings c.settings (c.observers ++ [name]))

/-- Where the control thread waits for a call. -/
theorem answered_of_idle (idle : c.idle = true) :
    (∃ answer, c.control = .answered answer) ∨ ∃ fault, c.control = .refused fault := by
  unfold Controller.idle at idle
  split at idle
  · exact .inl ⟨_, ‹_›⟩
  · exact .inr ⟨_, ‹_›⟩
  · cases idle

/-- What is not so where the control thread waits is not so when it waits. -/
theorem of_idle {β : Type} {f : ControlPoint α → β} {b : β} (idle : c.idle = true)
    (answered : ∀ answer, f (.answered answer) = b) (refused : ∀ fault, f (.refused fault) = b) :
    f c.control = b := by
  rcases answered_of_idle idle with ⟨answer, point⟩ | ⟨fault, point⟩
  · rw [point, answered]
  · rw [point, refused]

theorem happens_of_happen? {event : Event} (happened : c.happen? kind here event = some d) :
    Happens kind here c event d := by
  cases event with
  | call call =>
    obtain ⟨idle, ⟨⟩⟩ := Option.ite_none_right_eq_some.mp happened
    exact .begins idle
  | control =>
    cases happened
    exact .controls (controls_stepControl kind here c)
  | worker id =>
    obtain ⟨run, member, rfl, running, step⟩ := works_of_stepWorker? happened
    exact .works member running step
  | monitor id =>
    obtain ⟨run, member, rfl, step⟩ := tidies_of_stepMonitor? happened
    exact .tidies member step
  | refusal cause =>
    obtain ⟨run, member, role, strays, forsakes, rfl⟩ := refuse?_cases happened
    exact .refuses member forsakes
  | stray id =>
    obtain ⟨run, member, rfl, running, step⟩ := roams_of_stepStray? happened
    exact .roams member running step
  | close =>
    obtain ⟨idle, ⟨⟩⟩ := Option.ite_none_right_eq_some.mp happened
    cases prepared : c.prepared with
    | some run =>
      simp only [close, prepared]
      exact .givesUp idle prepared
    | none =>
      have closed : c.close here = c.atPoint .closed := by simp only [close, prepared, atPoint]
      exact closed ▸ .closes idle prepared
  | arena call =>
    cases happened
    exact .arena
  | files files =>
    cases happened
    exact .files
  | settings settings =>
    obtain ⟨idle, ⟨⟩⟩ := Option.ite_none_right_eq_some.mp happened
    exact .settings idle
  | observer name =>
    obtain ⟨idle, ⟨⟩⟩ := Option.ite_none_right_eq_some.mp happened
    exact .observer idle

/-- What holds at first and is kept by every event that happens holds on every schedule. -/
theorem Reaches.invariant {allows : Controller α → Event → Prop} {P : Controller α → Prop}
    (path : Reaches kind here allows c d) (first : P c)
    (kept : ∀ {c d : Controller α} {event : Event}, P c → allows c event →
      Happens kind here c event d → P d) : P d := by
  induction path with
  | refl => exact first
  | tail _ allowed happened ih => exact kept ih allowed (happens_of_happen? happened)

/-- The state after some events in turn; none if one of them cannot happen. -/
def after? (kind : ArtifactKind α) (here : Location) (c : Controller α) (events : List Event) :
    Option (Controller α) :=
  events.foldlM (fun c event => c.happen? kind here event) c

theorem reaches_of_after? {allows : Controller α → Event → Prop} {events : List Event}
    (allowed : ∀ event ∈ events, ∀ c, allows c event)
    (happened : c.after? kind here events = some d) : Reaches kind here allows c d := by
  suffices later : ∀ {b}, Reaches kind here allows b c → Reaches kind here allows b d from
    later (.refl c)
  induction events generalizing c with
  | nil =>
    cases happened
    exact id
  | cons event rest ih =>
    rw [after?, List.foldlM_cons] at happened
    obtain ⟨next, first, happened⟩ := Option.bind_eq_some_iff.mp happened
    intro b past
    exact ih (fun e member => allowed e (List.mem_cons_of_mem _ member)) happened
      (past.tail (allowed event List.mem_cons_self c) first)

end Controller
end SimWorkbench
