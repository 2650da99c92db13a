import SimWorkbench.Proofs.Control.Sessions
import SimWorkbench.Proofs.Control.Teardown

/-!
# Reports of runs

Every run that is started is reported once, when it is over and all that it had has been torn down.
The report holds the last value of each property that the run has reported. The changes that a run
reports are kept in a book beside the state.
-/
namespace SimWorkbench

variable {α : Type}

/-- The changes that each run has reported so far, oldest first. -/
abbrev Book := Nat → List PropertyChange

namespace ControlPoint

/-- The run that was launched by the start that is under way or was answered last. -/
def starts? : ControlPoint α → Option Nat
  | answered (.started id) | spawningWorker id | spawningMonitor id => some id
  | showing _ next | telling _ next => next.starts?
  | _ => none

@[simp] theorem starts?_afterFault (starting : Bool) (fault : ControlFault) :
    (Controller.afterFault starting fault : ControlPoint α).starts? = none := by
  cases starting <;> rfl

/-- How many steps it takes the control thread at most to give the lock of the mark back. -/
def lockSteps : ControlPoint α → Nat
  | silencing _ => 2
  | flushing | advancing _ => 1
  | _ => 0

end ControlPoint

namespace Controller

variable {kind : ArtifactKind α} {here : Location} {c d e : Controller α} {id : Nat} {run : Run α}
  {keeps : α → Prop} {reports : α → Scene → List PropertyChange} {book : Book}
  {allows : Controller α → Event → Prop}

/-! ### The book -/

/-- The book after an event: the worker of a run may report changes. -/
def noted (reports : α → Scene → List PropertyChange) (c : Controller α) (book : Book) :
    Event → Book
  | .worker id => fun i =>
    if i = id then book i ++ ((c.run? id).map fun run => reports run.artifact (c.scene run)).getD []
    else book i
  | _ => book

/-- What some schedule of allowed events leads to, with the book of what was reported on it. -/
inductive Records (kind : ArtifactKind α) (here : Location) (allows : Controller α → Event → Prop)
    (reports : α → Scene → List PropertyChange) (c : Controller α) : Controller α → Book → Prop where
  | refl : Records kind here allows reports c c fun _ => []
  | tail {d e : Controller α} {book : Book} {event : Event}
    (past : Records kind here allows reports c d book) (allowed : allows d event)
    (happened : d.happen? kind here event = some e) :
    Records kind here allows reports c e (noted reports d book event)

/-- A book can be kept on every schedule. -/
theorem Reaches.records (path : Reaches kind here allows c d)
    (reports : α → Scene → List PropertyChange) :
    ∃ book, Records kind here allows reports c d book := by
  induction path with
  | refl => exact ⟨_, .refl⟩
  | tail _ allowed happened ih =>
    obtain ⟨book, past⟩ := ih
    exact ⟨_, past.tail allowed happened⟩

/-- Whether no run with a number was launched: the run is prepared or being made, or is still to
come. -/
def Unlaunched (c : Controller α) (i : Nat) : Prop :=
  i ∈ c.prepared.toList.map Run.id ++ (c.control.id? c.nextRun).toList ∨ c.nextRun ≤ i

theorem Numbered.ne_of_unlaunched (numbered : c.Numbered) {i : Nat} (unlaunched : c.Unlaunched i) :
    ∀ r ∈ c.runs, r.id ≠ i := by
  rintro r hr rfl
  have isRun := List.mem_map_of_mem (f := Run.id) hr
  rcases unlaunched with isOther | beyond
  · have increasing := numbered.increasing
    rw [Controller.ids, List.append_assoc] at increasing
    exact Nat.lt_irrefl _ ((List.pairwise_append.mp increasing).2.2 _ isRun _ isOther)
  · have given := numbered.given r.id (List.mem_append_left _ (List.mem_append_left _ isRun))
    exact Nat.lt_irrefl _ (Nat.lt_of_lt_of_le given beyond)

/-- A run that was launched stays so. -/
theorem Happens.unlaunched {event : Event} (happens : Happens kind here c event d)
    (numbered : c.Numbered) {i : Nat} (unlaunched : d.Unlaunched i) : c.Unlaunched i := by
  have others := (numbered.happens happens).ne_of_unlaunched unlaunched
  -- A number that was given and is none of a run now was none of a run before.
  have given : (∀ cause, event ≠ .refusal cause) → i ∈ c.ids → c.Unlaunched i := by
    intro granted isGiven
    rw [Controller.ids, List.append_assoc, List.mem_append] at isGiven
    refine .inl (isGiven.resolve_left fun isRun => ?_)
    obtain ⟨r, hr, same⟩ := List.mem_map.mp isRun
    obtain ⟨s, hs, is⟩ := happens.kept_id granted i ⟨r, hr, same⟩
    exact others s hs is
  by_cases refused : ∃ cause, event = .refusal cause
  · obtain ⟨cause, rfl⟩ := refused
    cases happens with
    | refuses =>
      refine unlaunched.imp_left fun isOther => List.mem_append_left _ ?_
      simpa [ControlPoint.id?] using isOther
  · have granted : ∀ cause, event ≠ .refusal cause := fun cause is => refused ⟨cause, is⟩
    have isGiven : i ∈ d.ids ∨ d.nextRun ≤ i := by
      rw [Controller.ids, List.append_assoc]
      exact unlaunched.imp_left (List.mem_append_right _)
    rcases happens.grows numbered.unprepared with passes | numbers | step
    · exact isGiven.elim (fun member => given granted (passes.ids.subset member))
        fun beyond => .inr (Nat.le_trans passes.nextRun beyond)
    · obtain ⟨-, unprepared, ⟨_, _, control⟩, nextRun⟩ := numbers
      rcases unlaunched with isOther | beyond
      · simp [unprepared, control, nextRun, ControlPoint.id?] at isOther
        exact .inr (Nat.le_of_eq isOther.symm)
      · exact .inr (by omega)
    · obtain ⟨⟨_, _, point⟩, runs, prepared, nextRun, ⟨_, _, _, _, control, -⟩, -⟩ := step
      have same : d.ids = c.ids := by
        simp [Controller.ids, runs, prepared, control, point, ControlPoint.id?]
      exact isGiven.elim (fun member => given granted (same ▸ member))
        fun beyond => .inr (nextRun ▸ beyond)

/-- A run that is there was there before, or was still to be launched. -/
theorem Happens.unlaunched_or_mem {event : Event} (happens : Happens kind here c event d)
    (numbered : c.Numbered) {s : Run α} (member : s ∈ d.runs) :
    c.Unlaunched s.id ∨ ∃ r ∈ c.runs, r.id = s.id := by
  rcases happens.grows numbered.unprepared with passes | numbers | step
  · have isGiven := passes.ids.subset
      (List.mem_append_left _ (List.mem_append_left _ (List.mem_map_of_mem (f := Run.id) member)))
    rw [Controller.ids, List.append_assoc, List.mem_append, List.mem_map] at isGiven
    exact isGiven.symm.imp_left .inl
  · exact .inr ⟨s, numbers.runs ▸ member, rfl⟩
  · exact .inr ⟨s, step.runs ▸ member, rfl⟩

/-- A run that is a stray one was so before, or has just been forsaken. -/
theorem Happens.strays {event : Event} (happens : Happens kind here c event d) {s : Run α}
    (member : s ∈ d.strays) :
    (∃ r ∈ c.strays, r.id = s.id) ∨ ∃ r ∈ c.runs, r.id = s.id ∧ d.runs = without r.id c.runs := by
  cases happens with
  | controls step => cases step <;> exact .inl ⟨s, member, rfl⟩
  | works _ _ step => cases step <;> exact .inl ⟨s, member, rfl⟩
  | tidies _ step => cases step <;> exact .inl ⟨s, member, rfl⟩
  | roams _ _ step =>
    cases step <;>
    · rcases mem_changed.mp member with ⟨member, -⟩ | ⟨r, hr, -, rfl⟩
      · exact .inl ⟨s, member, rfl⟩
      · exact .inl ⟨r, hr, rfl⟩
  | refuses isRun forsakes =>
    cases forsakes with
    | worker => exact .inl ⟨s, member, rfl⟩
    | monitor =>
      rcases List.mem_append.mp member with member | isNew
      · exact .inl ⟨s, member, rfl⟩
      · rw [List.mem_singleton.mp isNew]
        exact .inr ⟨_, isRun, rfl, rfl⟩
  | _ => exact .inl ⟨s, member, rfl⟩

/-- The runs that were forsaken have numbers of their own. -/
def Astray (c : Controller α) : Prop :=
  ∀ s ∈ c.strays, ¬c.Unlaunched s.id ∧ ∀ r ∈ c.runs, r.id ≠ s.id

theorem Astray.happens {event : Event} (astray : c.Astray) (numbered : c.Numbered)
    (happens : Happens kind here c event d) : d.Astray := by
  intro s member
  rcases happens.strays member with ⟨r, hr, same⟩ | ⟨run, isRun, same, runs⟩
  · obtain ⟨launched, others⟩ := astray r hr
    rw [same] at launched others
    refine ⟨fun unlaunched => launched (happens.unlaunched numbered unlaunched), fun t ht is => ?_⟩
    rcases happens.unlaunched_or_mem numbered ht with unlaunched | ⟨old, isOld, equal⟩
    · exact launched (is ▸ unlaunched)
    · exact others old isOld (equal.trans is)
  · refine ⟨fun unlaunched => ?_, fun t ht is => ?_⟩
    · exact numbered.ne_of_unlaunched (happens.unlaunched numbered unlaunched) run isRun same
    · rw [runs, mem_without] at ht
      exact ht.2 (is.trans same.symm)

/-- The properties of runs are what the book says, and the book is blank for those that are still to be
launched. -/
structure Posted (c : Controller α) (book : Book) : Prop where
  properties : ∀ r ∈ c.runs, r.properties = Properties.ofChanges (book r.id)
  blank : ∀ i, c.Unlaunched i → book i = []

theorem Posted.fresh (settings : RunSettings) (hasListener : Bool) (arena : Arena)
    (files : FileTree) :
    (fresh settings hasListener arena files : Controller α).Posted fun _ => [] := by
  constructor <;> simp [Controller.fresh]

/-- As long as nothing is reported, the book stays right. -/
theorem Posted.silent (posted : c.Posted book) (unlaunched : ∀ i, d.Unlaunched i → c.Unlaunched i)
    (same : ∀ s ∈ d.runs, (∃ r ∈ c.runs, s.id = r.id ∧ s.properties = r.properties) ∨
      s.IsNew ∧ c.Unlaunched s.id) : d.Posted book where
  properties s hs := by
    rcases same s hs with ⟨r, hr, id, properties⟩ | ⟨new, toLaunch⟩
    · rw [id, properties]
      exact posted.properties r hr
    · rw [new.properties, posted.blank s.id toLaunch]
      rfl
  blank i toLaunch := posted.blank i (unlaunched i toLaunch)

/-- Only its worker changes the properties of a run. -/
theorem Happens.same_properties {event : Event} (happens : Happens kind here c event d)
    (unstarted : c.Unstarted) (other : ∀ id, event ≠ .worker id) : ∀ s ∈ d.runs,
    (∃ r ∈ c.runs, s.id = r.id ∧ s.properties = r.properties) ∨ s.IsNew ∧ c.Unlaunched s.id := by
  have unchanged : ∀ s ∈ c.runs, (∃ r ∈ c.runs, s.id = r.id ∧ s.properties = r.properties) ∨
      s.IsNew ∧ c.Unlaunched s.id := fun s hs => .inl ⟨s, hs, rfl, rfl⟩
  cases happens with
  | controls step =>
    cases step with
    | launches point =>
      intro s hs
      rcases List.mem_append.mp hs with hs | hs
      · exact unchanged s hs
      · rw [List.mem_singleton.mp hs]
        exact .inr ⟨unstarted.inHand _ (by rw [point]; rfl), .inl (by simp [point, ControlPoint.id?])⟩
    | spawnsWorker | spawnsMonitor | asksToStop | turnsStepping | advances =>
      exact forall_changed unchanged fun r hr _ => .inl ⟨r, hr, rfl, rfl⟩
    | _ => exact unchanged
  | works => exact absurd rfl (other _)
  | tidies _ step =>
    cases step <;> exact forall_changed unchanged fun r hr _ => .inl ⟨r, hr, rfl, rfl⟩
  | roams _ _ step => cases step <;> exact unchanged
  | refuses => exact fun s hs => unchanged s (mem_without.mp hs).1
  | _ => exact unchanged

theorem Posted.works (posted : c.Posted book) (numbered : c.Numbered)
    (behaves : kind.Behaves keeps reports) (keeping : c.Keeping keeps) (member : run ∈ c.runs)
    (step : Works kind c run d) : d.Posted (noted reports c book (.worker run.id)) := by
  have entry : ∀ i, noted reports c book (.worker run.id) i =
      if i = run.id then book i ++ reports run.artifact (c.scene run) else book i := by
    simp [noted, numbered.run?_of_mem member]
  -- The properties grow by what is reported, and the entry of the run does too.
  have works : ∀ artifact scene (worker : WorkerPoint),
      scene.properties = (reports run.artifact (c.scene run)).foldl Properties.record run.properties →
      (c.worked run.id artifact scene worker).Posted (noted reports c book (.worker run.id)) := by
    intro artifact scene worker grown
    refine ⟨numbered.forall_changed member ?_ fun r hr other => ?_, fun i unlaunched => ?_⟩
    · rw [entry, if_pos rfl, Properties.ofChanges_append, ← posted.properties run member]
      exact grown
    · rw [entry, if_neg other]
      exact posted.properties r hr
    · have toLaunch : c.Unlaunched i := unlaunched
      rw [entry, if_neg (numbered.ne_of_unlaunched toLaunch run member).symm]
      exact posted.blank i toLaunch
  cases step with
  | went advanced | ended advanced =>
    exact works _ _ _
      (behaves.advance _ _ _ _ (keeping.runs _ member) (by rw [advanced]; rfl)).2.properties

theorem Posted.happens {event : Event} (posted : c.Posted book) (sound : c.Sound)
    (behaves : kind.Behaves keeps reports) (keeping : c.Keeping keeps)
    (happens : Happens kind here c event d) : d.Posted (noted reports c book event) := by
  have silent : (∀ id, event ≠ .worker id) → d.Posted book := fun other =>
    posted.silent (fun _ => happens.unlaunched sound.numbered)
      (happens.same_properties sound.unstarted other)
  cases happens with
  | works member _ step => exact posted.works sound.numbered behaves keeping member step
  | _ => exact silent (by simp)

/-! ### What is launched -/

theorem Controls.starts? (step : Controls kind here c d) :
    d.control.starts? = c.control.starts? ∨ ∃ run, c.control = .launching run := by
  cases step with
  | launches point => exact .inr ⟨_, point⟩
  | _ => exact .inl (by simp_all [ControlPoint.starts?])

/-- The numbers of the runs that are left when the one with the last number is forsaken. -/
theorem Numbered.ids_without (numbered : c.Numbered) {ids : List Nat} {i : Nat}
    (last : c.runs.map Run.id = ids ++ [i]) : (without i c.runs).map Run.id = ids := by
  have increasing := (List.pairwise_append.mp (List.pairwise_append.mp numbered.increasing).1).1
  have same : (without i c.runs).map Run.id = (c.runs.map Run.id).filter (· != i) := by
    rw [without, List.filter_map]
    rfl
  rw [last] at increasing
  have less := (List.pairwise_append.mp increasing).2.2
  have others : ids.filter (· != i) = ids := List.filter_eq_self.mpr fun j member => by
    simpa using Nat.ne_of_lt (less j member i (List.mem_singleton_self i))
  rw [same, last, List.filter_append, others]
  simp

/-- A call launches at most one run that is not forsaken, and then it is a start that is answered by
its number. -/
theorem Reaches.runs_of_call {call : Call} (sound : c.Sound) (idle : c.idle = true)
    (path : Reaches kind here (fun _ event => event.isDuring = true) (c.begin call) d) :
    d.runs.map Run.id = c.runs.map Run.id ++ d.control.starts?.toList := by
  have begins : Happens kind here c (.call call) (c.begin call) := .begins idle
  have begun : (c.begin call).Sound := sound.happens begins
  induction path with
  | refl => cases call <;> simp [begin, Call.entry, ControlPoint.starts?]
  | @tail d e event past during happened ih =>
    have happens := happens_of_happen? happened
    rcases Event.cases_of_isDuring during with rfl | ⟨cause, rfl⟩ | others
    · rcases happens.ids with same | ⟨run, point, added, next⟩ | ⟨cause, refused⟩
      · rw [same, ih]
        cases happens with
        | controls step =>
          rcases step.starts? with kept | ⟨run, point⟩
          · rw [kept]
          · cases step <;> simp_all
      · rw [added, ih, point, next]
        simp [ControlPoint.starts?]
      · cases refused
    · cases happens with
      | @refuses _ _ run strays member forsakes =>
        have launched : d.control.starts? = some run.id := by
          cases forsakes with
          | worker point | monitor point => rw [point]; rfl
        rw [launched] at ih
        exact ((past.sound begun).numbered.ids_without ih).trans (List.append_nil _).symm
    · rcases happens.ids with same | ⟨run, point, added, next⟩ | ⟨cause, rfl⟩
      · rw [same, ih, happens.control_of_others others]
      · rw [happens.control_of_others others, point] at next
        cases next
      · cases others

/-! ### Progress -/

theorem Tidies.rises (step : Tidies here c run d) (member : run ∈ c.runs) :
    ∃ s ∈ d.runs, s.id = run.id ∧ run.monitor.rank < s.monitor.rank := by
  have found : ∀ f : Run α → Run α, (f run).id = run.id → run.monitor.rank < (f run).monitor.rank →
      ∃ s ∈ changed run.id f c.runs, s.id = run.id ∧ run.monitor.rank < s.monitor.rank :=
    fun f id rises => ⟨f run, mem_changed.mpr (.inr ⟨run, member, rfl, rfl⟩), id, rises⟩
  cases step with
  | joins point | finishes point | releases point | releasesAgain point | flushes point
  | disposes point | reports point | clears point | clearsNothing point | looks point
  | looksAway point | shows point | passes point | tells point | leaves point | calls point
  | delivers point => exact found _ rfl (by simp [point, MonitorPoint.rank])

/-- The monitor of a run whose worker has ended goes on; it waits only for a lock. -/
theorem Numbered.progress (numbered : c.Numbered) (kind : ArtifactKind α) (here : Location)
    (member : run ∈ c.runs)
    {outcome : Except Fault Unit} {path : Option Path} (ended : run.worker = .ended outcome path)
    (born : run.monitor ≠ .unborn) (remains : run.monitor ≠ .gone)
    (free : run.monitor = .clearing → c.control.locksMark = false) :
    ∃ d, c.happen? kind here (.monitor run.id) = some d ∧
      ∃ s ∈ d.runs, s.id = run.id ∧ run.monitor.rank < s.monitor.rank := by
  have acts : c.stepMonitor? here run.id ≠ none := by
    simp only [stepMonitor?, numbered.run?_of_mem member, Option.bind_eq_bind, Option.bind_some, ended]
    cases point : run.monitor with
    | unborn => exact absurd point born
    | gone => exact absurd point remains
    | clearing => simp [free point]
    | _ => simp
  obtain ⟨d, happened⟩ := Option.ne_none_iff_exists'.mp acts
  obtain ⟨r, hr, same, step⟩ := tidies_of_stepMonitor? happened
  obtain rfl := numbered.eq_of_id hr member same
  exact ⟨d, happened, step.rises hr⟩

/-- The control thread does not wait for anything to give the lock back. -/
theorem Controls.unlocks (step : Controls kind here c d) (locked : c.control.locksMark = true) :
    d.control.lockSteps < c.control.lockSteps := by
  cases step with
  | waits point =>
    rcases point with idle | closed
    · cases (of_idle (f := ControlPoint.locksMark) idle (fun _ => rfl) fun _ => rfl).symm.trans locked
    · simp [closed, ControlPoint.locksMark] at locked
  | _ => simp_all [ControlPoint.locksMark, ControlPoint.lockSteps]

/-! ### One report for each run -/

/-- All that a run had has been torn down, and its report is complete. -/
structure Torn (c : Controller α) (book : Book) (r : Run α) : Prop where
  disposed : c.arena.node? r.context = none
  finished : r.channel.finished = true
  released : c.sink.isOpen r.handle = false
  /-- If the guard is up, it is for another session. -/
  guard : c.guard = 1 →
    c.control.holdsGuard = true ∨ ∃ s ∈ c.runs, s.id ≠ r.id ∧ ¬s.isOver
  report : ∃ outcome path, r.worker = .ended outcome path ∧
    r.report = some ⟨r.id, r.name, outcome, path, r.properties⟩
  properties : ∀ name, r.properties.get? name =
    ((book r.id).reverse.find? fun change => change.name == name).map PropertyChange.new

/-- How starts, runs and reports go together. -/
structure Complete (kind : ArtifactKind α) (here : Location) (c : Controller α) (book : Book) :
    Prop where
  /-- A start that is answered by a number launches the run with this number. After any other there
  are the runs that there were before. -/
  launches : c.idle = true →
    ∀ d, Reaches kind here (fun _ event => event.isDuring = true) (c.begin .start) d →
    d.idle = true → d.runs.map Run.id = c.runs.map Run.id ++
      match d.control with
      | .answered (.started id) => [id]
      | _ => []
  /-- When the worker of a run has ended, its monitor goes on until it is gone. It waits for nothing
  but a lock, which the control thread gives back in one step or two. -/
  progress : ∀ r ∈ c.runs, ∀ outcome path, r.worker = .ended outcome path →
    r.monitor ≠ .unborn → r.monitor ≠ .gone →
    (r.monitor = .clearing → c.control.locksMark = false) →
    ∃ d, c.happen? kind here (.monitor r.id) = some d ∧
      ∃ s ∈ d.runs, s.id = r.id ∧ r.monitor.rank < s.monitor.rank
  born : c.idle = true → ∀ r ∈ c.runs, r.monitor ≠ .unborn
  unlocks : c.control.locksMark = true →
    (c.stepControl kind here).control.lockSteps < c.control.lockSteps
  /-- Only runs are reported, and none that was forsaken. -/
  known : ∀ a, a ∈ c.announcements ∨ a ∈ c.delivered →
    (∃ r ∈ c.runs, r.report = some a ∧ a.run = r.id) ∧ ∀ s ∈ c.strays, s.id ≠ a.run
  /-- The end of a run is announced and delivered once. -/
  once : ∀ r ∈ c.runs, r.monitor = .gone → ∃ report, r.report = some report ∧
    (c.announcements.filter fun a => a.run == r.id) = [report] ∧
    (c.delivered.filter fun a => a.run == r.id) = [report]
  announced : ∀ r ∈ c.runs, (c.announcements.filter fun a => a.run == r.id) =
    if r.monitor = .delivering ∨ r.monitor = .gone then r.report.toList else []
  delivered : ∀ r ∈ c.runs, (c.delivered.filter fun a => a.run == r.id) =
    if r.monitor = .gone then r.report.toList else []
  /-- Before any of that, everything is torn down. -/
  torn : ∀ r ∈ c.runs, r.monitor = .calling ∨ r.monitor = .delivering ∨ r.monitor = .gone →
    c.Torn book r

/-- All that holds on a schedule with a book. -/
structure Kept (keeps : α → Prop) (c : Controller α) (book : Book) : Prop where
  sound : c.Sound
  astray : c.Astray
  placed : c.Placed
  keeping : c.Keeping keeps
  cleared : c.Cleared
  posted : c.Posted book

theorem Kept.happens {event : Event} (kept : c.Kept keeps book)
    (behaves : kind.Behaves keeps reports) (happens : Happens kind here c event d) :
    d.Kept keeps (noted reports c book event) where
  sound := kept.sound.happens happens
  astray := kept.astray.happens kept.sound.numbered happens
  placed := kept.placed.happens kept.sound.numbered happens
  keeping := kept.keeping.happens behaves kept.sound.numbered happens
  cleared := kept.cleared.happens kept.sound kept.placed behaves kept.keeping happens
  posted := kept.posted.happens kept.sound behaves kept.keeping happens

theorem Records.kept {settings : RunSettings} {hasListener : Bool} {arena : Arena}
    {files : FileTree} (behaves : kind.Behaves keeps reports) (forest : arena.Forest)
    (path : Records kind here allows reports (fresh settings hasListener arena files) c book) :
    c.Kept keeps book := by
  induction path with
  | refl =>
    exact ⟨.fresh .., fun _ member => (by cases member), .fresh _ _ forest _, .fresh .., .fresh ..,
      .fresh ..⟩
  | tail _ _ happened ih => exact ih.happens behaves (happens_of_happen? happened)

theorem Kept.torn (kept : c.Kept keeps book) (member : run ∈ c.runs) (spent : run.isOver) :
    c.Torn book run := by
  have tidied := kept.cleared.tidied run member
  rw [Run.isOver] at spent
  refine ⟨tidied.disposed (by omega), tidied.finished (by omega), tidied.released (by omega),
    fun raised => ?_, tidied.reported (by omega), fun name => ?_⟩
  · rcases kept.sound.admitted.held raised with holds | ⟨s, hs, present⟩
    · exact .inl holds
    · refine .inr ⟨s, hs, fun same => ?_, present⟩
      rw [kept.sound.numbered.eq_of_id hs member same] at present
      exact present spent
  · rw [kept.posted.properties run member, Properties.get?_ofChanges]

theorem Kept.known (kept : c.Kept keeps book) {report : RunReport}
    (told : report ∈ c.announcements ∨ report ∈ c.delivered) :
    ∃ r ∈ c.runs, r.report = some report ∧ report.run = r.id := by
  rcases told with told | told
  · obtain ⟨r, hr, same⟩ := kept.cleared.announced report told
    have filtered : report ∈ c.announcements.filter fun a => a.run == r.id :=
      List.mem_filter.mpr ⟨told, by simp [same]⟩
    rw [(kept.cleared.tidied r hr).announced] at filtered
    split at filtered
    · exact ⟨r, hr, by simpa using filtered, same.symm⟩
    · cases filtered
  · obtain ⟨r, hr, same⟩ := kept.cleared.delivered report told
    have filtered : report ∈ c.delivered.filter fun a => a.run == r.id :=
      List.mem_filter.mpr ⟨told, by simp [same]⟩
    rw [(kept.cleared.tidied r hr).delivered] at filtered
    split at filtered
    · exact ⟨r, hr, by simpa using filtered, same.symm⟩
    · cases filtered

/-- Every run that is started is reported once, when all that it had has been torn down, however it
ended, and whatever else is done meanwhile. -/
theorem complete_reports {settings : RunSettings} {hasListener : Bool} {arena : Arena}
    {files : FileTree} (behaves : kind.Behaves keeps reports) (forest : arena.Forest)
    (path : Records kind here allows reports (fresh settings hasListener arena files) c book) :
    c.Complete kind here book := by
  have kept := path.kept behaves forest
  have told : ∀ r ∈ c.runs, (13 ≤ r.monitor.rank ↔ r.monitor = .delivering ∨ r.monitor = .gone) ∧
      (14 ≤ r.monitor.rank ↔ r.monitor = .gone) := fun r _ => by
    cases r.monitor <;> simp [MonitorPoint.rank]
  refine ⟨fun idle d path spent => ?_, fun r hr outcome path ended born remains => ?_,
    fun idle r hr unborn => ?_, fun locked => ?_, fun a told => ?_, fun r hr gone => ?_,
    fun r hr => ?_, fun r hr => ?_, fun r hr is => kept.torn hr ?_⟩
  · rw [path.runs_of_call kept.sound idle]
    rcases answered_of_idle spent with ⟨answer, answered⟩ | ⟨fault, refused⟩
    · rw [answered]
      cases answer <;> rfl
    · rw [refused]
      rfl
  · exact kept.sound.numbered.progress kind here hr ended born remains
  · obtain ⟨worker, spawns⟩ := kept.sound.admitted.unborn r hr unborn
    have calm := of_idle (f := ControlPoint.spawns?) idle (fun _ => rfl) fun _ => rfl
    cases calm.symm.trans spawns
  · exact (controls_stepControl kind here c).unlocks locked
  · obtain ⟨r, hr, report, own⟩ := kept.known told
    exact ⟨⟨r, hr, report, own⟩, fun s hs is => (kept.astray s hs).2 r hr (own.symm.trans is.symm)⟩
  · have tidied := kept.cleared.tidied r hr
    obtain ⟨outcome, path, -, report⟩ := tidied.reported (by rw [gone]; decide)
    refine ⟨_, report, ?_, ?_⟩
    · rw [tidied.announced, gone, report]
      rfl
    · rw [tidied.delivered, gone, report]
      rfl
  · rw [(kept.cleared.tidied r hr).announced]
    simp only [(told r hr).1]
  · rw [(kept.cleared.tidied r hr).delivered]
    simp only [(told r hr).2]
  · rcases is with is | is | is <;> simp [Run.isOver, is, MonitorPoint.rank]

open Rehearsal in
/-- The rehearsed run ends, and is torn down and reported. -/
theorem complete_reports_rehearsed : ∃ (c : Controller Artifact) (book : Book),
    Records twice [] (fun _ _ => True) Rehearsal.reports seated c book ∧ c.announced = [1] ∧
      c.delivered.length = 1 ∧ c.Complete twice [] book := by
  have announced : ((seated.after? twice [] (opening ++ List.replicate 5 (Event.worker 1) ++
      List.replicate 13 (Event.monitor 1))).any fun c =>
        c.announced == [1] && c.delivered.length == 1) = true := by decide +kernel
  obtain ⟨c, happened, facts⟩ := (Option.any_eq_true _ _).mp announced
  rw [Bool.and_eq_true, beq_iff_eq, beq_iff_eq] at facts
  have path : Reaches twice [] (fun _ _ => True) seated c :=
    reaches_of_after? (fun _ _ _ => trivial) happened
  obtain ⟨book, recorded⟩ := path.records Rehearsal.reports
  exact ⟨c, book, recorded, facts.1, facts.2,
    complete_reports (unattended_behaves _) (Arena.Forest.fresh ..) recorded⟩

end Controller
end SimWorkbench
