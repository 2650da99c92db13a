import SimWorkbench.Proofs.Context.Lodging
import SimWorkbench.Proofs.Control.Sessions

/-!
# What a start runs

A start takes the run that is prepared, or prepares the descriptor again that was prepared last. Both
were remembered by the last preparation that succeeded; one that fails gives up the prepared run but
not the descriptor. A step that is asked for while no run is active reaches the prepared run, if
there is one; a run that the start has to prepare first knows nothing of it.
-/
namespace SimWorkbench

variable {α : Type}

/-- What the control thread does that decides what runs. -/
inductive Deed (α : Type) where
  /-- A preparation is asked for and not refused. -/
  | asked (descriptor : Descriptor)
  /-- The preparation that was asked for succeeds. -/
  | prepared (descriptor : Descriptor)
  /-- A step is asked for while no run is active. -/
  | stepped
  | launched (run : Run α)

namespace Deed

/-! ### What a list of deeds says, the newest first -/

def asked? : Deed α → Option Descriptor
  | asked d => some d
  | _ => none

def prepared? : Deed α → Option Descriptor
  | prepared d => some d
  | _ => none

/-- What was last to be prepared, whether it could be or not. -/
def lastAsked (deeds : List (Deed α)) : Option Descriptor := deeds.findSome? asked?

/-- What was last prepared. -/
def lastPrepared (deeds : List (Deed α)) : Option Descriptor := deeds.findSome? prepared?

/-- Whether the last preparation has not succeeded. -/
def lastFailed : List (Deed α) → Bool
  | [] => false
  | asked _ :: _ => true
  | prepared _ :: _ => false
  | stepped :: earlier | launched _ :: earlier => lastFailed earlier

/-- What is prepared and has not been launched, with the number of steps asked for since. -/
def pending : List (Deed α) → Option (Descriptor × Nat)
  | prepared d :: _ => some (d, 0)
  | stepped :: earlier => (pending earlier).map fun p => (p.1, p.2 + 1)
  | _ => none

/-- How many steps a run begins with that is launched now. -/
def steps (deeds : List (Deed α)) : Nat := ((pending deeds).map Prod.snd).getD 0

variable {deeds earlier : List (Deed α)} {d : Descriptor}

theorem lastPrepared_of_pending {n : Nat} (isPending : pending deeds = some (d, n)) :
    lastPrepared deeds = some d := by
  induction deeds generalizing n with
  | nil => cases isPending
  | cons o earlier ih =>
    cases o with
    | asked | launched => cases isPending
    | prepared =>
      cases isPending
      rfl
    | stepped =>
      obtain ⟨p, before, ⟨⟩⟩ := Option.map_eq_some_iff.mp isPending
      exact ih before

theorem pending_of_asked (first : deeds.head? = some (.asked d)) : pending deeds = none := by
  obtain ⟨earlier, rfl⟩ := List.head?_eq_some_iff.mp first
  rfl

/-- The steps that were asked for last reach a run only if it was prepared before. -/
theorem steps_replicate (n : Nat) (whole : ∀ earlier', earlier ≠ .stepped :: earlier') :
    steps (List.replicate n .stepped ++ earlier) =
      if (earlier.head?.bind prepared?).isSome then n else 0 := by
  have counted : pending (List.replicate n .stepped ++ earlier) =
      (earlier.head?.bind prepared?).map fun d => (d, n) := by
    induction n with
    | zero =>
      cases earlier with
      | nil => rfl
      | cons o earlier =>
        cases o with
        | stepped => exact absurd rfl (whole earlier)
        | asked | prepared | launched => rfl
    | succ n ih =>
      rw [List.replicate_succ, List.cons_append, pending, ih, Option.map_map]
      rfl
  rw [steps, counted]
  cases earlier.head?.bind prepared? <;> rfl

end Deed

/-- How one sees whether an artifact of a kind is to begin in the stepping mode. -/
structure ArtifactKind.Switches (kind : ArtifactKind α) (stepping : α → Bool) : Prop where
  bind : ∀ b a, stepping (kind.bind b a).2 = b.singleStep
  switch : ∀ a, stepping (kind.setSingleStep true a).2 = true

/-- One sees it of a program by its bindings. -/
theorem ProcessArtifact.switches (around : Surroundings) (workDir : Option Path) :
    (kind around workDir).Switches fun a => a.bindings.singleStep :=
  ⟨fun _ _ => rfl, fun _ => rfl⟩

theorem Rehearsal.switches (instructions : List Instruction) :
    (unattended instructions).Switches fun a => a.bindings.singleStep :=
  ⟨fun _ _ => rfl, fun _ => rfl⟩

namespace Controller

open Deed

variable {kind : ArtifactKind α} {here : Location} {c e first : Controller α} {run : Run α}
  {deeds earlier : List (Deed α)} {d : Descriptor} {n : Nat} {dir : Path}

/-- An artifact that is switched to the stepping mode. -/
def switched (kind : ArtifactKind α) (artifact : α) : α := (kind.setSingleStep true artifact).2

/-- Whether a run is new and of the artifact of a descriptor: that artifact was loaded by its name,
bound, and as often switched to the stepping mode as it was asked for. -/
structure Made (kind : ArtifactKind α) (dir : Path) (d : Descriptor) (n : Nat) (run : Run α) :
    Prop where
  name : dir.below? d.artifact = some run.name
  artifact : ∃ files loaded places notes artifact bindings,
    loaded.name = run.name ∧ loaded.context = run.context ∧
    kind.load files loaded places = (notes, .ok artifact) ∧
    bindings.singleStep = false ∧ bindings.handle = run.handle ∧
    run.artifact = (switched kind)^[n] (kind.bind bindings artifact).2
  channel : run.channel = .fresh

/-- A prepared run is switched to the stepping mode. -/
theorem Made.step (made : Made kind dir d n run) :
    Made kind dir d (n + 1) { run with artifact := switched kind run.artifact } := by
  obtain ⟨name, ⟨files, loaded, places, notes, artifact, bindings, named, context, load, mode, handle,
    same⟩, channel⟩ := made
  refine ⟨name, ⟨files, loaded, places, notes, artifact, bindings, named, context, load, mode, handle,
    ?_⟩, channel⟩
  rw [Function.iterate_succ_apply', ← same]

/-- A run that was made begins in the stepping mode if it was asked for once. -/
theorem Made.stepping {stepping : α → Bool} (made : Made kind dir d n run)
    (switches : kind.Switches stepping) : stepping run.artifact = decide (0 < n) := by
  obtain ⟨-, ⟨_, _, _, _, _, _, -, -, -, mode, -, same⟩, -⟩ := made
  rw [same]
  cases n with
  | zero => exact (switches.bind _ _).trans mode
  | succ n =>
    rw [Function.iterate_succ_apply']
    exact switches.switch _

/-! ### Courses -/

/-- What the control thread does by an event. -/
def deed? (c : Controller α) : Event → Option (Deed α)
  | .control =>
    match c.control with
    | .asking d => if c.guard = 0 then some (.asked d) else none
    | .entering d false _ => some (.prepared d)
    | .stepping => if c.active = none then some .stepped else none
    | .launching run => some (.launched run)
    | _ => none
  | _ => none

/-- What was done on some schedule, the newest first, and what it led to. -/
inductive Course (kind : ArtifactKind α) (here : Location) (first : Controller α) :
    List (Deed α) → Controller α → Prop where
  | start : Course kind here first [] first
  | goesOn {deeds : List (Deed α)} {c e : Controller α} {event : Event}
    (past : Course kind here first deeds c) (happened : c.happen? kind here event = some e) :
    Course kind here first ((c.deed? event).toList ++ deeds) e

/-- Whether deeds follow from one another: what is prepared was asked for just before, and what is
launched is what was prepared last. -/
inductive Justified (kind : ArtifactKind α) (dir : Path) : List (Deed α) → Prop where
  | none : Justified kind dir []
  | asked {deeds : List (Deed α)} {d : Descriptor} (past : Justified kind dir deeds) :
    Justified kind dir (.asked d :: deeds)
  | stepped {deeds : List (Deed α)} (past : Justified kind dir deeds) :
    Justified kind dir (.stepped :: deeds)
  | prepared {deeds : List (Deed α)} {d : Descriptor} (past : Justified kind dir deeds)
    (wanted : deeds.head? = some (.asked d)) : Justified kind dir (.prepared d :: deeds)
  | launched {deeds : List (Deed α)} {d : Descriptor} {run : Run α}
    (past : Justified kind dir deeds) (last : lastPrepared deeds = some d)
    (made : Made kind dir d (steps deeds) run) :
    Justified kind dir (.launched run :: deeds)

theorem Justified.suffix (justified : Justified kind dir deeds) (part : earlier <:+ deeds) :
    Justified kind dir earlier := by
  induction justified with
  | none =>
    rw [List.suffix_nil.mp part]
    exact .none
  | asked past ih =>
    rcases List.suffix_cons_iff.mp part with rfl | part
    · exact .asked past
    · exact ih part
  | stepped past ih =>
    rcases List.suffix_cons_iff.mp part with rfl | part
    · exact .stepped past
    · exact ih part
  | prepared past wanted ih =>
    rcases List.suffix_cons_iff.mp part with rfl | part
    · exact .prepared past wanted
    · exact ih part
  | launched past last made ih =>
    rcases List.suffix_cons_iff.mp part with rfl | part
    · exact .launched past last made
    · exact ih part

/-- What was prepared last is what was asked for last, unless that failed. -/
theorem Justified.lastAsked (justified : Justified kind dir deeds)
    (succeeded : lastFailed deeds = false) : Deed.lastAsked deeds = lastPrepared deeds := by
  induction justified with
  | none => rfl
  | asked => cases succeeded
  | stepped _ ih | launched _ _ _ ih => exact ih succeeded
  | prepared _ wanted =>
    obtain ⟨earlier, rfl⟩ := List.head?_eq_some_iff.mp wanted
    rfl

/-! ### What the control thread has in hand -/

/-- Whether the prepared run is what the deeds say. -/
def Settled (kind : ArtifactKind α) (dir : Path) (deeds : List (Deed α))
    (c : Controller α) : Prop :=
  Option.Rel (fun run p => Made kind dir p.1 p.2 run) c.prepared (pending deeds)

/-- Whether an artifact is wanted, by a preparation or by a start. -/
def Wanted (deeds : List (Deed α)) (d : Descriptor) : Bool → Prop
  | true => pending deeds = none ∧ lastPrepared deeds = some d
  | false => deeds.head? = some (.asked d)

theorem Wanted.pending {starting : Bool} (wanted : Wanted deeds d starting) :
    pending deeds = none := by
  cases starting with
  | true => exact wanted.1
  | false => exact pending_of_asked wanted

/-- What the control thread has in hand, by where it is. -/
def Holds (kind : ArtifactKind α) (dir : Path) (deeds : List (Deed α))
    (c : Controller α) : ControlPoint α → Prop
  | .discarding d starting => Wanted deeds d starting ∧ (starting = true → c.prepared = none)
  | .resolving d starting => Wanted deeds d starting ∧ c.prepared = none
  | .loading d starting _ loaded _ => (Wanted deeds d starting ∧ c.prepared = none) ∧
    dir.below? d.artifact = some loaded.name
  | .binding d starting _ loaded artifact => (Wanted deeds d starting ∧ c.prepared = none) ∧
    dir.below? d.artifact = some loaded.name ∧
    ∃ files places notes, kind.load files loaded places = (notes, .ok artifact)
  | .entering d starting run =>
    (Wanted deeds d starting ∧ c.prepared = none) ∧ Made kind dir d 0 run
  | .launching run => c.prepared = none ∧
    ∃ d, lastPrepared deeds = some d ∧ Made kind dir d (steps deeds) run
  | .showing _ next | .telling _ next => Holds kind dir deeds c next
  | .closed => True
  | _ => Settled kind dir deeds c

/-- What holds of a controller between two events, given what was done so far. -/
structure Carries (kind : ArtifactKind α) (dir : Path) (deeds : List (Deed α))
    (c : Controller α) : Prop where
  justified : Justified kind dir deeds
  classesDir : c.arena.classesDir = dir
  last : c.lastDescriptor = lastPrepared deeds
  hand : Holds kind dir deeds c c.control

theorem settled_of_none (unprepared : c.prepared = none) (none : pending deeds = none) :
    Settled kind dir deeds c := by
  rw [Settled, unprepared, none]
  exact .none

/-- A prepared run was made of what is pending. -/
theorem Settled.made (settled : Settled kind dir deeds c) (prepared : c.prepared = some run) :
    ∃ p, Deed.pending deeds = some p ∧ Made kind dir p.1 p.2 run := by
  rw [Settled, prepared] at settled
  cases isPending : Deed.pending deeds with
  | none =>
    rw [isPending] at settled
    cases settled
  | some p =>
    rw [isPending] at settled
    cases settled with
    | some made => exact ⟨p, rfl, made⟩

theorem Settled.pending (settled : Settled kind dir deeds c) (unprepared : c.prepared = none) :
    pending deeds = none := by
  rw [Settled, unprepared] at settled
  cases isPending : Deed.pending deeds with
  | none => rfl
  | some p =>
    rw [isPending] at settled
    cases settled

/-- After a preparation that failed nothing is prepared. -/
theorem settled_afterFault {starting : Bool} {fault : ControlFault}
    (settled : Settled kind dir deeds c) :
    Holds kind dir deeds c (afterFault starting fault) := by
  cases starting <;> exact settled

/-- What is in hand does not change when other things do. -/
theorem Holds.congr {p : ControlPoint α} (prepared : e.prepared = c.prepared)
    (holds : Holds kind dir deeds c p) : Holds kind dir deeds e p := by
  induction p with
  | showing _ _ ih => exact ih holds
  | telling _ _ ih => exact ih holds
  | closed => trivial
  | _ => simpa only [Holds, Settled, prepared] using holds

theorem Carries.start (settings : RunSettings) (hasListener : Bool) (rootPaths : List Path)
    (dir scratchDir : Path) (naming : Naming) (files : FileTree) :
    Carries kind dir [] (fresh settings hasListener (.fresh rootPaths dir scratchDir naming) files) :=
  ⟨.none, rfl, rfl, settled_of_none rfl rfl⟩

/-! ### One step -/

/-- What an arena has loaded is known by the name under which it was asked for. -/
theorem name_of_load {a a' : Arena} {files files' : FileTree} {context : ContextId} {name : Path}
    {loaded : LoadedArtifact} (done : a.load files here context name = (files', a', .ok loaded)) :
    loaded.name = name := by
  rcases a.load_cases files here context name with ⟨_, refused⟩ | ⟨_, _, _, -, refused⟩ |
    ⟨_, _, _, _, _, -, -, -, found⟩
  · cases refused.symm.trans done
  · cases refused.symm.trans done
  · cases found.symm.trans done
    rfl

/-- What was resolved has the name of the descriptor. -/
theorem named_of_resolve {c' : Controller α} {loaded : LoadedArtifact} {places : List Path}
    (resolved : c.resolve here d = (c', .ok (loaded, places))) :
    c.arena.classesDir.below? d.artifact = some loaded.name := by
  have same : c.arena.createRun.1.classesDir = c.arena.classesDir := c.arena.sameDirs_stage.1
  simp only [resolve, artifactName, same] at resolved
  cases named : c.arena.classesDir.below? d.artifact with
  | none =>
    simp only [named] at resolved
    cases (Prod.mk.inj resolved).2
  | some name =>
    simp only [named] at resolved
    rcases result : c.arena.createRun.1.load c.files here c.arena.createRun.2 name with
      ⟨files, arena, e | loaded'⟩
    · simp only [result] at resolved
      cases (Prod.mk.inj resolved).2
    · simp only [result] at resolved
      cases (Prod.mk.inj resolved).2
      rw [name_of_load result]

theorem named_of_resolving {starting : Bool} {d' : Descriptor} {starting' : Bool} {id : Nat}
    {loaded : LoadedArtifact} {places : List Path} (point : c.control = .resolving d starting)
    (loading : (c.stepControl kind here).control = .loading d' starting' id loaded places) :
    c.arena.classesDir.below? d.artifact = some loaded.name := by
  rw [stepControl, point] at loading
  rcases resolved : c.resolve here d with ⟨c', e | ⟨loaded', places'⟩⟩
  · simp only [resolved] at loading
    cases starting <;> cases loading
  · simp only [resolved] at loading
    cases loading
    exact named_of_resolve resolved

/-- The next step of the control thread adds to its deeds what it does. -/
theorem Carries.controls (carries : Carries kind dir deeds c) (step : Controls kind here c e)
    (classesDir : e.arena.classesDir = c.arena.classesDir)
    (named : ∀ {d starting id loaded places}, c.control = .resolving d starting →
      e.control = .loading d starting id loaded places →
      c.arena.classesDir.below? d.artifact = some loaded.name) :
    Carries kind dir ((c.deed? .control).toList ++ deeds) e := by
  obtain ⟨justified, isDir', last, hand⟩ := carries
  have isDir := classesDir.trans isDir'
  have quiet : ∀ {e : Controller α}, c.deed? .control = none → e.arena.classesDir = dir →
      e.lastDescriptor = c.lastDescriptor → Holds kind dir deeds e e.control →
      Carries kind dir ((c.deed? .control).toList ++ deeds) e := by
    intro e none isDir same hand
    rw [none]
    exact ⟨justified, isDir, same.trans last, hand⟩
  cases step with
  | waits point =>
    have none : c.deed? .control = none := by
      rcases point with idle | closed
      · exact of_idle (f := fun p => Controller.deed? { c with control := p } .control) idle
          (fun _ => rfl) fun _ => rfl
      · simp [deed?, closed]
    rw [none]
    exact ⟨justified, isDir, last, hand⟩
  | asks point free =>
    simp only [deed?, point, free, if_true, Option.toList_some, List.singleton_append]
    exact ⟨.asked justified, isDir, last, rfl, fun starting => by cases starting⟩
  | prepares point =>
    rw [point] at hand
    obtain ⟨⟨wanted, -⟩, made⟩ := hand
    simp only [deed?, point, Option.toList_some, List.singleton_append]
    exact ⟨.prepared justified wanted, isDir, rfl, .some made⟩
  | setsStepping point inactive prepared =>
    rw [point] at hand
    obtain ⟨p, isPending, made⟩ := Settled.made hand prepared
    simp only [deed?, point, inactive, if_true, Option.toList_some, List.singleton_append]
    refine ⟨.stepped justified, isDir, last, ?_⟩
    simp only [atPoint_control, Holds, Settled, atPoint_prepared, pending, isPending]
    exact .some made.step
  | stepsNothing point inactive unprepared =>
    rw [point] at hand
    simp only [deed?, point, inactive, if_true, Option.toList_some, List.singleton_append]
    refine ⟨.stepped justified, isDir, last, settled_of_none unprepared ?_⟩
    rw [pending, Settled.pending hand unprepared, Option.map_none]
  | launches point =>
    rw [point] at hand
    obtain ⟨unprepared, d, isLast, made⟩ := hand
    simp only [deed?, point, Option.toList_some, List.singleton_append]
    exact ⟨.launched justified isLast made, isDir, last, settled_of_none unprepared rfl⟩
  | refuses point busy =>
    rw [point] at hand
    exact quiet (by simp [deed?, point, Nat.ne_of_gt busy]) isDir rfl hand
  | turnsStepping point active =>
    rw [point] at hand
    exact quiet (by simp [deed?, point, active]) isDir rfl hand
  | discards point =>
    rw [point] at hand
    exact quiet (by simp [deed?, point]) isDir rfl ⟨hand.1, rfl⟩
  | numbers point unprepared =>
    rw [point] at hand
    exact quiet (by simp [deed?, point]) isDir rfl ⟨hand.1, unprepared⟩
  | misses point =>
    rw [point] at hand
    exact quiet (by simp [deed?, point]) isDir rfl
      (settled_afterFault (settled_of_none hand.2 hand.1.pending))
  | resolves point =>
    rw [point] at hand
    exact quiet (by simp [deed?, point]) isDir rfl ⟨hand, isDir' ▸ named point rfl⟩
  | failsToLoad point =>
    rw [point] at hand
    exact quiet (by simp [deed?, point]) isDir rfl (settled_of_none hand.1.2 hand.1.1.pending)
  | loads point done =>
    rw [point] at hand
    exact quiet (by simp [deed?, point]) isDir rfl ⟨hand.1, hand.2, _, _, _, done⟩
  | abandons point =>
    rw [point] at hand
    exact quiet (by simp [deed?, point]) isDir rfl (settled_afterFault hand)
  | binds point =>
    rw [point] at hand
    obtain ⟨wanted, named, files, places, notes, load⟩ := hand
    exact quiet (by simp [deed?, point]) isDir rfl
      ⟨wanted, named, ⟨files, _, places, notes, _, _, rfl, rfl, load, rfl, rfl, rfl⟩, rfl⟩
  | @entersToStart d run point =>
    rw [point] at hand
    obtain ⟨⟨⟨unpending, isLast⟩, unprepared⟩, made⟩ := hand
    have none : c.deed? .control = none := by simp [deed?, point]
    rw [none, Option.toList_none, List.nil_append]
    refine ⟨justified, isDir, isLast.symm, unprepared, d, isLast, ?_⟩
    rw [steps, unpending]
    exact made
  | takes point prepared =>
    rw [point] at hand
    obtain ⟨p, isPending, made⟩ := Settled.made hand prepared
    refine quiet (by simp [deed?, point]) isDir rfl ⟨rfl, p.1, lastPrepared_of_pending isPending, ?_⟩
    rw [steps, isPending]
    exact made
  | prepareAgain point unprepared last' =>
    rw [point] at hand
    exact quiet (by simp [deed?, point]) isDir rfl
      ⟨⟨Settled.pending hand unprepared, last.symm.trans last'⟩, fun _ => unprepared⟩
  | shows point | passes point | tells point =>
    rw [point, Holds] at hand
    refine quiet (by simp [deed?, point]) isDir rfl ?_
    simp only [atPoint_control, Holds]
    refine Holds.congr ?_ hand
    rfl
  | admits point | rejects point | lacks point | spawnsWorker point | spawnsMonitor point
  | unmarks point | forsakes point | yields point | givesBack point | asksToStop point
  | stopsNothing point | silences point | silencesAgain point | silencesNothing point
  | flushes point | restores point | advances point =>
    rw [point] at hand
    exact quiet (by simp [deed?, point]) isDir rfl hand

theorem Carries.happens {event : Event} (carries : Carries kind dir deeds c)
    (happened : c.happen? kind here event = some e) :
    Carries kind dir ((c.deed? event).toList ++ deeds) e := by
  have happens := happens_of_happen? happened
  have classesDir := happens.sameDirs.classesDir
  obtain ⟨justified, isDir, last, hand⟩ := carries
  have isDir' := classesDir.trans isDir
  have rests (prepared : e.prepared = c.prepared) (same : e.lastDescriptor = c.lastDescriptor)
      (control : e.control = c.control) : Carries kind dir deeds e :=
    ⟨justified, isDir', same.trans last, by rw [control]; exact Holds.congr prepared hand⟩
  cases happens with
  | controls step =>
    cases happened
    exact Carries.controls ⟨justified, isDir, last, hand⟩ step classesDir named_of_resolving
  | begins idle =>
    have settled : Settled kind dir deeds c := by
      rcases answered_of_idle idle with ⟨answer, point⟩ | ⟨fault, point⟩ <;>
      · rw [point] at hand
        exact hand
    refine ⟨justified, isDir', last, ?_⟩
    rename_i call
    cases call <;> exact settled
  | givesUp | closes => exact ⟨justified, isDir', last, trivial⟩
  | works _ _ step => cases step <;> exact rests rfl rfl rfl
  | tidies _ step => cases step <;> exact rests rfl rfl rfl
  | roams _ _ step => cases step <;> exact rests rfl rfl rfl
  | refuses _ forsakes =>
    refine ⟨justified, isDir', last, ?_⟩
    cases forsakes with
    | worker point | monitor point =>
      rw [point] at hand
      exact hand
  | _ => exact rests rfl rfl rfl

/-! ### What is launched -/

variable {settings : RunSettings} {hasListener : Bool} {rootPaths : List Path} {scratchDir : Path}
  {naming : Naming} {files : FileTree}

/-- On every course the deeds follow from one another. -/
theorem Course.carries
    (course : Course kind here
      (fresh settings hasListener (.fresh rootPaths dir scratchDir naming) files) deeds c) :
    Carries kind dir deeds c := by
  induction course with
  | start => exact .start ..
  | goesOn _ happened ih => exact ih.happens happened

/-- On every schedule, whatever succeeds, fails, is refused, stopped or stepped: what is launched is
what was prepared last, loaded by its name. So nothing is launched before a preparation has succeeded,
and as long as the last one has not failed, what is launched is what was last asked for. -/
theorem Course.launches_prepared
    (course : Course kind here
      (fresh settings hasListener (.fresh rootPaths dir scratchDir naming) files) deeds c)
    (launch : .launched run :: earlier <:+ deeds) :
    ∃ d, lastPrepared earlier = some d ∧ (∃ n, Made kind dir d n run) ∧
      (lastFailed earlier = false → lastAsked earlier = some d) := by
  cases course.carries.justified.suffix launch with
  | launched past last made =>
    exact ⟨_, last, ⟨_, made⟩, fun succeeded => (past.lastAsked succeeded).trans last⟩

/-- On every schedule: when steps were asked for while no run was active, and nothing was prepared or
launched since, the run that is launched next begins in the stepping mode exactly if a run was
prepared when the steps were asked for. One that the start has to prepare again does not. -/
theorem Course.step_kept {stepping : α → Bool} (switches : kind.Switches stepping)
    (course : Course kind here
      (fresh settings hasListener (.fresh rootPaths dir scratchDir naming) files) deeds c)
    (launch : .launched run :: (List.replicate n .stepped ++ earlier) <:+ deeds) (asked : 0 < n)
    (whole : ∀ earlier', earlier ≠ .stepped :: earlier') :
    stepping run.artifact = true ↔ ∃ d, earlier.head? = some (.prepared d) := by
  cases course.carries.justified.suffix launch with
  | launched past last made =>
    have isPrepared : (earlier.head?.bind Deed.prepared?).isSome = true ↔
        ∃ d, earlier.head? = some (.prepared d) := by
      rcases earlier with _ | ⟨⟨⟩ | ⟨⟩ | ⟨⟩ | ⟨⟩, earlier⟩ <;> simp [Deed.prepared?]
    rw [made.stepping switches, steps_replicate n whole, ← isPrepared, decide_eq_true_iff]
    split
    · exact iff_of_true asked ‹_›
    · exact iff_of_false (Nat.lt_irrefl 0) ‹_›

/-- What was done by some events in turn and the state after them; none if one of them cannot happen. -/
def deedsOf? (kind : ArtifactKind α) (here : Location) (deeds : List (Deed α)) (c : Controller α)
    (events : List Event) : Option (List (Deed α) × Controller α) :=
  events.foldlM
    (fun s event => (s.2.happen? kind here event).map fun e => ((s.2.deed? event).toList ++ s.1, e))
    (deeds, c)

theorem Course.of_deedsOf? {events : List Event} {deeds' : List (Deed α)}
    (course : Course kind here first deeds c)
    (happened : deedsOf? kind here deeds c events = some (deeds', e)) :
    Course kind here first deeds' e := by
  induction events generalizing deeds c with
  | nil =>
    cases happened
    exact course
  | cons event rest ih =>
    rw [deedsOf?, List.foldlM_cons] at happened
    obtain ⟨⟨_, next⟩, head, happened⟩ := Option.bind_eq_some_iff.mp happened
    obtain ⟨_, isNext, ⟨⟩⟩ := Option.map_eq_some_iff.mp head
    exact ih (course.goesOn isNext) happened

end Controller

namespace Rehearsal

/-- The run that was launched last, if that was the last thing done, and what was done before. -/
def launched? : List (Deed Artifact) → Option (Run Artifact × List (Deed Artifact))
  | .launched run :: earlier => some (run, earlier)
  | _ => none

theorem eq_of_launched? {deeds earlier : List (Deed Artifact)} {run : Run Artifact}
    (last : launched? deeds = some (run, earlier)) : deeds = .launched run :: earlier := by
  unfold launched? at last
  split at last
  · cases last
    rfl
  · cases last

/-- Whether a step was asked for last. -/
def stepAsked : List (Deed Artifact) → Bool
  | .stepped :: _ => true
  | _ => false

theorem eq_of_stepAsked {deeds : List (Deed Artifact)} (asked : stepAsked deeds = true) :
    ∃ earlier, deeds = .stepped :: earlier := by
  unfold stepAsked at asked
  split at asked
  · exact ⟨_, rfl⟩
  · cases asked

/-- Whether a step was asked for right after an executable was prepared. -/
def stepPrepared : List (Deed Artifact) → Bool
  | .stepped :: .prepared _ :: _ => true
  | _ => false

theorem eq_of_stepPrepared {deeds : List (Deed Artifact)} (asked : stepPrepared deeds = true) :
    ∃ d earlier, deeds = .stepped :: .prepared d :: earlier := by
  unfold stepPrepared at asked
  split at asked
  · exact ⟨_, _, rfl⟩
  · cases asked

/-- What some events come to that end with a launch is a course. -/
theorem course_of_launched? (kind : ArtifactKind Artifact) (here : Location)
    (first : Controller Artifact) (events : List Controller.Event)
    (p : Run Artifact × List (Deed Artifact) → Bool)
    (happened : ((Controller.deedsOf? kind here [] first events).bind fun s => launched? s.1).any p =
      true) :
    ∃ c run earlier, Controller.Course kind here first (.launched run :: earlier) c ∧
      p (run, earlier) = true := by
  obtain ⟨⟨run, earlier⟩, launch, holds⟩ := (Option.any_eq_true _ _).mp happened
  obtain ⟨⟨deeds, c⟩, done, last⟩ := Option.bind_eq_some_iff.mp launch
  have course := Controller.Course.start.of_deedsOf? done
  have isLast : deeds = .launched run :: earlier := eq_of_launched? last
  rw [isLast] at course
  exact ⟨c, run, earlier, course, holds⟩

/-- An executable that is not in the stage. -/
def absent : Descriptor := { staged with artifact := ⟨"/c/b"⟩ }

open Controller.Event in
/-- An executable is prepared; then one that is missing is to be prepared, and a run is started. -/
def misled : List Controller.Event :=
  call (.prepare staged) :: List.replicate 7 control ++
    call (.prepare absent) :: List.replicate 3 control ++
    call .start :: List.replicate 9 control

open Controller.Event in
/-- An executable is prepared, a step is asked for, and a run is started. -/
def observed : List Controller.Event :=
  call (.prepare staged) :: List.replicate 7 control ++
    call .step :: List.replicate 3 control ++ call .start :: List.replicate 3 control

open Controller.Event in
/-- An executable is prepared and run; when the run is over, a step is asked for. -/
def disregarded : List Controller.Event :=
  opening ++ List.replicate 5 (worker 1) ++ List.replicate 13 (monitor 1) ++
    call .step :: List.replicate 3 control

open Controller.Event in
/-- A run is started that has to be prepared first. -/
def restart : List Controller.Event := call .start :: List.replicate 10 control

end Rehearsal

open Rehearsal Deed in
/-- The rehearsed executable is launched. -/
theorem Controller.Course.launches_prepared_rehearsed :
    ∃ (c : Controller Artifact) (run : Run Artifact) (earlier : List (Deed Artifact)),
      Course twice [] seated (.launched run :: earlier) c ∧ lastFailed earlier = false ∧
        ∃ d, lastPrepared earlier = some d ∧ (∃ n, Made twice ⟨"/c"⟩ d n run) ∧
          (lastFailed earlier = false → lastAsked earlier = some d) := by
  obtain ⟨c, run, earlier, course, succeeded⟩ := course_of_launched? twice [] seated
    (disregarded ++ restart) (fun s => lastFailed s.2 = false) (by decide +kernel)
  exact ⟨c, run, earlier, course, of_decide_eq_true succeeded, course.launches_prepared
    (List.suffix_refl _)⟩

open Rehearsal Deed in
/-- When the executable that was last to be prepared is missing, a start launches the one that was
prepared before. -/
theorem Controller.Course.launches_abandoned :
    ∃ (c : Controller Artifact) (run : Run Artifact) (earlier : List (Deed Artifact)),
      Course twice [] seated (.launched run :: earlier) c ∧ lastFailed earlier = true ∧
        lastAsked earlier = some absent ∧ Path.below? ⟨"/c"⟩ absent.artifact ≠ some run.name := by
  obtain ⟨c, run, earlier, course, facts⟩ := course_of_launched? twice [] seated misled
    (fun s => lastFailed s.2 = true ∧ lastAsked s.2 = some absent ∧
      Path.below? ⟨"/c"⟩ absent.artifact ≠ some s.1.name) (by decide +kernel)
  exact ⟨c, run, earlier, course, of_decide_eq_true facts⟩

open Rehearsal Deed in
/-- A step that is asked for when the rehearsed executable is prepared reaches its run. -/
theorem Controller.Course.step_kept_rehearsed :
    ∃ (c : Controller Artifact) (run : Run Artifact) (d : Descriptor) (earlier : List (Deed Artifact)),
      Course twice [] seated (.launched run :: .stepped :: .prepared d :: earlier) c ∧
        run.artifact.bindings.singleStep = true := by
  obtain ⟨c, run, before, course, first⟩ := course_of_launched? twice [] seated observed
    (fun s => stepPrepared s.2) (by decide +kernel)
  obtain ⟨d, earlier, rfl⟩ := eq_of_stepPrepared first
  exact ⟨c, run, d, earlier, course, (course.step_kept (switches _) (n := 1)
    (List.suffix_refl _) Nat.one_pos (by simp)).mpr ⟨d, rfl⟩⟩

open Rehearsal Deed in
/-- A step that is asked for when the rehearsed run is over, and no other is prepared, is shown, but the
next run does not begin in the stepping mode. -/
theorem Controller.Course.step_lost :
    ∃ (deeds earlier : List (Deed Artifact)) (b c : Controller Artifact) (run : Run Artifact),
      Course twice [] seated (.stepped :: deeds) b ∧ b.idle = true ∧ b.isActive = false ∧
        b.transport = .stepped ∧
        deedsOf? twice [] (.stepped :: deeds) b restart = some (.launched run :: earlier, c) ∧
        run.artifact.bindings.singleStep = false := by
  have happened : ((deedsOf? twice [] [] seated disregarded).any fun s =>
      stepAsked s.1 && (s.2.idle && !s.2.isActive && s.2.transport == .stepped) &&
      ((deedsOf? twice [] s.1 s.2 restart).bind fun t => launched? t.1).any fun r =>
        !r.1.artifact.bindings.singleStep) = true := by decide +kernel
  obtain ⟨⟨before, b⟩, done, facts⟩ := (Option.any_eq_true _ _).mp happened
  simp only [Bool.and_eq_true, Bool.not_eq_true', beq_iff_eq] at facts
  obtain ⟨⟨first, ⟨⟨idle, inactive⟩, shown⟩⟩, launch⟩ := facts
  obtain ⟨⟨run, earlier⟩, launch, mode⟩ := (Option.any_eq_true _ _).mp launch
  obtain ⟨⟨deeds', c⟩, restarted, last⟩ := Option.bind_eq_some_iff.mp launch
  have isLast : deeds' = .launched run :: earlier := eq_of_launched? last
  subst isLast
  obtain ⟨deeds, rfl⟩ := eq_of_stepAsked first
  exact ⟨deeds, earlier, b, c, run, Course.start.of_deedsOf? done, idle, inactive, shown, restarted,
    by simpa using mode⟩

end SimWorkbench
