import SimWorkbench.Proofs.Build.Invocation
import SimWorkbench.Proofs.Context.Furnishing
import SimWorkbench.Proofs.Control.Numbering

/-!
# What is prepared

Whatever happened to a controller, its arena has the directories that it was made with, and its stage
shows the executables. So an idle controller that is to prepare an executable below them finds it,
if the scratch directory can be used, and loads what it found; what can fail after that is no longer
a matter of where executables are.
-/
namespace SimWorkbench

namespace Arena

variable {a a' : Arena} {files : FileTree} {here : Location} {classesDir scratchDir : Path}

/-- What holds of an arena with some directories, whatever was asked of it. -/
structure Tended (a : Arena) (here : Location) (classesDir scratchDir : Path) : Prop where
  forest : a.Forest
  classesDir : a.classesDir = classesDir
  scratchDir : a.scratchDir = scratchDir
  furnished : a.Furnished here (a.scratchPath here) a.classesDir

theorem Tended.fresh (here : Location) (rootPaths : List Path) (classesDir scratchDir : Path)
    (naming : Naming) :
    (Arena.fresh rootPaths classesDir scratchDir naming).Tended here classesDir scratchDir :=
  ⟨.fresh .., rfl, rfl, Furnished.fresh here _ classesDir rootPaths scratchDir naming⟩

theorem Tended.perform (tended : a.Tended here classesDir scratchDir)
    (proper : ∀ name ∈ here, Path.IsName name) (files : FileTree) (call : ArenaCall) :
    (a.perform files here call).2.1.Tended here classesDir scratchDir := by
  obtain ⟨forest, isClasses, isScratch, furnished⟩ := tended
  obtain ⟨sameClasses, sameScratch, -⟩ := a.sameDirs_perform files here call
  refine ⟨forest.perform files here call, sameClasses.trans isClasses,
    sameScratch.trans isScratch, ?_⟩
  rw [sameClasses, scratchPath, sameScratch]
  exact furnished.perform forest proper files call

theorem Tended.afterCalls (tended : a.Tended here classesDir scratchDir)
    (proper : ∀ name ∈ here, Path.IsName name) (calls : List (FileTree × ArenaCall)) :
    (a.afterCalls here calls).Tended here classesDir scratchDir := by
  induction calls generalizing a with
  | nil => exact tended
  | cons x calls ih => exact ih (tended.perform proper x.1 x.2)

theorem next_without (a : Arena) (n : ContextNode) : (a.without n).next = a.next := by
  have collects : ∀ (b : Arena) (c : ContextId), (b.collect c).next = b.next := by
    intro b c
    unfold collect
    split
    · rfl
    · split <;> rfl
  have rest : (if (a.discard n.id).current = n.id then
      { a.discard n.id with current := (a.discard n.id).currentStage.getD rootId }
      else a.discard n.id).next = a.next := by
    split <;> rfl
  simp only [without]
  cases n.parent with
  | none => exact rest
  | some s => exact (collects _ s).trans rest

/-- Taking a context away leaves what is needed to load an executable. -/
theorem Usable.dispose {first second : String} {l : Location} {e : Entry} (c : ContextId)
    (usable : a.Usable here files) (tended : a.Tended here classesDir scratchDir)
    (proper : ∀ name ∈ here, Path.IsName name)
    (isFirst : Path.IsName first) (isSecond : Path.IsName second)
    (others : ∀ name ∈ [first, second], ¬ IsRunName name)
    (located : files.locate here ((a.classesDir.child first).child second) = .ok (l, e)) :
    let (files', a', _) := a.dispose files here c
    a'.Usable here files' ∧
      files'.locate here ((a.classesDir.child first).child second) = .ok (l, e) := by
  have same := a.sameDirs_perform files here (.dispose c)
  rcases a.dispose_cases files here c with ⟨-, refused⟩ | ⟨n, -, -, refused⟩ | ⟨n, found, -, gone⟩
  · rw [refused]
    exact ⟨usable, located⟩
  · rw [refused]
    exact ⟨usable, located⟩
  · have fit := tended.furnished n (mem_of_node? found).1
    simp only [Arena.perform, gone] at same ⊢
    exact ⟨(usable.withoutCopy fit proper).congr same (a.next_without n),
      usable.keeps fit isFirst isSecond others located⟩

end Arena

/-- No private directory has the name of a package or of a type. -/
theorem SourceUnit.IsWord.not_isRunName {name : String} (word : IsWord name) :
    ¬ Arena.IsRunName name := by
  rintro ⟨-, rest, rfl⟩
  exact word.not_mem (c := '-') (by decide) (by simp)

namespace ControlPoint

variable {α : Type}

/-- Whether the control thread is past the point where an executable can be missing. -/
def Past : ControlPoint α → Prop
  | loading .. | binding .. | entering .. | launching ..
  | spawningWorker .. | spawningMonitor .. => True
  | abandoning _ _ fault | givingBack fault => ∀ e, fault ≠ .resolution e
  | answered answer => ∀ e, answer ≠ .failed (.resolution e)
  | showing _ next | telling _ next => next.Past
  | _ => False

theorem past_afterFault {fault : ControlFault} (starting : Bool)
    (other : ∀ e, fault ≠ .resolution e) :
    (Controller.afterFault starting fault : ControlPoint α).Past := by
  cases starting with
  | true => exact other
  | false => exact fun e same => other e (Answer.failed.inj same)

end ControlPoint

namespace Controller

variable {α : Type} {kind : ArtifactKind α} {here : Location} {c d : Controller α}

/-- On every schedule the arena is in order. -/
theorem tended_of_reaches {allows : Controller α → Event → Prop} {settings : RunSettings}
    {hasListener : Bool} {rootPaths : List Path} {classesDir scratchDir : Path} {naming : Naming}
    {files : FileTree} (proper : ∀ name ∈ here, Path.IsName name)
    (reaches : Reaches kind here allows
      (fresh settings hasListener (.fresh rootPaths classesDir scratchDir naming) files) c) :
    c.arena.Tended here classesDir scratchDir := by
  refine reaches.invariant (P := fun c => c.arena.Tended here classesDir scratchDir)
    (.fresh here rootPaths classesDir scratchDir naming) fun tended _ happens => ?_
  obtain ⟨calls, same⟩ := happens.calls
  exact same ▸ tended.afterCalls proper calls

/-- Once an executable was found, no step says that it was not. -/
theorem past_of_controls (step : Controls kind here c d) (past : c.control.Past) :
    d.control.Past := by
  cases step with
  | waits => exact past
  | abandons point =>
    rw [point] at past
    exact ControlPoint.past_afterFault _ past
  | givesBack point =>
    rw [point] at past
    exact fun e same => past e (Answer.failed.inj same)
  | shows point | passes point | tells point =>
    rw [point] at past
    exact past
  | _ => simp_all [ControlPoint.Past]

theorem past_finishCall (n : Nat) (past : c.control.Past) (e : ResolutionError) :
    (c.finishCall kind here n).2 ≠ .failed (.resolution e) := by
  induction n generalizing c with
  | zero => exact nofun
  | succ n ih =>
    unfold finishCall
    split
    · rename_i point
      rw [point] at past
      exact past e
    · exact ih (past_of_controls (controls_stepControl kind here c) past)

/-- The state in which an idle controller that is to prepare an artifact has resolved it. -/
def resolving (kind : ArtifactKind α) (here : Location) (c : Controller α) (d : Descriptor) :
    Controller α :=
  (((c.begin (.prepare d)).stepControl kind here).stepControl kind here).stepControl kind here

/-- What a controller keeps of its state when it gives up what it had prepared. -/
structure Discards (here : Location) (c d : Controller α) (descriptor : Descriptor) : Prop where
  control : d.control = .resolving descriptor false
  nextRun : d.nextRun = c.nextRun + 1
  disposed : (d.files = c.files ∧ d.arena = c.arena) ∨ ∃ context,
    d.files = (c.arena.dispose c.files here context).1 ∧
    d.arena = (c.arena.dispose c.files here context).2.1

/-- Before it resolves an artifact, an idle controller at most gives up what it had prepared. -/
theorem discards_of_prepare (inactive : c.isActive = false) (descriptor : Descriptor) :
    c.Discards here (((c.begin (.prepare descriptor)).stepControl kind here).stepControl kind here)
      descriptor := by
  have asked : (c.begin (.prepare descriptor)).stepControl kind here =
      c.atPoint (.discarding descriptor false) := by
    have free : ({ c with control := .asking descriptor } : Controller α).isActive = false :=
      inactive
    simp only [begin, Call.entry, stepControl, free]
    rfl
  rw [asked]
  cases prepared : c.prepared with
  | none =>
    simp only [stepControl, atPoint, prepared]
    exact ⟨rfl, rfl, .inl ⟨rfl, rfl⟩⟩
  | some run =>
    simp only [stepControl, atPoint, prepared]
    exact ⟨rfl, rfl, .inr ⟨run.context, rfl, rfl⟩⟩

theorem resolve_of_load {descriptor : Descriptor} {name : Path} {files : FileTree} {arena : Arena}
    {loaded : LoadedArtifact}
    (named : c.arena.classesDir.below? descriptor.artifact = some name)
    (loads : c.arena.createRun.1.load c.files here c.arena.createRun.2 name =
      (files, arena, .ok loaded)) :
    c.resolve here descriptor =
      (c.withArena files arena, .ok (loaded, arena.searchPath c.arena.createRun.2)) := by
  have sameDirs : c.arena.createRun.1.classesDir = c.arena.classesDir := c.arena.sameDirs_stage.1
  simp only [resolve, artifactName, sameDirs, named, loads]
  rfl

/-- An idle controller finds the executable of a unit and loads a copy of it. -/
theorem loading_of_prepare (kind : ArtifactKind α) {descriptor : Descriptor} {u : SourceUnit}
    {content : Bytes} {classesDir scratchDir : Path}
    (tended : c.arena.Tended here classesDir scratchDir)
    (proper : ∀ name ∈ here, Path.IsName name) (inactive : c.isActive = false)
    (usable : c.arena.Usable here c.files) (declared : u.Declared)
    (named : classesDir.below? descriptor.artifact = some ⟨u.package ++ "/" ++ u.typeName⟩)
    (isFile : c.files.isFile here ((classesDir.child u.package).child u.typeName) = true)
    (readable : c.files.read here ((classesDir.child u.package).child u.typeName) = .ok content) :
    ∃ loaded places,
      (c.resolving kind here descriptor).control =
        .loading descriptor false c.nextRun loaded places ∧
      loaded.name = ⟨u.package ++ "/" ++ u.typeName⟩ ∧
      (c.resolving kind here descriptor).files.read here loaded.executable = .ok content := by
  obtain ⟨package, typeName⟩ := declared.words
  have others : ∀ name ∈ [u.package, u.typeName], ¬ Arena.IsRunName name := by
    simp [package.not_isRunName, typeName.not_isRunName]
  have discards : c.Discards here
      (((c.begin (.prepare descriptor)).stepControl kind here).stepControl kind here) descriptor :=
    discards_of_prepare inactive descriptor
  unfold resolving
  generalize ((c.begin (.prepare descriptor)).stepControl kind here).stepControl kind here = d
    at discards ⊢
  obtain ⟨control, nextRun, disposed⟩ := discards
  -- What was given up is not the executable.
  obtain ⟨e, located, file⟩ := FileTree.locate_of_isFile isFile
  obtain ⟨_, _, located', isContent⟩ := FileTree.read_ok_iff.mp readable
  cases located.symm.trans located'
  generalize ((classesDir.child u.package).child u.typeName).location here = l at located
  have ready : d.arena.Tended here classesDir scratchDir ∧ d.arena.Usable here d.files ∧
      d.files.locate here ((classesDir.child u.package).child u.typeName) = .ok (l, e) := by
    rcases disposed with ⟨files, arena⟩ | ⟨context, files, arena⟩
    · rw [files, arena]
      exact ⟨tended, usable, located⟩
    · rw [files, arena]
      refine ⟨tended.perform proper c.files (.dispose context), ?_⟩
      rw [← tended.classesDir] at located ⊢
      exact usable.dispose context tended proper package.isName typeName.isName others located
  obtain ⟨tended, usable, located⟩ := ready
  have isFile : d.files.isFile here ((classesDir.child u.package).child u.typeName) = true := by
    simp [FileTree.isFile, FileTree.entryAt?, located, Except.toOption, file]
  have reads := FileTree.read_ok_iff.mpr ⟨_, e, located, isContent⟩
  rw [← tended.classesDir] at isFile reads
  obtain ⟨files, arena, loaded, loads, isNamed, copied⟩ := usable.load tended.forest
    tended.furnished proper package.isName typeName.isName (typeName.not_mem (by decide)) isFile reads
  have resolved := resolve_of_load (tended.classesDir.symm ▸ named) loads
  simp only [stepControl, control, resolved]
  exact ⟨loaded, _, by rw [withArena_nextRun, nextRun]; rfl, isNamed, copied⟩

/-- Where a call was answered, steps of the control thread change nothing more. -/
theorem finishCall_succ (n : Nat) (c : Controller α) :
    c.finishCall kind here (n + 2) = (c.stepControl kind here).finishCall kind here (n + 1) := by
  rw [finishCall]
  split
  · rename_i answer point
    have waits : c.stepControl kind here = c := by rw [stepControl, point]
    rw [waits, finishCall, point]
  · rfl

/-- A controller that finds the executable never answers that it does not. -/
theorem prepare_ne_of_loading {descriptor : Descriptor} {starting : Bool} {id : Nat}
    {loaded : LoadedArtifact} {places : List Path}
    (loading : (c.resolving kind here descriptor).control =
      .loading descriptor starting id loaded places) (e : ResolutionError) :
    (c.perform kind here (.prepare descriptor)).2 ≠ .failed (.resolution e) := by
  have past : (c.resolving kind here descriptor).control.Past := by
    rw [loading]
    exact trivial
  have steps : c.perform kind here (.prepare descriptor) =
      (c.resolving kind here descriptor).finishCall kind here 37 := by
    rw [perform, callSteps, finishCall_succ, finishCall_succ, finishCall_succ, resolving]
  rw [steps]
  exact past_finishCall 37 past e

end Controller
end SimWorkbench
