import SimWorkbench.Project.Workplace
import SimWorkbench.Proofs.Control.Supplying
import SimWorkbench.Proofs.Path.Spelling
import SimWorkbench.Tool.Run

/-!
# Where compilers and programs search

What is on the classpath of a project is told to its compilers and is in sight of its runs. A program
is told of it in a variable, as long as none of the places has a colon, and it works in another
directory than the compilers. So a place that is seen from the root is the same for both; a place
that the surroundings give as seen from the current directory is not.
-/
namespace SimWorkbench

/-! ### Lists of paths in variables -/

namespace Path

theorem joinList?_of_colon {paths : List Path} {p : Path} (member : p ∈ paths)
    (colon : ':' ∈ p.text.toList) : joinList? paths = none := by
  unfold joinList?
  rw [if_pos]
  exact List.any_eq_true.mpr ⟨p, member, List.contains_iff_mem.mpr colon⟩

theorem joinList?_of_noColon {paths : List Path} (noColon : ∀ p ∈ paths, ':' ∉ p.text.toList) :
    joinList? paths = some (":".intercalate (paths.map text)) := by
  unfold joinList?
  rw [if_neg]
  rw [List.any_eq_true]
  rintro ⟨p, member, colon⟩
  exact noColon p member (List.contains_iff_mem.mp colon)

theorem noColon_of_mem_splitList {list : String} {p : Path} (member : p ∈ splitList list) :
    ':' ∉ p.text.toList := by
  obtain ⟨piece, isPiece, rfl⟩ := List.mem_map.mp member
  rw [String.toList_ofList]
  exact not_mem_of_mem_splitOn list.toList piece isPiece

/-- Paths that were joined are found again, one by one. -/
theorem splitList_intercalate {paths : List Path} (noColon : ∀ p ∈ paths, ':' ∉ p.text.toList)
    (notEmpty : paths ≠ []) : splitList (":".intercalate (paths.map text)) = paths := by
  have pieces : (":".intercalate (paths.map text)).toList.splitOn ':' =
      paths.map fun p => p.text.toList := by
    rw [String.toList_intercalate, List.map_map]
    apply List.splitOn_intercalate
    · intro piece member
      obtain ⟨p, isPath, rfl⟩ := List.mem_map.mp member
      exact noColon p isPath
    · simpa using notEmpty
  rw [splitList, pieces, List.map_map]
  simp [Function.comp_def]

end Path

namespace Surroundings

variable {s : Surroundings} {name other value : String}

theorem lookup_set_self (s : Surroundings) (name value : String) :
    (s.set name value).vars.lookup name = some value := by
  have dropped : (s.vars.filter fun v => v.1 ≠ name).lookup name = none := by
    rw [List.lookup_eq_none_iff]
    intro v member
    have different : v.1 ≠ name := of_decide_eq_true (List.mem_filter.mp member).2
    exact bne_iff_ne.mpr different.symm
  rw [set, List.lookup_append, dropped, Option.none_or, List.lookup_cons_self]

theorem lookup_set_other (s : Surroundings) (value : String) (different : other ≠ name) :
    (s.set name value).vars.lookup other = s.vars.lookup other := by
  have notName : (other == name) = false := beq_false_of_ne different
  have kept : (s.vars.filter fun v => v.1 ≠ name).lookup other = s.vars.lookup other := by
    induction s.vars with
    | nil => rfl
    | cons v vars ih =>
      by_cases isName : v.1 = name
      · rw [List.filter_cons_of_neg (by simpa using isName), ih, List.lookup_cons, isName, notName]
      · rw [List.filter_cons_of_pos (by simpa using isName), List.lookup_cons, List.lookup_cons, ih]
  rw [set, List.lookup_append, kept, List.lookup_cons, notName, List.lookup_nil, Option.or_none]

end Surroundings

/-! ### What a program is told -/

/-- Whether the variables of a program name the places where it is to search: those alone to the
program itself, and those before others to whoever loads its libraries. -/
structure Exports (vars : List (String × String)) (searchPath : List Path) : Prop where
  classpath : ∃ list, vars.lookup ProcessArtifact.classpathVariable = some list ∧
    Path.splitList list = searchPath
  libraries : ∃ list others, vars.lookup ProcessArtifact.libraryVariable = some list ∧
    Path.splitList list = searchPath ++ others

namespace ProcessArtifact

variable {around : Surroundings} {supply searchPath : List Path} {dir : Path}
  {a a' : ProcessArtifact} {scene scene' : Scene}

theorem surroundings_of_noColon (around : Surroundings)
    (noColon : ∀ p ∈ searchPath, ':' ∉ p.text.toList) :
    ∃ others, (∀ p ∈ others, ':' ∉ p.text.toList) ∧ surroundings around searchPath =
      (around.set classpathVariable (":".intercalate (searchPath.map Path.text))).set libraryVariable
        ((Path.joinList? (searchPath ++ others)).getD "") := by
  unfold surroundings
  rw [Path.joinList?_of_noColon noColon]
  cases inherited : around.vars.lookup libraryVariable with
  | none => exact ⟨[], by simp, rfl⟩
  | some old => exact ⟨Path.splitList old, fun p => Path.noColon_of_mem_splitList, rfl⟩

theorem exports_surroundings (around : Surroundings)
    (noColon : ∀ p ∈ searchPath, ':' ∉ p.text.toList) (notEmpty : searchPath ≠ []) :
    Exports (surroundings around searchPath).vars searchPath := by
  obtain ⟨others, noColonOthers, same⟩ := surroundings_of_noColon around noColon
  have noColonAll : ∀ p ∈ searchPath ++ others, ':' ∉ p.text.toList := by
    intro p member
    rcases List.mem_append.mp member with own | other
    · exact noColon p own
    · exact noColonOthers p other
  rw [same]
  constructor
  · refine ⟨_, ?_, Path.splitList_intercalate noColon notEmpty⟩
    rw [Surroundings.lookup_set_other _ _ (by decide), Surroundings.lookup_set_self]
  · refine ⟨_, others, Surroundings.lookup_set_self _ _ _, ?_⟩
    rw [Path.joinList?_of_noColon noColonAll, Option.getD_some]
    exact Path.splitList_intercalate noColonAll (by simp [notEmpty])

/-- Places that cannot be told apart in a list are not told at all. -/
theorem surroundings_of_colon {p : Path} (around : Surroundings) (member : p ∈ searchPath)
    (colon : ':' ∈ p.text.toList) : surroundings around searchPath = around := by
  rw [surroundings, Path.joinList?_of_colon member colon]

theorem here_surroundings (around : Surroundings) (searchPath : List Path) :
    (surroundings around searchPath).here = around.here := by
  unfold surroundings
  split <;> rfl

end ProcessArtifact

/-- A program finds the variables around it, and begins in the directory it is to work in. -/
theorem Program.of_start {around : Surroundings} {files : FileTree} {dir : Option Path}
    {name : String} {arguments : List String} {program : Program}
    (started : Program.start around files dir name arguments = .ok program) :
    program.vars = around.vars ∧ Program.workPlace files around.here dir = .ok program.directory := by
  simp only [Program.start, bind, Except.bind, pure, Except.pure] at started
  split at started
  · cases started
  cases placed : Program.workPlace files around.here dir with
  | error e =>
    rw [placed] at started
    cases started
  | ok place =>
    rw [placed] at started
    simp only at started
    split at started
    · split at started <;> cases started
      exact ⟨rfl, rfl⟩
    · split at started
      · cases started
      · split at started <;> cases started
        exact ⟨rfl, rfl⟩

namespace ProcessArtifact

variable {around : Surroundings} {supply searchPath : List Path} {dir : Path}
  {a a' : ProcessArtifact} {scene scene' : Scene}

/-- Where a process comes from that is under way after a step: it was under way before, or it was
started with the places that the artifact sees. -/
inductive Descends (around : Surroundings) (files : FileTree) (a : ProcessArtifact)
    (program : Program) : Prop
  | goesOn {r : ProcessRun} (live : a.stage = .live r) (same : program = r.program)
  | starts (started : Program.start (surroundings around a.searchPath) files a.workDir
      a.executable.text [] = .ok program)

/-- What a step of an artifact keeps. -/
structure Descent (around : Surroundings) (files : FileTree) (a a' : ProcessArtifact) : Prop where
  searchPath : a'.searchPath = a.searchPath
  workDir : a'.workDir = a.workDir
  program : ∀ r, a'.stage = .live r → Descends around files a r.program

theorem descent_converse {r : ProcessRun} (live : a.stage = .live r)
    (next : (a.converse r scene).next? = some (a', scene')) : Descent around scene.files a a' := by
  unfold converse at next
  cases step : r.host.step? scene.channel r.listening with
  | none => simp [step, Advance.next?] at next
  | some moved =>
    obtain ⟨host, channel⟩ := moved
    simp only [step] at next
    cases next
    refine ⟨rfl, rfl, ?_⟩
    rintro _ ⟨⟩
    refine .goesOn live ?_
    split <;> rfl

theorem descent_advance (next : (a.advance around scene).next? = some (a', scene')) :
    Descent around scene.files a a' := by
  unfold advance at next
  cases stage : a.stage with
  | ready =>
    simp only [stage, begin] at next
    split at next
    · cases next
      exact ⟨rfl, rfl, by rintro _ ⟨⟩⟩
    · rename_i program started
      cases next
      refine ⟨rfl, rfl, ?_⟩
      rintro _ ⟨⟩
      exact .starts started
  | live r =>
    simp only [stage, goOn] at next
    split at next
    · cases pending : r.pending with
      | cons line rest =>
        simp only [pending] at next
        cases next
        refine ⟨rfl, rfl, ?_⟩
        rintro _ ⟨⟩
        exact .goesOn stage rfl
      | nil =>
        simp only [pending] at next
        cases ending : r.progress.ending with
        | ended status =>
          simp only [ending] at next
          cases next
          exact ⟨rfl, rfl, by rintro _ ⟨⟩⟩
        | waiting =>
          simp only [ending] at next
          exact descent_converse stage next
    · exact descent_converse stage next
  | _ =>
    simp only [stage] at next
    cases next
    refine ⟨rfl, rfl, fun r live => ?_⟩
    rw [stage] at live
    cases live

/-- Whether an artifact has a supply in sight and works in a directory, and its process, if it is
under way, was told of all that is in sight and began in that directory. -/
structure Equipped (around : Surroundings) (supply : List Path) (dir : Path) (a : ProcessArtifact) :
    Prop where
  sees : supply <:+: a.searchPath
  works : a.workDir = some dir
  told : ∀ r, a.stage = .live r → r.program.vars = (surroundings around a.searchPath).vars
  placed : ∀ r, a.stage = .live r →
    ∃ files, Program.workPlace files around.here (some dir) = .ok r.program.directory

theorem Equipped.descent {files : FileTree} (equipped : Equipped around supply dir a)
    (descent : Descent around files a a') : Equipped around supply dir a' := by
  obtain ⟨sees, works, told, placed⟩ := equipped
  constructor
  · rw [descent.searchPath]
    exact sees
  · rw [descent.workDir]
    exact works
  · intro r live
    rw [descent.searchPath]
    cases descent.program r live with
    | goesOn before same => rw [same, told _ before]
    | starts started => exact (Program.of_start started).1
  · intro r live
    cases descent.program r live with
    | goesOn before same =>
      rw [same]
      exact placed _ before
    | starts started =>
      have inDir := (Program.of_start started).2
      rw [here_surroundings, works] at inDir
      exact ⟨files, inDir⟩

/-- Artifacts that are programs stay equipped with what was in sight when they were loaded. -/
theorem ensures (around : Surroundings) (supply : List Path) (dir : Path) :
    (kind around (some dir)).Ensures supply (Equipped around supply dir) where
  load := by
    intro files loaded places notes a sees done
    simp only [kind] at done
    split at done
    · cases done
      exact ⟨sees, rfl, by rintro _ ⟨⟩, by rintro _ ⟨⟩⟩
    · cases done
  bind := fun _ _ equipped => ⟨equipped.sees, equipped.works, equipped.told, equipped.placed⟩
  setSingleStep := fun _ _ equipped =>
    ⟨equipped.sees, equipped.works, equipped.told, equipped.placed⟩
  advance := fun _ _ _ _ equipped next => equipped.descent (descent_advance next)

end ProcessArtifact

/-- Writing changes of properties to the output of the host changes nothing of artifacts. -/
theorem ArtifactKind.Ensures.echoing {α : Type} {kind : ArtifactKind α} {supply : List Path}
    {keeps : α → Prop} (ensures : kind.Ensures supply keeps) (text : PropertyChange → String) :
    (kind.echoing text).Ensures supply keeps where
  load := ensures.load
  bind := ensures.bind
  setSingleStep := ensures.setSingleStep
  advance := by
    intro a s a' s' keeps next
    simp only [ArtifactKind.echoing] at next
    cases advanced : kind.advance a s with
    | blocked =>
      rw [advanced] at next
      cases next
    | went artifact after | ended artifact after ending =>
      rw [advanced] at next
      cases next
      exact ensures.advance a s _ after keeps (by rw [advanced]; rfl)

/-! ### Where a place lies -/

/-- A place that is seen from the root is looked up alike from everywhere. -/
theorem FileTree.locate_of_absolute {p : Path} (absolute : p.isAbsolute = true) (t : FileTree)
    (here here' : Location) : t.locate here p = t.locate here' p := by
  have walk : t.walk here p = t.walk here' p := by
    unfold FileTree.walk
    simp only [absolute, if_true]
  unfold FileTree.locate
  rw [walk]

theorem Location.foldl_enter_of_noParent {names : List String} (noParent : ".." ∉ names)
    (here : Location) : names.foldl Location.enter here = here ++ names.filter (· ≠ ".") := by
  induction names generalizing here with
  | nil => simp
  | cons name names ih =>
    rw [List.mem_cons, not_or] at noParent
    obtain ⟨notParent, noParent⟩ := noParent
    rw [List.foldl_cons, ih noParent]
    by_cases single : name = "."
    · simp [Location.enter, single]
    · simp [Location.enter, single, Ne.symm notParent]

/-- A place that is not seen from the root leads elsewhere from every other directory, unless it goes
up. -/
theorem Path.location_eq_iff {p : Path} (relative : p.isAbsolute = false) (noParent : ".." ∉ p.names)
    (here here' : Location) : p.location here = p.location here' ↔ here = here' := by
  unfold Path.location Path.start
  rw [relative, Location.foldl_enter_of_noParent noParent,
    Location.foldl_enter_of_noParent noParent]
  exact List.append_left_inj _

theorem Path.isAbsolute_join_of_root {root : Path} (absolute : root.isAbsolute = true) (q : Path) :
    (root.join q).isAbsolute = true := by
  cases isAbsolute : q.isAbsolute with
  | true => rwa [Path.join, if_pos isAbsolute]
  | false => rw [Path.isAbsolute_join isAbsolute, absolute]

/-! ### The classpath of a project -/

namespace Project

variable {root : Path} {settings : ProjectSettings} {more : Option String} {around : Surroundings}
  {place : Path}

/-- Every place on the list was there before or comes from the text that is added. -/
theorem mem_addPlaces {places : List Path} {list : String} (member : place ∈ addPlaces places list) :
    place ∈ places ∨ place ∈ Path.splitList list ∧ place.text.isEmpty = false := by
  unfold addPlaces at member
  generalize Path.splitList list = entries at member ⊢
  induction entries generalizing places with
  | nil => exact .inl member
  | cons entry entries ih =>
    rw [List.foldl_cons] at member
    rcases ih member with before | ⟨later, named⟩
    · split at before
      · exact .inl before
      · rename_i new
        rcases List.mem_append.mp before with old | added
        · exact .inl old
        · rw [List.mem_singleton.mp added]
          rw [Bool.or_eq_true, not_or] at new
          exact .inr ⟨List.mem_cons_self, by simpa using new.1⟩
    · exact .inr ⟨List.mem_cons_of_mem _ later, named⟩

/-- Only the surroundings give places that are not seen from the root. -/
theorem given_of_relative (absolute : root.isAbsolute = true)
    (member : place ∈ ((resolve root settings more).workshop around).site.classpath)
    (relative : place.isAbsolute = false) :
    ∃ list, more = some list ∧ place ∈ Path.splitList list := by
  have joined : ∀ q, place ≠ root.join q := by
    rintro q rfl
    rw [Path.isAbsolute_join_of_root absolute] at relative
    cases relative
  rcases List.mem_append.mp member with onPath | isClasses
  · rcases mem_addPlaces onPath with configured | ⟨given, named⟩
    · obtain ⟨q, -, same⟩ := List.mem_map.mp configured
      exact absurd same.symm (joined q)
    · cases more with
      | some list => exact ⟨list, rfl, given⟩
      | none =>
        -- An empty text is one empty path, which is not added.
        have empty : place = ⟨""⟩ := by simpa [Path.splitList] using given
        rw [empty] at named
        cases named
  · exact absurd (List.mem_singleton.mp isClasses) (joined _)

/-- What a program has of the classpath: all of it is in sight of its run; what is in sight is told
if the places can be told apart, and else nothing is; it begins where the reports go, and the places
that are seen from the root are there what they are to the compilers. -/
structure Provides (p : Project) (around : Surroundings) (searchPath : List Path)
    (program : Program) : Prop where
  sees : ∀ place ∈ (p.workshop around).site.classpath, place ∈ searchPath
  exported : (∀ q ∈ searchPath, ':' ∉ q.text.toList) → Exports program.vars searchPath
  withheld : ∀ q ∈ searchPath, ':' ∈ q.text.toList → program.vars = around.vars
  placed : ∃ files : FileTree,
    files.locate around.here p.reportsDir = .ok (program.directory, .directory)
  same : ∀ place ∈ (p.workshop around).site.classpath, place.isAbsolute = true →
    ∀ files : FileTree, files.locate program.directory place = files.locate around.here place

theorem mem_searchPath {p : Project} {home : Option Path} {searchPath : List Path}
    (sees : p.layout.classesDir :: p.rootPlaces home <:+: searchPath)
    (member : place ∈ (p.workshop around).site.classpath) : place ∈ searchPath := by
  apply sees.subset
  rcases List.mem_append.mp member with onPath | isClasses
  · exact List.mem_cons_of_mem _ (List.mem_append_right _ onPath)
  · rw [List.mem_singleton.mp isClasses]
    exact List.mem_cons_self

theorem located_of_workPlace {files : FileTree} {here place' : Location} {dir : Path}
    (works : Program.workPlace files here (some dir) = .ok place') :
    files.locate here dir = .ok (place', .directory) := by
  simp only [Program.workPlace] at works
  split at works
  · cases works
    assumption
  · cases works
  · cases works

theorem provides_of_equipped {p : Project} {home : Option Path} {artifact : ProcessArtifact}
    {r : ProcessRun} (live : artifact.stage = .live r)
    (equipped : ProcessArtifact.Equipped around (p.layout.classesDir :: p.rootPlaces home)
      p.reportsDir artifact) :
    p.Provides around artifact.searchPath r.program where
  sees := fun _ member => mem_searchPath equipped.sees member
  exported := by
    intro noColon
    rw [equipped.told r live]
    apply ProcessArtifact.exports_surroundings around noColon
    intro empty
    have sees := equipped.sees.subset List.mem_cons_self
    rw [empty] at sees
    cases sees
  withheld := by
    intro q member colon
    rw [equipped.told r live, ProcessArtifact.surroundings_of_colon around member colon]
  placed := by
    obtain ⟨files, works⟩ := equipped.placed r live
    exact ⟨files, located_of_workPlace works⟩
  same := fun _ _ absolute files => files.locate_of_absolute absolute _ _

/-- Compilers and runs of a project search the same places. Whatever has happened in a session,
every place on the classpath of the compilers is in sight of every run context, and a program that
is under way has what `Provides` says. A place on the classpath that is not seen from the root was
given by the surroundings, and unless it goes up it leads elsewhere from the directory of a program,
if that is not the current one. -/
theorem classpath_reaches_runs (root : Path) (settings : ProjectSettings) (more : Option String)
    (absolute : root.isAbsolute = true) (around : Surroundings) (home : Option Path)
    (kind : ArtifactKind ProcessArtifact)
    (isKind : kind = (resolve root settings more).artifactKind around ∨
      ∃ text, kind = ((resolve root settings more).artifactKind around).echoing text)
    (allows : Controller ProcessArtifact → Controller.Event → Prop) (runSettings : RunSettings)
    (hasListener : Bool) (naming : Naming) (files : FileTree) (c : Controller ProcessArtifact)
    (reaches : Controller.Reaches kind around.here allows
      (.fresh runSettings hasListener ((resolve root settings more).arena home naming) files) c) :
    let p := resolve root settings more
    (∀ n ∈ c.arena.nodes, n.layer = .run →
      ∀ place ∈ (p.workshop around).site.classpath, place ∈ c.arena.searchPath n.id) ∧
    (∀ run ∈ c.runs ++ c.strays, ∀ r, run.artifact.stage = .live r →
      p.Provides around run.artifact.searchPath r.program) ∧
    ∀ place ∈ (p.workshop around).site.classpath, place.isAbsolute = false →
      (∃ list, more = some list ∧ place ∈ Path.splitList list) ∧
      (".." ∉ place.names → ∀ directory,
        place.location directory = place.location around.here ↔ directory = around.here) := by
  intro p
  have ensures : kind.Ensures (p.layout.classesDir :: p.rootPlaces home)
      (ProcessArtifact.Equipped around (p.layout.classesDir :: p.rootPlaces home) p.reportsDir) := by
    rcases isKind with rfl | ⟨text, rfl⟩
    · exact ProcessArtifact.ensures around _ _
    · exact (ProcessArtifact.ensures around _ _).echoing text
  obtain ⟨stocked, -, -, runs, strays⟩ := Controller.Reaches.supplied ensures reaches
  refine ⟨?_, ?_, ?_⟩
  · intro n member isRun place onClasspath
    exact mem_searchPath (stocked.searchPath member isRun) onClasspath
  · intro run member r live
    exact provides_of_equipped live
      ((List.mem_append.mp member).elim (runs run) (strays run))
  · intro place onClasspath relative
    refine ⟨given_of_relative absolute onClasspath relative, fun noParent directory => ?_⟩
    exact Path.location_eq_iff relative noParent directory around.here

/-! ### A run in which a place is lost -/

/-- A project at `/p`, in which the tool is started. -/
def shed (settings : ProjectSettings) (more : Option String) : Project := resolve ⟨"/p"⟩ settings more

/-- What the tool finds around itself there. -/
def shedSurroundings : Surroundings := ⟨[], ["p"]⟩

/-- An executable of the project, which says that it is done, and directories with libraries. -/
def shedFiles : FileTree :=
  ⟨[(["b"], .directory), (["b", "sh"], .tool "sh"), (["lib"], .directory), (["lib:"], .directory),
    (["p"], .directory), (["p", "build"], .directory), (["p", "build", "classes"], .directory),
    (["p", "build", "classes", "a"], .file (Bytes.ofString "#!/b/sh\necho @done\n") .program),
    (["p", "lib"], .directory), (["p", "reports"], .directory)]⟩

def shedController (p : Project) : Controller ProcessArtifact :=
  .fresh {} false (p.arena none) shedFiles

open Controller.Event in
/-- The executable is prepared and started, and its program begins. -/
def shedEvents : List Controller.Event :=
  call (.prepare ⟨⟨"/p/m"⟩, ⟨"/p/build/classes/a"⟩, "", default⟩) :: List.replicate 8 control ++
    call .start :: List.replicate 8 control ++ [worker 1]

/-- Whether a program of the project is under way then that passes a test. -/
def begins (p : Project) (test : List Path → Program → Bool) : Bool :=
  ((shedController p).after? (p.artifactKind shedSurroundings) ["p"] shedEvents).any fun c =>
    c.runs.any fun run =>
      match run.artifact.stage with
      | .live r => test run.artifact.searchPath r.program
      | _ => false

theorem exists_of_begins {p : Project} {test : List Path → Program → Bool}
    (begins : begins p test = true) :
    ∃ c, Controller.Reaches (p.artifactKind shedSurroundings) ["p"] (fun _ _ => True)
        (shedController p) c ∧
      ∃ run ∈ c.runs, ∃ r, run.artifact.stage = .live r ∧
        test run.artifact.searchPath r.program = true := by
  obtain ⟨c, happened, found⟩ := (Option.any_eq_true _ _).mp begins
  obtain ⟨run, member, passes⟩ := List.any_eq_true.mp found
  refine ⟨c, Controller.reaches_of_after? (fun _ _ _ => trivial) happened, run, member, ?_⟩
  cases stage : run.artifact.stage with
  | live r =>
    rw [stage] at passes
    exact ⟨r, rfl, passes⟩
  | _ =>
    rw [stage] at passes
    cases passes

/-- A place that the surroundings give as seen from the root reaches a program. -/
theorem classpath_reaches_runs_shed :
    ∃ c, Controller.Reaches ((shed {} (some "/lib")).artifactKind shedSurroundings) ["p"]
        (fun _ _ => True) (shedController (shed {} (some "/lib"))) c ∧
      ∃ run ∈ c.runs, ∃ r, run.artifact.stage = .live r ∧
        (shed {} (some "/lib")).Provides shedSurroundings run.artifact.searchPath r.program ∧
        r.program.directory = ["p", "reports"] ∧
        r.program.vars.lookup "SIMFORGE_CLASSPATH" =
          some "/p/build/runs/run-2-000000:/p/build/classes:/lib" := by
  have begun : begins (shed {} (some "/lib")) (fun _ program =>
      program.directory = ["p", "reports"] &&
      program.vars.lookup "SIMFORGE_CLASSPATH" =
        some "/p/build/runs/run-2-000000:/p/build/classes:/lib") = true := by decide +kernel
  obtain ⟨c, reaches, run, member, r, live, passes⟩ := exists_of_begins begun
  rw [Bool.and_eq_true, decide_eq_true_iff, decide_eq_true_iff] at passes
  obtain ⟨-, provides, -⟩ := classpath_reaches_runs ⟨"/p"⟩ {} (some "/lib") (by decide)
    shedSurroundings none _ (.inl rfl) (fun _ _ => True) {} false .counting shedFiles c reaches
  exact ⟨c, reaches, run, member, r, live, provides run (List.mem_append_left _ member) r live, passes⟩

/-- A place that the surroundings give as seen from the current directory is searched by compilers, and
it is told to the program, which finds nothing there; a place with a colon is searched by compilers,
and the program is told nothing. -/
theorem classpath_misses_program :
    (∃ c, Controller.Reaches ((shed {} (some "lib")).artifactKind shedSurroundings) ["p"]
        (fun _ _ => True) (shedController (shed {} (some "lib"))) c ∧
      ∃ run ∈ c.runs, ∃ r, run.artifact.stage = .live r ∧
        (⟨"lib"⟩ : Path) ∈ ((shed {} (some "lib")).workshop shedSurroundings).site.classpath ∧
        r.program.vars.lookup "SIMFORGE_CLASSPATH" =
          some "/p/build/runs/run-2-000000:/p/build/classes:lib" ∧
        shedFiles.locate shedSurroundings.here ⟨"lib"⟩ = .ok (["p", "lib"], .directory) ∧
        shedFiles.locate r.program.directory ⟨"lib"⟩ = .error .notFound) ∧
    ∃ c, Controller.Reaches
        ((shed { extraClasspath := [⟨"/lib:"⟩] } none).artifactKind shedSurroundings) ["p"]
        (fun _ _ => True) (shedController (shed { extraClasspath := [⟨"/lib:"⟩] } none)) c ∧
      ∃ run ∈ c.runs, ∃ r, run.artifact.stage = .live r ∧
        (⟨"/lib:"⟩ : Path) ∈ ((shed { extraClasspath := [⟨"/lib:"⟩] } none).workshop
          shedSurroundings).site.classpath ∧
        r.program.vars.lookup "SIMFORGE_CLASSPATH" = none := by
  have relative : begins (shed {} (some "lib")) (fun _ program =>
      program.vars.lookup "SIMFORGE_CLASSPATH" =
          some "/p/build/runs/run-2-000000:/p/build/classes:lib" &&
      shedFiles.locate program.directory ⟨"lib"⟩ = .error .notFound) = true := by decide +kernel
  have colon : begins (shed { extraClasspath := [⟨"/lib:"⟩] } none) (fun _ program =>
      program.vars.lookup "SIMFORGE_CLASSPATH" = none) = true := by decide +kernel
  constructor
  · obtain ⟨c, reaches, run, member, r, live, passes⟩ := exists_of_begins relative
    rw [Bool.and_eq_true, decide_eq_true_iff, decide_eq_true_iff] at passes
    exact ⟨c, reaches, run, member, r, live, by decide +kernel, passes.1, by decide +kernel, passes.2⟩
  · obtain ⟨c, reaches, run, member, r, live, passes⟩ := exists_of_begins colon
    exact ⟨c, reaches, run, member, r, live, by decide +kernel, of_decide_eq_true passes⟩

end Project
end SimWorkbench
