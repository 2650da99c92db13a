import SimWorkbench.Proofs.Build.Invocation
import SimWorkbench.Proofs.Path.Below

/-!
# What a compile can touch

The names in a path come out of a text that a generator printed. They are single segments, so a compile
touches two places alone, one below the sources and one below the executables, which tell the unit; and
the executable's name is found again below the directory of executables. Where the text does not declare
what is asked for, nothing is touched.
-/
namespace SimWorkbench

namespace Path

variable {base : Path} {name first second : String}

theorem componentOf_of_idle {segment : List Char} (idle : isIdle segment = true) :
    componentOf segment = none := by
  rw [componentOf, if_pos idle]

/-- A name is put behind the segments of a directory, in the place of idle ones at the end. -/
theorem segments_child_of_notEmpty (notEmpty : base.text ≠ "") (isName : IsName name) :
    ∃ start rest idle, base.segments = start :: (rest ++ idle) ∧ (∀ s ∈ idle, isIdle s = true) ∧
      (base.child name).segments = start :: (rest ++ [name.toList]) := by
  have cut : ∀ text : List Char, ∃ start rest, text.splitOn '/' = start :: rest := fun text =>
    List.exists_cons_of_ne_nil (List.splitOn_ne_nil _ _)
  by_cases slash : base.text.toList.getLast? = some '/'
  · obtain ⟨body, text⟩ := List.getLast?_eq_some_iff.mp slash
    obtain ⟨start, rest, pieces⟩ := cut body
    have relative := (names_of_noSlash isName.2.2.2 isName.1).2
    have child : (base.child name).text.toList = body ++ '/' :: name.toList := by
      simp [Path.child, join, relative, text]
    refine ⟨start, rest, [[]], ?_, by simp [isIdle], ?_⟩
    · rw [segments, text, List.splitOn_append_cons_self, pieces, List.splitOn_nil]
      rfl
    · rw [segments, child, List.splitOn_append_cons_self, pieces,
        List.splitOn_eq_singleton isName.2.2.2]
      rfl
  · obtain ⟨start, rest, pieces⟩ := cut base.text.toList
    have isOpen : base.Open := ⟨by simpa using notEmpty, slash⟩
    refine ⟨start, rest, [], by rw [segments, pieces, List.append_nil], by simp, ?_⟩
    rw [segments_child isName isOpen, segments, pieces]
    rfl

/-- What is passed over in front of further segments leaves idle segments at most. -/
theorem dropComponents_append (before after : List (List Char)) :
    ∃ idle, (∀ s ∈ idle, isIdle s = true) ∧
      dropComponents (before.filterMap componentOf).length (before ++ after) = idle ++ after := by
  induction before with
  | nil => exact ⟨[], by simp, by simp [dropComponents]⟩
  | cons s before ih =>
    obtain ⟨idle, allIdle, dropped⟩ := ih
    by_cases isIdle' : isIdle s = true
    · rw [List.filterMap_cons, componentOf_of_idle isIdle']
      cases count : (before.filterMap componentOf).length with
      | zero =>
        rw [count, dropComponents] at dropped
        exact ⟨s :: idle, List.forall_mem_cons.mpr ⟨isIdle', allIdle⟩, by
          rw [dropComponents, List.cons_append, dropped, List.cons_append]⟩
      | succ n =>
        refine ⟨idle, allIdle, ?_⟩
        rw [List.cons_append, dropComponents, if_pos isIdle', ← count, dropped]
    · obtain ⟨c, component⟩ : ∃ c, componentOf s = some c := by
        unfold componentOf
        split
        · contradiction
        · split <;> exact ⟨_, rfl⟩
      refine ⟨idle, allIdle, ?_⟩
      rw [List.filterMap_cons, component, List.length_cons, List.cons_append, dropComponents,
        if_neg isIdle', dropped]

/-- The component of the first segment of a path that is not empty. -/
def firstComponent (absolute : Bool) (segment : List Char) : Component :=
  if absolute then .root
  else if segment = ['.'] then .current
  else if segment = ['.', '.'] then .parent
  else .name (String.ofList segment)

theorem components_eq {p : Path} {start : List Char} {rest : List (List Char)}
    (notEmpty : p.text ≠ "") (segments : p.segments = start :: rest) :
    p.components = firstComponent p.isAbsolute start :: rest.filterMap componentOf := by
  have rooted : start = [] → p.isAbsolute = true := by
    rintro rfl
    have whole := p.ofSegments_segments
    rw [segments] at whole
    cases rest with
    | nil => exact absurd (congrArg text whole.symm) notEmpty
    | cons second rest =>
      rw [← whole]
      simp [isAbsolute, ofSegments]
  rw [components, segments, firstComponent]
  by_cases absolute : p.isAbsolute = true
  · simp [absolute]
  · have isStart : start ≠ [] := fun empty => absolute (rooted empty)
    simp only [absolute, Bool.false_eq_true, if_false]
    split
    · rfl
    · rename_i notDot
      have notIdle : isIdle start = false := by simp [isIdle, isStart, notDot]
      simp only [componentOf, notIdle, Bool.false_eq_true, if_false]
      split <;> rfl

/-- Two names below a directory are found again, however the directory is spelled. -/
theorem below?_children (base : Path) (isName : IsName first) (isName' : IsName second) :
    base.below? ((base.child first).child second) = some ⟨first ++ "/" ++ second⟩ := by
  have names : ofSegments [first.toList, second.toList] = ⟨first ++ "/" ++ second⟩ := by
    simp [ofSegments, ← String.toList_inj, List.intercalate]
  by_cases empty : base.text = ""
  · obtain rfl : base = ⟨""⟩ := Path.mk.injEq .. ▸ empty
    have relative : (Path.mk (first ++ "/" ++ second)).isAbsolute = false := by
      have notSlash : first.toList.head? ≠ some '/' :=
        fun slash => isName.2.2.2 (List.mem_of_head? slash)
      have letters : first.toList ≠ [] := by simpa using isName.1
      simpa [isAbsolute, List.head?_append, Option.or_of_isSome, letters] using notSlash
    have child : ((Path.mk "").child first).child second = ⟨first ++ "/" ++ second⟩ := by
      rw [child_child isName isName', join, relative]
      simp
    have segments : (Path.mk (first ++ "/" ++ second)).segments =
        [first.toList] ++ [second.toList] := by
      simp [Path.segments, List.splitOn_append_cons_self, List.splitOn_eq_singleton isName.2.2.2,
        List.splitOn_eq_singleton isName'.2.2.2]
    have noComponents : (Path.mk "").components = [] := by decide +kernel
    rw [child, below?, noComponents, segments, trimSegments_concat isName'.notIdle, relative]
    exact congrArg some names
  obtain ⟨start, rest, idle, segments, allIdle, child⟩ := segments_child_of_notEmpty empty isName
  have children : ((base.child first).child second).segments =
      start :: (rest ++ [first.toList, second.toList]) := by
    rw [segments_child isName' (open_child isName), child, List.cons_append, List.append_assoc]
    rfl
  have notEmpty : ((base.child first).child second).text ≠ "" := by
    have isOpen : ((base.child first).child second).Open := open_child isName'
    simpa using isOpen.1
  have absolute : ((base.child first).child second).isAbsolute = base.isAbsolute := by
    rw [isAbsolute_child isName', isAbsolute_child isName]
  have noComponents : idle.filterMap componentOf = [] :=
    List.filterMap_eq_nil_iff.mpr fun s member => componentOf_of_idle (allIdle s member)
  have components := components_eq empty segments
  rw [List.filterMap_append, noComponents, List.append_nil] at components
  have components' := components_eq notEmpty children
  rw [absolute] at components'
  obtain ⟨idle', allIdle', dropped⟩ := dropComponents_append rest [first.toList, second.toList]
  have front : (idle' ++ [first.toList, second.toList]).dropWhile isIdle =
      [first.toList, second.toList] := by
    rw [List.dropWhile_append_of_pos allIdle',
      List.dropWhile_cons_of_neg (by simp [isName.notIdle])]
  have back : ([first.toList, second.toList].reverse.dropWhile isIdle).reverse =
      [first.toList, second.toList] := by
    simp [List.dropWhile_cons_of_neg, isName'.notIdle]
  have prefixed : base.components.isPrefixOf ((base.child first).child second).components = true := by
    rw [components, components', List.isPrefixOf_iff_prefix, List.filterMap_append]
    exact (List.prefix_cons_inj _).mpr (List.prefix_append _ _)
  have notNone : base.components.isEmpty = false := by rw [components]; rfl
  have count : base.components.length - 1 = (rest.filterMap componentOf).length := by
    rw [components, List.length_cons, Nat.add_sub_cancel]
  unfold below?
  simp only [prefixed, notNone, if_true, Bool.false_eq_true, if_false, count, children,
    List.tail_cons, dropped, front, back, names]

end Path

namespace Layout

variable {l : Layout} {here : Location} {u v : SourceUnit}

/-- The places of the two files of a unit. -/
def places (l : Layout) (here : Location) (u : SourceUnit) : List Location :=
  [(l.sourceFile u.package u.typeName).location here,
    (l.artifactFile u.package u.typeName).location here]

/-- Different units have no place in common. -/
theorem places_disjoint (declaredU : u.Declared) (declaredV : v.Declared) (different : u ≠ v) :
    (l.places here u).Disjoint (l.places here v) := by
  intro file inU inV
  simp only [places, List.mem_cons, List.not_mem_nil, or_false] at inU inV
  rcases inU with rfl | rfl <;> rcases inV with same | same
  · exact different (sourceFile_injective declaredU declaredV same)
  · exact artifactFile_ne_sourceFile declaredV declaredU same.symm
  · exact artifactFile_ne_sourceFile declaredU declaredV same
  · exact different (artifactFile_injective declaredU declaredV same)

end Layout

namespace Invocation

variable {site : CompileSite} {files : FileTree} {u : SourceUnit} {text package typeName : String}

/-- Whether a compile of a unit touched the places of the unit's files alone, as far as the compiler is
not concerned: at most it handed one job, of exactly these two files, to the compiler, and then the
files are what the compiler made of what it was given. Directories may be new. -/
def Confined (site : CompileSite) (files : FileTree) (u : SourceUnit) (ended : Ended) : Prop :=
  ∃ handed : FileTree, FileTree.KeepsDirectories files handed ∧
    (∀ file ∉ site.layout.places site.here u, FileTree.GrowsAt files handed file) ∧
    ((ended.jobs = [] ∧ ended.files = handed) ∨
      ∃ j, ended.jobs = [j] ∧ ended.files = (site.compiler.compile handed j).1 ∧
        j.package = u.package ∧ j.typeName = u.typeName ∧
        j.source = site.layout.sourceFile u.package u.typeName ∧
        j.output = site.layout.artifactFile u.package u.typeName)

/-- A compile that ended has called nobody and changed nothing. -/
theorem run_finished (result : Except BuildFailure CompiledArtifact) :
    run site files (finished result) = ⟨files, result, []⟩ := rfl

theorem rank_next (site : CompileSite) {n : Nat} (files : FileTree) {i : Invocation}
    (enough : i.rank ≤ n + 1) : (i.step site files).2.rank ≤ n :=
  Nat.le_trans (rank_step_le site files i) (by omega)

/-- A compile that has not ended takes a stage. -/
theorem advance_succ (site : CompileSite) {n : Nat} (files : FileTree) {i : Invocation}
    (underway : ∀ result, i ≠ finished result) (enough : i.rank ≤ n + 1) (done : List CompileJob) :
    advance site (n + 1) files i enough done =
      advance site n (i.step site files).1 (i.step site files).2 (rank_next site files enough)
        (done ++ i.jobs site) := by
  rw [advance]
  exact fun result _ equal _ => underway result equal

/-- The jobs handed over before stand in front of those still to come. -/
theorem advance_done (site : CompileSite) {n : Nat} {files : FileTree} {i : Invocation}
    (enough : i.rank ≤ n) (done : List CompileJob) :
    advance site n files i enough done =
      ⟨(advance site n files i enough []).files, (advance site n files i enough []).result,
        done ++ (advance site n files i enough []).jobs⟩ := by
  induction n generalizing files i done with
  | zero =>
    cases i <;> simp [rank] at enough
    simp [advance]
  | succ n ih =>
    by_cases underway : ∀ result, i ≠ finished result
    · rw [advance_succ site files underway, advance_succ site files underway,
        ih _ (done ++ i.jobs site), ih _ ([] ++ i.jobs site)]
      simp
    · obtain ⟨result, ended⟩ := not_forall.mp underway
      obtain rfl := not_not.mp ended
      simp [advance]

/-- The bound on the stages does not matter. -/
theorem advance_eq_run (site : CompileSite) {n : Nat} {files : FileTree} {i : Invocation}
    (enough : i.rank ≤ n) : advance site n files i enough [] = run site files i := by
  suffices all : ∀ m (enough' : i.rank ≤ m),
      advance site n files i enough [] = advance site m files i enough' [] from all _ (Nat.le_refl _)
  intro m
  induction n generalizing m files i with
  | zero =>
    cases i <;> simp [rank] at enough
    simp [advance]
  | succ n ih =>
    intro enough'
    by_cases underway : ∀ result, i ≠ finished result
    · obtain ⟨m, rfl⟩ : ∃ k, m = k + 1 := by
        refine Nat.exists_eq_succ_of_ne_zero fun none => ?_
        subst none
        cases i <;> simp [rank] at enough'
        exact underway _ rfl
      rw [advance_succ site files underway, advance_succ site files underway,
        advance_done site _ ([] ++ i.jobs site), ih _ m, ← advance_done site _ ([] ++ i.jobs site)]
    · obtain ⟨result, ended⟩ := not_forall.mp underway
      obtain rfl := not_not.mp ended
      simp [advance]

/-- A compile runs by taking a stage and running on. -/
theorem run_step (site : CompileSite) (files : FileTree) {i : Invocation}
    (underway : ∀ result, i ≠ finished result) :
    run site files i = ⟨(run site (i.step site files).1 (i.step site files).2).files,
      (run site (i.step site files).1 (i.step site files).2).result,
      i.jobs site ++ (run site (i.step site files).1 (i.step site files).2).jobs⟩ := by
  rw [← advance_eq_run site (Nat.le_succ i.rank), advance_succ site files underway, advance_done,
    advance_eq_run, List.nil_append]

theorem run_quiet (site : CompileSite) (files : FileTree) {i : Invocation}
    (underway : ∀ result, i ≠ finished result) (quiet : i.jobs site = []) :
    run site files i = run site (i.step site files).1 (i.step site files).2 := by
  rw [run_step site files underway, quiet, List.nil_append]

/-- What puts a file into the place of one of the unit's, or takes it away, leaves the other places
alone, and so does the compile if what follows does. -/
theorem confined_proceed {path : Path} {e : Effect} {next : Invocation}
    (own : ∀ file ∈ e.touches site.here, file ∈ site.layout.places site.here u)
    (goesOn : ∀ between, Confined site between u (run site between next)) :
    Confined site files u
      (run site (proceed (Effect.performAll files site.here (placing path e)) next).1
        (proceed (Effect.performAll files site.here (placing path e)) next).2) := by
  obtain ⟨keeps, -⟩ := Effect.performAll_frame (placing path e) files site.here
  have grows : ∀ file ∉ site.layout.places site.here u,
      FileTree.GrowsAt files (Effect.performAll files site.here (placing path e)).1 file :=
    fun file apart => (placing_frame fun touched => apart (own file touched)).2
  cases done : Effect.performAll files site.here (placing path e) with
  | mk between refusal =>
    rw [done] at keeps grows
    cases refusal with
    | some fault => exact ⟨between, keeps, grows, .inl ⟨rfl, rfl⟩⟩
    | none =>
      obtain ⟨handed, keeps', grows', ends⟩ := goesOn between
      exact ⟨handed, keeps.trans keeps', fun file apart => (grows file apart).trans (grows' file apart),
        ends⟩

theorem confined_callCompiler (files : FileTree) :
    Confined site files u (run site files (callCompiler u)) :=
  ⟨files, .refl _, fun _ _ => .inl rfl, .inr ⟨job site u, rfl, rfl, rfl, rfl, rfl, rfl⟩⟩

theorem confined_clearOutput (files : FileTree) :
    Confined site files u (run site files (clearOutput u)) := by
  rw [run_quiet site files (by simp) rfl, step]
  exact confined_proceed (by simp [Effect.touches, Layout.places, job])
    fun between => confined_callCompiler between

theorem confined_writeSource (files : FileTree) (text : String) :
    Confined site files u (run site files (writeSource u text)) := by
  rw [run_quiet site files (by simp) rfl, step]
  exact confined_proceed (by simp [Effect.touches, Layout.places, job])
    fun between => confined_clearOutput between

theorem confined_start (site : CompileSite) (files : FileTree)
    (declares : SourceUnit.parse text.toList = .ok u) :
    Confined site files u (run site files (start text u.package u.typeName)) := by
  rw [start_of_parse declares]
  exact confined_writeSource files text

/-- A source that does not declare the names is refused. -/
theorem expect_of_others {text : List Char}
    (others : ∀ u, SourceUnit.parse text = .ok u → ¬ (u.package = package ∧ u.typeName = typeName)) :
    ∃ cause, SourceUnit.expect text package typeName = .error cause := by
  unfold SourceUnit.expect
  cases parsed : SourceUnit.parse text with
  | error cause => exact ⟨cause, rfl⟩
  | ok u => exact ⟨_, if_neg (others u parsed)⟩

/-- A compile is given a text and two names. If the text declares these, they are words, the compile
touches the places of its two files alone, hands exactly these to the compiler, and the executable is
named after both; different names have no place in common. If not, nothing is touched and the compiler
is not called. -/
theorem compile_confined (site : CompileSite) (files : FileTree) (text package typeName : String) :
    (∀ u, SourceUnit.parse text.toList = .ok u → u.package = package → u.typeName = typeName →
      SourceUnit.IsWord package ∧ SourceUnit.IsWord typeName ∧
        Confined site files u (run site files (start text package typeName)) ∧
        site.layout.artifactName? (site.layout.artifactFile package typeName) =
          some ⟨package ++ "/" ++ typeName⟩ ∧
        ∀ v : SourceUnit, v.Declared → u ≠ v →
          (site.layout.places site.here u).Disjoint (site.layout.places site.here v)) ∧
      ((∀ u, SourceUnit.parse text.toList = .ok u → ¬ (u.package = package ∧ u.typeName = typeName)) →
        ∃ cause, run site files (start text package typeName) =
          ⟨files, .error (.malformed cause), []⟩) := by
  refine ⟨?_, fun others => ?_⟩
  · rintro u declares rfl rfl
    have declared : u.Declared := ⟨_, declares⟩
    obtain ⟨isPackage, isType⟩ := declared.words
    exact ⟨isPackage, isType, confined_start site files declares,
      Path.below?_children _ isPackage.isName isType.isName,
      fun v declaredV different => Layout.places_disjoint declared declaredV different⟩
  · obtain ⟨cause, refused⟩ := expect_of_others others
    exact ⟨cause, by rw [start, refused, run_finished]⟩

end Invocation
end SimWorkbench
