import SimWorkbench.Build.Invocation
import SimWorkbench.Proofs.FileTree.Effect
import SimWorkbench.Proofs.Path.Spelling

/-!
# Where a compile leaves its files

The unit that a source declares has names that are single segments of a path, so its source lies
below the directory of sources and its executable below the directory of executables. The stages of
a compile change no other files.
-/
namespace SimWorkbench

namespace SourceUnit

/-- Whether a name is an identifier of name characters alone. -/
def IsWord (name : String) : Prop :=
  isIdentifier name.toList = true ∧ ∀ c ∈ name.toList, isNameChar c = true

/-- Whether some source declares the unit. -/
def Declared (u : SourceUnit) : Prop := ∃ text, parse text = .ok u

theorem IsWord.not_mem {name : String} (word : IsWord name) {c : Char}
    (odd : isNameChar c = false) : c ∉ name.toList :=
  fun member => by simpa [odd] using word.2 c member

/-- A word is a single segment of a path. -/
theorem IsWord.isName {name : String} (word : IsWord name) : Path.IsName name := by
  have noDot : '.' ∉ name.toList := word.not_mem (by decide)
  refine ⟨?_, ?_, ?_, word.not_mem (by decide)⟩
  · rintro rfl
    exact absurd word.1 (by decide)
  · rintro rfl
    exact noDot (by decide)
  · rintro rfl
    exact noDot (by decide)

theorem isWord_ofList {name : List Char} (identifier : isIdentifier name = true)
    (chars : ∀ c ∈ name, isNameChar c = true) : IsWord (String.ofList name) := by
  refine ⟨?_, fun c member => chars c ?_⟩
  · rwa [String.toList_ofList]
  · rwa [String.toList_ofList] at member

theorem chars_packageName? {line name : List Char} (found : packageName? line = some name) :
    ∀ c ∈ name, isNameChar c = true := by
  unfold packageName? at found
  split at found
  · cases found
  · rename_i rest _
    rw [List.span_eq_takeWhile_dropWhile] at found
    simp only at found
    split at found <;> cases found
    exact List.all_eq_true.mp List.all_takeWhile

theorem chars_findPackage {lines : List (List Char)} {name : List Char} {rest : List (List Char)}
    (found : findPackage lines = some (name, rest)) : ∀ c ∈ name, isNameChar c = true := by
  induction lines with
  | nil => cases found
  | cons line lines ih =>
    rw [findPackage] at found
    split at found
    · rename_i isPackage
      cases found
      exact chars_packageName? isPackage
    · exact ih found

theorem chars_typeName? {line name : List Char} (found : typeName? line = some name) :
    ∀ c ∈ name, isNameChar c = true := by
  unfold typeName? at found
  obtain ⟨rest, -, rfl⟩ := Option.map_eq_some_iff.mp found
  exact List.all_eq_true.mp List.all_takeWhile

/-- The unit that a source declares is named by two words. -/
theorem Declared.words {u : SourceUnit} (declared : u.Declared) :
    IsWord u.package ∧ IsWord u.typeName := by
  obtain ⟨text, parsed⟩ := declared
  unfold parse scan at parsed
  split at parsed
  · cases parsed
  · rename_i package rest isPackage
    split at parsed
    swap
    · cases parsed
    rename_i identifier
    split at parsed
    · cases parsed
    · rename_i name isType
      split at parsed <;> cases parsed
      rename_i identifier'
      obtain ⟨line, -, isName⟩ := List.exists_of_findSome?_eq_some isType
      exact ⟨isWord_ofList identifier (chars_findPackage isPackage),
        isWord_ofList identifier' (chars_typeName? isName)⟩

theorem declared_of_expect {text : List Char} {package typeName : String} {u : SourceUnit}
    (expected : expect text package typeName = .ok u) :
    u.Declared ∧ u.package = package ∧ u.typeName = typeName := by
  unfold expect at expected
  cases parsed : parse text with
  | error cause => simp [parsed, bind, Except.bind] at expected
  | ok found =>
    simp only [parsed, bind, Except.bind] at expected
    split at expected <;> cases expected
    rename_i same
    exact ⟨⟨text, parsed⟩, same⟩

end SourceUnit

namespace Layout

variable {l : Layout} {u : SourceUnit}

theorem isName_rs {name : String} (isName : Path.IsName name) : Path.IsName (name ++ ".rs") := by
  obtain ⟨notEmpty, -, -, noSlash⟩ := isName
  have long : 3 < (name ++ ".rs").toList.length := by
    have : name.toList.length ≠ 0 := by simpa using notEmpty
    simp
    omega
  refine ⟨?_, ?_, ?_, by simpa using noSlash⟩ <;>
    · intro equal
      rw [equal] at long
      exact absurd long (by decide)

/-- The source of a unit lies below the directory of sources. -/
theorem location_sourceFile (here : Location) (declared : u.Declared) :
    (l.sourceFile u.package u.typeName).location here =
      l.sourceDir.location here ++ [u.package, u.typeName ++ ".rs"] := by
  obtain ⟨package, typeName⟩ := declared.words
  rw [sourceFile, Path.location_child (isName_rs typeName.isName), Path.location_child package.isName]
  simp

/-- The executable of a unit lies below the directory of executables. -/
theorem location_artifactFile (here : Location) (declared : u.Declared) :
    (l.artifactFile u.package u.typeName).location here =
      l.classesDir.location here ++ [u.package, u.typeName] := by
  obtain ⟨package, typeName⟩ := declared.words
  rw [artifactFile, Path.location_child typeName.isName, Path.location_child package.isName]
  simp

/-- The place of an executable tells its unit. -/
theorem artifactFile_injective {here : Location} {v : SourceUnit} (declaredU : u.Declared)
    (declaredV : v.Declared) (same : (l.artifactFile u.package u.typeName).location here =
      (l.artifactFile v.package v.typeName).location here) : u = v := by
  rw [location_artifactFile here declaredU, location_artifactFile here declaredV,
    List.append_cancel_left_eq] at same
  cases u
  cases v
  simpa using same

/-- The place of a source tells its unit. -/
theorem sourceFile_injective {here : Location} {v : SourceUnit} (declaredU : u.Declared)
    (declaredV : v.Declared) (same : (l.sourceFile u.package u.typeName).location here =
      (l.sourceFile v.package v.typeName).location here) : u = v := by
  rw [location_sourceFile here declaredU, location_sourceFile here declaredV,
    List.append_cancel_left_eq] at same
  cases u
  cases v
  simpa using same

/-- No source is in the place of an executable. -/
theorem artifactFile_ne_sourceFile {here : Location} {v : SourceUnit} (declaredU : u.Declared)
    (declaredV : v.Declared) : (l.artifactFile u.package u.typeName).location here ≠
      (l.sourceFile v.package v.typeName).location here := by
  rw [location_artifactFile here declaredU, location_sourceFile here declaredV]
  intro same
  have last := congrArg List.getLast? same
  simp only [List.getLast?_append, List.getLast?_cons_cons, List.getLast?_singleton, Option.some_or,
    Option.some.injEq] at last
  have noDot : '.' ∉ u.typeName.toList := declaredU.words.2.not_mem (by decide)
  rw [last, String.toList_append, List.mem_append] at noDot
  exact noDot (.inr (by decide))

/-- Whether a location is the place of no source and of no executable that a unit can have. -/
def Apart (l : Layout) (here file : Location) : Prop :=
  ∀ u : SourceUnit, u.Declared →
    file ≠ (l.sourceFile u.package u.typeName).location here ∧
      file ≠ (l.artifactFile u.package u.typeName).location here

/-- No unit can have a file of a name with a character that is none of a name. -/
theorem apart_of_last {here file : Location} {name : String} (last : file.getLast? = some name)
    (odd : '-' ∈ name.toList) : l.Apart here file := by
  intro u declared
  have noDash : '-' ∉ u.typeName.toList := declared.words.2.not_mem (by decide)
  constructor
  · rintro rfl
    rw [location_sourceFile here declared] at last
    simp only [List.getLast?_append, List.getLast?_cons_cons, List.getLast?_singleton,
      Option.some_or, Option.some.injEq] at last
    rw [← last, String.toList_append, List.mem_append] at odd
    exact odd.elim noDash (by decide)
  · rintro rfl
    rw [location_artifactFile here declared] at last
    simp only [List.getLast?_append, List.getLast?_cons_cons, List.getLast?_singleton,
      Option.some_or, Option.some.injEq] at last
    exact noDash (last ▸ odd)

/-- Whether a location lies neither below the sources nor below the executables. -/
def Outside (l : Layout) (here file : Location) : Prop :=
  ¬ l.sourceDir.location here <+: file ∧ ¬ l.classesDir.location here <+: file

instance (l : Layout) (here file : Location) : Decidable (l.Outside here file) :=
  inferInstanceAs (Decidable (_ ∧ _))

theorem Outside.apart {here file : Location} (outside : l.Outside here file) :
    l.Apart here file := by
  intro u declared
  constructor
  · rintro rfl
    rw [Layout.Outside, location_sourceFile here declared] at outside
    exact outside.1 (List.prefix_append _ _)
  · rintro rfl
    rw [Layout.Outside, location_artifactFile here declared] at outside
    exact outside.2 (List.prefix_append _ _)

/-- The name under which the index is written before it takes its own. -/
def temporary (l : Layout) : Path := ⟨l.cacheIndex.text ++ ".tmp"⟩

/-- Where a project keeps the index and its temporary there is no source and no executable. -/
theorem index_apart (here : Location) (project : l.cacheIndex = (ofRoot l.root).cacheIndex) :
    l.Apart here (l.cacheIndex.location here) ∧ l.Apart here (l.temporary.location here) := by
  have index : l.cacheIndex = (l.root.child "build").child "artifact-cache.json" := project
  have temporary : l.temporary = (l.root.child "build").child "artifact-cache.json.tmp" := by
    have renamed := @Path.append_join (l.root.child "build") "artifact-cache.json"
      (by decide +kernel) (by decide +kernel) ".tmp"
    rw [Layout.temporary, index]
    exact renamed
  constructor
  · rw [index, Path.location_child (by decide +kernel)]
    exact apart_of_last List.getLast?_concat (by decide +kernel)
  · rw [temporary, Path.location_child (by decide +kernel)]
    exact apart_of_last List.getLast?_concat (by decide +kernel)

end Layout

/-- A compile begins if the text declares the expected unit. -/
theorem Invocation.start_of_parse {text : String} {unit : SourceUnit}
    (declares : SourceUnit.parse text.toList = .ok unit) :
    start text unit.package unit.typeName = .writeSource unit text := by
  have expected : SourceUnit.expect text.toList unit.package unit.typeName = .ok unit := by
    simp [SourceUnit.expect, declares, bind, Except.bind]
  simp only [start, expected]

namespace GeneratedSource

variable {source : GeneratedSource} {unit : SourceUnit}

/-- A source whose names were accepted declares them. -/
theorem parse_of_unit (accepted : source.unit = .ok unit) :
    SourceUnit.parse source.text.toList = .ok unit := by
  unfold GeneratedSource.unit at accepted
  split at accepted
  · unfold SourceUnit.expect at accepted
    cases parsed : SourceUnit.parse source.text.toList with
    | error cause => simp [parsed, bind, Except.bind] at accepted
    | ok found =>
      simp only [parsed, bind, Except.bind] at accepted
      split at accepted <;> cases accepted
      rfl
  · exact accepted

/-- The scanner run once more on an accepted source agrees with itself. -/
theorem start_of_unit (accepted : source.unit = .ok unit) :
    Invocation.start source.text unit.package unit.typeName = .writeSource unit source.text :=
  Invocation.start_of_parse (parse_of_unit accepted)

end GeneratedSource

namespace Invocation

theorem files_proceed (r : FileTree × Option FileFault) (next : Invocation) :
    (proceed r next).1 = r.1 := by
  unfold proceed
  split <;> rfl

theorem placing_frame {t : FileTree} {here : Location} {path : Path} {e : Effect}
    {file : Location} (apart : file ∉ e.touches here) :
    FileTree.KeepsDirectories t (Effect.performAll t here (placing path e)).1 ∧
      FileTree.GrowsAt t (Effect.performAll t here (placing path e)).1 file := by
  obtain ⟨kept, grows⟩ := Effect.performAll_frame (placing path e) t here
  refine ⟨kept, grows file fun other member => ?_⟩
  simp only [placing, List.mem_append, List.mem_map, List.mem_singleton] at member
  rcases member with ⟨p, -, rfl⟩ | rfl
  · simp [Effect.touches]
  · exact apart

/-- The stages before the compiler is called change nothing apart from sources and executables. -/
theorem step_frame (site : CompileSite) (files : FileTree) {i : Invocation} {u : SourceUnit}
    (declared : u.Declared) (stage : (∃ text, i = writeSource u text) ∨ i = clearOutput u)
    {file : Location} (apart : site.layout.Apart site.here file) :
    FileTree.KeepsDirectories files (i.step site files).1 ∧
      FileTree.GrowsAt files (i.step site files).1 file := by
  rcases stage with ⟨text, rfl⟩ | rfl
  · rw [step, files_proceed]
    exact placing_frame (by simpa [Effect.touches, job] using (apart u declared).1)
  · rw [step, files_proceed]
    exact placing_frame (by simpa [Effect.touches, job] using (apart u declared).2)

end Invocation
end SimWorkbench
