import SimWorkbench.Build.Rehearsal
import SimWorkbench.Digest.Sha256
import SimWorkbench.Proofs.Build.History
import SimWorkbench.Proofs.Path.Absolute

/-!
# Rehearsals as pipelines of a project

The rehearsal generator depends on the bytes of a model alone, and the rehearsal compiler writes its
output alone, so a pipeline with both belongs to every project it is set up for.
-/
namespace SimWorkbench.Rehearsal

/-- The source that a rehearsal generates from the bytes of a model. -/
def generated (bytes : Bytes) : Option GeneratedSource :=
  (Text.Utf8.toString? bytes).bind fun text =>
    if (Text.splitAt? "ungeneratable".toList text.toList).isSome then none
    else some ⟨text, none, none⟩

/-- The generator changes no file, and what it generates is told by the bytes of the model. -/
theorem generator_spec (here : Location) (files : FileTree) (model : Path) :
    (generator here none none files model).1 = files ∧
      ∀ bytes, files.read here model = .ok bytes →
        (generator here none none files model).2.toOption = generated bytes := by
  unfold generator generated FileTree.readText
  generalize "ungeneratable".toList = word
  cases files.read here model with
  | error cause => exact ⟨rfl, fun bytes readable => by cases readable⟩
  | ok content =>
    cases decoded : Text.Utf8.toString? content with
    | none =>
      simp only [bind, Except.bind, decoded]
      refine ⟨trivial, fun bytes readable => ?_⟩
      cases readable
      rw [decoded]
      rfl
    | some text =>
      simp only [bind, Except.bind, decoded]
      by_cases refused : (Text.splitAt? word text.toList).isSome = true
      · rw [if_pos refused]
        refine ⟨rfl, fun bytes readable => ?_⟩
        cases readable
        rw [decoded, Option.bind_some, if_pos refused]
        rfl
      · rw [if_neg refused]
        refine ⟨rfl, fun bytes readable => ?_⟩
        cases readable
        rw [decoded, Option.bind_some, if_neg refused]
        rfl

/-- A text that can be read is taken for the source, unless it refuses. -/
theorem generator_ok {here : Location} {files : FileTree} {model : Path} {text : String}
    {package typeName : Option String} (readable : files.readText here model = .ok text)
    (plain : (Text.splitAt? "ungeneratable".toList text.toList).isSome = false) :
    generator here package typeName files model = (files, .ok ⟨text, package, typeName⟩) := by
  unfold generator
  rw [readable]
  simp only [plain, Bool.false_eq_true, if_false]

/-- The compiler changes a file at its output alone, where no directory is. -/
theorem compiler_writes (identity : Bytes) (here : Location) (files : FileTree) (job : CompileJob)
    (l : Location) : ((compiler identity here).compile files job).1.get? l = files.get? l ∨
      l = job.output.location here ∧ files.get? l ≠ some .directory := by
  simp only [compiler]
  split
  · exact .inl rfl
  · split
    · exact .inl rfl
    · split
      · exact .inl rfl
      · split
        · rename_i wrote
          obtain ⟨-, file, ⟨-, rfl⟩ | ⟨mode, rfl⟩⟩ := FileTree.write_ok wrote
          · exact .inl rfl
          · by_cases same : l = job.output.location here
            · exact .inr ⟨same, same ▸ file⟩
            · exact .inl (FileTree.get?_insert_ne same)
        · exact .inl rfl

/-- A project in which builds are rehearsed, with the digest of real builds. -/
def premises (here : Location) (layout : Layout) (proper : ∀ name ∈ here, Path.IsName name)
    (indexApart : layout.Outside here (layout.cacheIndex.location here)) : Premises where
  digest := Sha256.hexDigest
  here := here
  layout := layout
  generated := generated
  proper := proper
  indexApart := indexApart.apart

/-- A pipeline that rehearses, with a compiler of the given identity. -/
def workshop (here : Location) (layout : Layout) (identity : Bytes) : Workshop where
  site := ⟨layout, [], compiler identity here, here⟩
  generator := generator here none none
  digest := Sha256.hexDigest

variable {here : Location} {layout : Layout} {proper : ∀ name ∈ here, Path.IsName name}
  {indexApart : layout.Outside here (layout.cacheIndex.location here)}

/-- A pipeline that rehearses belongs to the project it is set up for. -/
theorem admits (identity : Bytes) :
    (premises here layout proper indexApart).Admits (workshop here layout identity) where
  digest := rfl
  here := rfl
  layout := rfl
  generates files model bytes := (generator_spec here files model).2 bytes
  generatorKeeps files model := by
    have same : ((workshop here layout identity).generator files model).1 = files :=
      (generator_spec here files model).1
    rw [same]
    exact ⟨.refl _, .inl rfl, .refl _ _⟩
  identityKeeps files := .refl _ _
  compilerWrites := compiler_writes identity here

/-- Sources, executables and the index lie below the root; work is done in a directory of its own. -/
def rooted : Layout := ⟨⟨"/"⟩, ⟨"/s"⟩, ⟨"/c"⟩, ⟨"/i"⟩⟩

def project : Premises :=
  premises ["tmp", "job"] rooted (by decide +kernel) (by decide +kernel)

def pipeline : Workshop := workshop ["tmp", "job"] rooted [1]

theorem exists_of_isSome {ε α : Type} {r : Except ε α} (isSome : r.toOption.isSome = true) :
    ∃ a, r = .ok a := by
  cases r with
  | error e => cases isSome
  | ok a => exact ⟨a, rfl⟩

theorem ok_of_toOption {ε α : Type} {r : Except ε α} {a : α} (isSome : r.toOption = some a) :
    r = .ok a := by
  cases r with
  | error e => cases isSome
  | ok a' => exact congrArg Except.ok (Option.some.inj isSome)

/-- The error of a result that is one. -/
def error? {ε α : Type} : Except ε α → Option ε
  | .error e => some e
  | .ok _ => none

theorem error_of_error? {ε α : Type} {r : Except ε α} {e : ε} (isError : error? r = some e) :
    r = .error e := by
  cases r with
  | error e' => exact congrArg Except.error (Option.some.inj isError)
  | ok a => cases isError

/-- A source that declares one unit. -/
def source : String := "pub mod p \x7b\npub struct T;\n\x7d\n"

/-- The digest that spells its input out. -/
def spelledOut : Digest := fun bytes => String.ofList (bytes.map fun b => Char.ofNat b.toNat)

/-- The project and its pipeline, where fingerprints spell the files out. -/
def openProject : Premises := { project with digest := spelledOut }

def openPipeline : Workshop := { pipeline with digest := spelledOut }

theorem admits_open : openProject.Admits openPipeline := by
  have admitted : project.Admits pipeline := admits [1]
  exact ⟨⟨admitted.here, admitted.layout, admitted.identityKeeps⟩, rfl, admitted.generates,
    admitted.generatorKeeps, admitted.compilerWrites⟩

/-- The cache before anything was asked. -/
def blank : Cache := ⟨⟨"/i"⟩, environmentDigest spelledOut [1] [], [], []⟩

/-- A directory with one model, and a directory beside it. -/
def fresh : FileTree :=
  ⟨[(["tmp"], .directory), (["tmp", "job"], .directory), (["tmp", "job", "d"], .directory),
    (["tmp", "job", "m"], .file (Bytes.ofString source) .plain)]⟩

def unused : Cache := ⟨⟨"/i"⟩, environmentDigest Sha256.hexDigest [1] [], [], []⟩

theorem index_project : project.index = ["i"] := by decide +kernel

theorem temporaryApart_project :
    project.layout.Apart project.here (project.layout.temporary.location project.here) :=
  Layout.Outside.apart (by decide +kernel)

theorem placed_project : project.Placed ⟨"m"⟩ :=
  ⟨by decide +kernel, by decide +kernel, by decide +kernel⟩

/-- The executable of the unit is known by its own path. -/
theorem artifact_normalised :
    (Path.mk "/c/p/T").normalised (Location.path ["tmp", "job"]) = ⟨"/c/p/T"⟩ := by
  decide +kernel

theorem reachable_fresh : fresh.Reachable ["tmp", "job"] := ok_of_toOption (by decide +kernel)

theorem opened : (pipeline.openBench fresh).1 = fresh ∧
    (pipeline.openBench fresh).2.toOption = some ⟨fresh, unused⟩ := by decide +kernel

theorem opened_open : (openPipeline.openBench fresh).1 = fresh ∧
    (openPipeline.openBench fresh).2.toOption = some ⟨fresh, blank⟩ := by decide +kernel

section Beginning

variable {admits : Workshop → Prop} {askable : FileTree → Path → Prop}

theorem history_fresh (admitted : admits pipeline) :
    project.History admits askable fresh (some (pipeline, unused)) [] :=
  .begins (by rw [index_project]; rfl) admitted opened

theorem history_open (admitted : admits openPipeline) :
    openProject.History admits askable fresh (some (openPipeline, blank)) [] :=
  .begins (by rw [show openProject.index = ["i"] from index_project]; rfl) admitted opened_open

end Beginning

/-- A change of the model leaves the index. -/
theorem leaves_model (files : FileTree) (e : Entry) :
    FileTree.NothingNewAt files (files.insert ["tmp", "job", "m"] e) project.index := by
  intro now there
  rw [index_project] at there ⊢
  rw [FileTree.get?_insert_ne (by decide)] at there
  exact .inr there

/-- The first request for the model. -/
def built : Workshop.Ended := pipeline.ensure ⟨fresh, unused⟩ ⟨"m"⟩ false

/-- The entry of the model after the first request. -/
def entry : Descriptor :=
  ⟨⟨"/tmp/job/m"⟩, ⟨"/c/p/T"⟩, "p",
    Fingerprint.now Sha256.hexDigest built.bench.files ["tmp", "job"] [⟨"/tmp/job/m"⟩, ⟨"/c/p/T"⟩]⟩

end SimWorkbench.Rehearsal
