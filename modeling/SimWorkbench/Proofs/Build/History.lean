import SimWorkbench.Build.Pipeline
import SimWorkbench.Proofs.Build.Invocation
import SimWorkbench.Proofs.Cache.Law

/-!
# Runs of requests on pipelines

Pipelines are opened one after another over the same project, and requests are made of them one at a
time; between requests other programs change files. A history is such a run, with all the calls of
compilers in it. What the claims about executables assume of compilers, generators and models is
said here.
-/
namespace SimWorkbench

/-- One call of a compiler. -/
structure Compilation where
  /-- The environment of the cache that the call was made for. -/
  environment : String
  /-- The text that was to be compiled. -/
  text : String
  job : CompileJob
  before : FileTree
  after : FileTree
  answer : String

/-- Whether a call built nothing: the compiler rejected the source, or left no executable. -/
def Compilation.Failed (k : Compilation) (here : Location) : Prop :=
  k.answer ≠ compileSuccess ∨ k.after.isFile here k.job.output = false

/-- The text that a stage writes as the source. -/
def Request.written? : Request → Option String
  | invoking (.writeSource _ text) => some text
  | _ => none

namespace Workshop

variable (w : Workshop)

/-- The call that a stage makes of the compiler, for the text that was written last. -/
def compilation? (b : Bench) (text : String) : Request → Option Compilation
  | .invoking (.callCompiler unit) =>
    let job := Invocation.job w.site unit
    let (after, answer) := w.site.compiler.compile b.files job
    some ⟨b.cache.environment, text, job, b.files, after, answer⟩
  | _ => none

/-- The calls that the next stages of a request make of the compiler. -/
def compilations (model : Path) : (stages : Nat) → Bench → (text : String) → Request →
    List Compilation
  | 0, _, _, _ => []
  | n + 1, b, text, r =>
    (w.compilation? b text r).toList ++
      compilations model n (w.step b model r).1 (r.written?.getD text) (w.step b model r).2

/-- What a request has come to after some stages. -/
def after (model : Path) : (stages : Nat) → Bench × Request → Bench × Request
  | 0, x => x
  | n + 1, x => after model n (w.step x.1 model x.2)

theorem after_of_step {model : Path} {b : Bench} {r : Request} {x : Bench × Request}
    (next : w.step b model r = x) (n : Nat) :
    w.after model (n + 1) (b, r) = w.after model n x := by
  rw [← next]
  rfl

theorem after_finished (model : Path) (n : Nat) (b : Bench)
    (result : Except BuildFailure (Descriptor × Provenance)) :
    w.after model n (b, .finished result) = (b, .finished result) := by
  induction n with
  | zero => rfl
  | succ n ih => exact ih

theorem after_add (model : Path) (m n : Nat) (x : Bench × Request) :
    w.after model (m + n) x = w.after model n (w.after model m x) := by
  induction m generalizing x with
  | zero =>
    rw [Nat.zero_add]
    rfl
  | succ m ih =>
    rw [Nat.succ_add]
    exact ih _

/-- A request that was advanced for long enough has ended. -/
theorem after_eq_advance (model : Path) {b : Bench} {r : Request} {n : Nat} (enough : r.rank ≤ n)
    (jobs : List CompileJob) :
    w.after model n (b, r) =
      ((w.advance model n b r enough jobs).bench,
        .finished (w.advance model n b r enough jobs).result) := by
  induction n generalizing b r jobs with
  | zero =>
    cases r <;> simp [Request.rank] at enough
    rfl
  | succ n ih =>
    have next := ih (b := (w.step b model r).1)
      (Nat.le_trans (w.rank_step_le b model r) (by omega)) (jobs ++ w.jobOf r)
    cases r with
    | finished result => exact w.after_finished model (n + 1) b result
    | _ => exact next

theorem after_eq_ensure (b : Bench) (model : Path) (force : Bool) :
    w.after model (Request.start force).rank (b, Request.start force) =
      ((w.ensure b model force).bench, .finished (w.ensure b model force).result) :=
  w.after_eq_advance model (Nat.le_refl _) []

/-- The calls that a request makes of the compiler. -/
def calls (b : Bench) (model : Path) (force : Bool) : List Compilation :=
  w.compilations model (Request.start force).rank b "" (Request.start force)

end Workshop

/-- What the pipelines of one project work on. -/
structure Grounds where
  here : Location
  layout : Layout
  proper : ∀ name ∈ here, Path.IsName name
  /-- No source and no executable can take the place of the index. -/
  indexApart : layout.Apart here (layout.cacheIndex.location here)

namespace Grounds

variable (g : Grounds)

/-- Where the index is. -/
def index : Location := g.layout.cacheIndex.location g.here

/-- What all pipelines of a project share. -/
structure Site (w : Workshop) : Prop where
  here : w.here = g.here
  layout : w.site.layout = g.layout
  identityKeeps : ∀ files, FileTree.NothingNewAt files (w.site.compiler.identity files).1 g.index

/-- A model lies outside of what the build writes. -/
structure Placed (model : Path) : Prop where
  outside : g.layout.Outside g.here (model.location g.here)
  notIndex : model.location g.here ≠ g.index
  notTemporary : model.location g.here ≠ g.layout.temporary.location g.here

/-- The runs over a project with pipelines that it `admits`, in which models are asked for that are
`askable`: the files and the open pipeline with its cache after the last request, and all calls of
compilers so far. -/
inductive History (admits : Workshop → Prop) (askable : FileTree → Path → Prop) :
    FileTree → Option (Workshop × Cache) → List Compilation → Prop
  | start {files} (fresh : files.get? g.index = none) : History admits askable files none []
  /-- Other programs change files, but do not write the index. -/
  | edited {files files' bench log} (past : History admits askable files bench log)
    (leaves : FileTree.NothingNewAt files files' g.index) : History admits askable files' bench log
  | opened {files bench log w} (past : History admits askable files bench log) (admitted : admits w) :
    History admits askable (w.openBench files).1
      ((w.openBench files).2.toOption.map fun b => (w, b.cache)) log
  | ensured {files w c log model} (past : History admits askable files (some (w, c)) log)
    (asked : askable files model) (force : Bool) :
    History admits askable (w.ensure ⟨files, c⟩ model force).bench.files
      (some (w, (w.ensure ⟨files, c⟩ model force).bench.cache))
      (log ++ w.calls ⟨files, c⟩ model force)
  | invalidated {files w c log} (past : History admits askable files (some (w, c)) log)
    (model : Path) :
    History admits askable (w.invalidate ⟨files, c⟩ model).1.files
      (some (w, (w.invalidate ⟨files, c⟩ model).1.cache)) log
  | lookedUp {files w c log} (past : History admits askable files (some (w, c)) log) (model : Path) :
    History admits askable (c.lookup w.digest files w.here model).files
      (some (w, (c.lookup w.digest files w.here model).cache)) log
  | cleared {files w c log} (past : History admits askable files (some (w, c)) log) :
    History admits askable (c.clear files w.here).files
      (some (w, (c.clear files w.here).cache)) log

/-- Whether every document that the index can hold obeys a law. -/
abbrev IndexObeys (law : Cache.Law) (files : FileTree) : Prop :=
  law.OfIndex g.here g.layout.cacheIndex files

/-- Whether a cache of the project and its index obey a law. -/
abbrev Obeys (law : Cache.Law) (environment : String) (files : FileTree) (c : Cache) : Prop :=
  Cache.Obeys law g.here g.layout.cacheIndex environment files c

variable {g : Grounds} {law : Cache.Law} {environment : String} {files : FileTree} {w : Workshop}

/-- A run begins with a pipeline that is opened where there is no index. -/
theorem History.begins {admits : Workshop → Prop} {askable : FileTree → Path → Prop} {c : Cache}
    (fresh : files.get? g.index = none) (admitted : admits w)
    (opened : (w.openBench files).1 = files ∧
      (w.openBench files).2.toOption = some ⟨files, c⟩) :
    g.History admits askable files (some (w, c)) [] := by
  have opening : g.History admits askable (w.openBench files).1
      ((w.openBench files).2.toOption.map fun b => (w, b.cache)) [] :=
    .opened (.start fresh) admitted
  rwa [opened.1, opened.2] at opening

/-- What is opened over an index that obeys obeys. -/
theorem Site.opened (site : g.Site w) (lasting : law.Lasting) (obeys : g.IndexObeys law files) :
    g.IndexObeys law (w.openBench files).1 ∧
      ∀ b, (w.openBench files).2 = .ok b →
        g.Obeys law b.cache.environment (w.openBench files).1 b.cache := by
  have leaves := site.identityKeeps files
  unfold Workshop.openBench
  rcases identified : w.site.compiler.identity files with ⟨after, identity⟩
  rw [identified] at leaves
  obtain ⟨index, obeys'⟩ := (obeys.leaves leaves).openAt lasting
    (environmentDigest w.digest identity w.site.classpath)
  simp only [site.here, site.layout]
  rcases opened : Cache.openAt after g.here g.layout.cacheIndex
      (environmentDigest w.digest identity w.site.classpath) with ⟨final, fault | c⟩
  · rw [opened] at index
    exact ⟨index, fun b isOpen => by cases isOpen⟩
  · rw [opened] at index obeys'
    refine ⟨index, fun b isOpen => ?_⟩
    cases isOpen
    have isOpen := obeys' c rfl
    rwa [← isOpen.built] at isOpen

theorem reopened {admits : Workshop → Prop} {c : Cache} (admitted : admits w)
    (obeys : g.Obeys law environment files c) :
    g.IndexObeys law files ∧ ∀ w' c', some (w, c) = some (w', c') →
      admits w' ∧ g.Obeys law c'.environment files c' := by
  refine ⟨obeys.index, fun w' c' same => ?_⟩
  cases same
  rw [← obeys.built] at obeys
  exact ⟨admitted, obeys⟩

/-- A lasting law that requests for models keep is kept by every run. -/
theorem History.obeys {admits : Workshop → Prop} {askable : FileTree → Path → Prop}
    {law : List Compilation → Cache.Law} (site : ∀ w, admits w → g.Site w)
    (lasting : ∀ log, (law log).Lasting)
    (ensured : ∀ {files w c log model}, admits w → g.Obeys (law log) c.environment files c →
      askable files model → ∀ force,
        g.Obeys (law (log ++ w.calls ⟨files, c⟩ model force)) c.environment
          (w.ensure ⟨files, c⟩ model force).bench.files (w.ensure ⟨files, c⟩ model force).bench.cache)
    {open? : Option (Workshop × Cache)} {log : List Compilation}
    (history : g.History admits askable files open? log) :
    g.IndexObeys (law log) files ∧
      ∀ w c, open? = some (w, c) → admits w ∧ g.Obeys (law log) c.environment files c := by
  induction history with
  | start fresh =>
    refine ⟨fun i stored => ?_, by simp⟩
    obtain ⟨e, -, -, found, -⟩ := stored
    rw [index] at fresh
    simp [fresh] at found
  | edited past leaves ih =>
    refine ⟨ih.1.leaves leaves, fun w c isOpen => ?_⟩
    obtain ⟨admitted, obeys⟩ := ih.2 w c isOpen
    exact ⟨admitted, obeys.leaves leaves⟩
  | @opened files bench log w past admitted ih =>
    obtain ⟨index, obeys⟩ := (site w admitted).opened (lasting log) ih.1
    refine ⟨index, fun w' c isOpen => ?_⟩
    rcases result : (w.openBench files).2 with failure | b
    · simp [result, Except.toOption] at isOpen
    · simp only [result, Except.toOption, Option.map_some, Option.some.injEq, Prod.mk.injEq] at isOpen
      obtain ⟨rfl, rfl⟩ := isOpen
      exact ⟨admitted, obeys b result⟩
  | @ensured files w c log model past asked force ih =>
    obtain ⟨admitted, obeys⟩ := ih.2 w c rfl
    exact reopened admitted (ensured admitted obeys asked force)
  | @invalidated files w c log past model ih =>
    obtain ⟨admitted, obeys⟩ := ih.2 w c rfl
    simp only [Workshop.invalidate, (site w admitted).here]
    exact reopened admitted (obeys.invalidate (lasting log) model)
  | @lookedUp files w c log past model ih =>
    obtain ⟨admitted, obeys⟩ := ih.2 w c rfl
    rw [(site w admitted).here]
    exact reopened admitted (obeys.lookup (lasting log) w.digest model)
  | @cleared files w c log past ih =>
    obtain ⟨admitted, obeys⟩ := ih.2 w c rfl
    rw [(site w admitted).here]
    exact reopened admitted (obeys.clear (lasting log))

end Grounds

/-- What pipelines have in common that fingerprint files in one way and generate one source from
the bytes of a model. -/
structure Premises extends Grounds where
  digest : Digest
  /-- The source that belongs to the bytes of a model. -/
  generated : Bytes → Option GeneratedSource

namespace Premises

variable (s : Premises)

/-- A pipeline of the project. Its generator depends on the bytes of the model alone and leaves the
model and the index as they are, and its compiler writes the output it is asked for alone. -/
structure Admits (w : Workshop) : Prop extends s.Site w where
  digest : w.digest = s.digest
  generates : ∀ files model bytes, files.read s.here model = .ok bytes →
    (w.generator files model).2.toOption = s.generated bytes
  generatorKeeps : ∀ files model,
    FileTree.KeepsDirectories files (w.generator files model).1 ∧
      FileTree.GrowsAt files (w.generator files model).1 (model.location s.here) ∧
      FileTree.NothingNewAt files (w.generator files model).1 s.index
  compilerWrites : ∀ files job l, (w.site.compiler.compile files job).1.get? l = files.get? l ∨
    l = job.output.location s.here ∧ files.get? l ≠ some .directory

/-- What a model holds that can be read, both as it was given and under the path by which the cache
knows it. -/
def Holds (files : FileTree) (model : Path) (bytes : Bytes) : Prop :=
  files.read s.here model = .ok bytes ∧
    files.read s.here (model.normalised s.here.path) = .ok bytes

/-- A model outside of what the build writes that can be read as it was given. -/
structure Readable (files : FileTree) (model : Path) : Prop where
  placed : s.Placed model
  given : ∃ bytes, files.read s.here model = .ok bytes

/-- A model that can also be read under the path by which the cache knows it. -/
structure Ready (files : FileTree) (model : Path) : Prop extends s.Readable files model where
  known : ∃ bytes, files.read s.here (model.normalised s.here.path) = .ok bytes

end Premises
end SimWorkbench
