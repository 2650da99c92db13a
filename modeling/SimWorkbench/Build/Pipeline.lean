import SimWorkbench.Build.Generator
import SimWorkbench.Build.Invocation

/-!
# From a model to an executable

A request for a model's executable is answered from the cache if it can be; otherwise the model is
turned into a source and compiled. A request advances by stages, each one section of work that no
other request can cut into; between stages files and cache may change. Run to its end without
anything in between, a request is the function `ensure`.
-/
namespace SimWorkbench

/-- Where an executable came from. -/
inductive Provenance where
  | cached
  | compiled
  deriving DecidableEq, Repr

/-- What the requests of a project have in common. -/
structure Workshop where
  site : CompileSite
  generator : Generator
  digest : Digest

/-- The files and the cache that requests work on. -/
structure Bench where
  files : FileTree
  cache : Cache
  deriving DecidableEq, Repr, Inhabited

/-- How far a request has come. -/
inductive Request where
  /-- To be looked up in the cache. -/
  | lookup
  | generate
  /-- To be checked against the owners of executables. -/
  | claim (text : String) (unit : SourceUnit)
  | invoking (progress : Invocation)
  | recordMiss (diagnostic : Diagnostic)
  | store (built : CompiledArtifact)
  | finished (result : Except BuildFailure (Descriptor × Provenance))

namespace Request

/-- The number of stages still to come, at most. -/
def rank : Request → Nat
  | lookup => 10
  | generate => 9
  | claim .. => 8
  | invoking progress => progress.rank + 2
  | recordMiss _ => 1
  | store _ => 1
  | finished _ => 0

/-- Where a request starts; one that is forced does not ask the cache. -/
def start (force : Bool) : Request := if force then generate else lookup

end Request

namespace Workshop

variable (w : Workshop)

def here : Location := w.site.here

/-- The answer from the cache, or the stage that follows. -/
def answerFromCache (b : Bench) (model : Path) : Bench × Request :=
  let found := b.cache.lookup w.digest b.files w.here model
  let b' : Bench := ⟨found.files, found.cache⟩
  match found.answer with
  | some d => (b', .finished (.ok (d, .cached)))
  | none =>
    if found.cache.isMiss w.digest found.files w.here model then
      (b', .finished (.error (.knownMiss model)))
    else (b', .generate)

/-- The source of the model, and the unit it declares. -/
def produce (b : Bench) (model : Path) : Bench × Request :=
  let (files, produced) := w.generator b.files model
  let b' := { b with files := files }
  match produced with
  | .error failure => (b', .finished (.error (.generation failure)))
  | .ok source =>
    match source.unit with
    | .error cause => (b', .finished (.error (.malformed cause)))
    | .ok unit => (b', .claim source.text unit)

/-- The entry of another model that holds the executable of a unit. -/
def owner? (c : Cache) (model : Path) (unit : SourceUnit) : Option Descriptor :=
  let target := (w.site.layout.artifactFile unit.package unit.typeName).normalised w.here.path
  let model := model.normalised w.here.path
  c.entries.find? fun d => d.artifact.same target && !d.source.same model

/-- Refuses a unit whose executable belongs to another model. -/
def checkOwner (c : Cache) (model : Path) (text : String) (unit : SourceUnit) : Request :=
  match w.owner? c model unit with
  | some d =>
    .finished (.error (.classConflict (model.normalised w.here.path) unit.qualifiedName d.source))
  | none => .invoking (Invocation.start text unit.package unit.typeName)

/-- What follows a stage of the compile. -/
def afterInvocation : Invocation → Request
  | .finished (.ok built) => .store built
  | .finished (.error (.compile diagnostic)) => .recordMiss diagnostic
  | .finished (.error failure) => .finished (.error failure)
  | progress => .invoking progress

/-- Advances a request for `model` by one stage. -/
def step (b : Bench) (model : Path) : Request → Bench × Request
  | .lookup => w.answerFromCache b model
  | .generate => w.produce b model
  | .claim text unit => (b, w.checkOwner b.cache model text unit)
  | .invoking progress =>
    let (files, progress) := progress.step w.site b.files
    ({ b with files := files }, afterInvocation progress)
  | .recordMiss diagnostic =>
    let done := b.cache.recordMiss w.digest b.files w.here model
    (⟨done.files, done.cache⟩,
      match done.answer with
      | .ok _ => .finished (.error (.compile diagnostic))
      | .error fault => .finished (.error (.cache fault)))
  | .store built =>
    let done := b.cache.store w.digest b.files w.here model built.artifact built.package
    (⟨done.files, done.cache⟩,
      match done.answer with
      | .ok d => .finished (.ok (d, .compiled))
      | .error fault => .finished (.error (.cache fault)))
  | .finished result => (b, .finished result)

/-- What a stage hands to the compiler. -/
def jobOf : Request → List CompileJob
  | .invoking progress => progress.jobs w.site
  | _ => []

theorem rank_afterInvocation_le (i : Invocation) : (afterInvocation i).rank ≤ i.rank + 2 := by
  cases i with
  | finished r =>
    cases r with
    | ok built => simp [afterInvocation, Request.rank, Invocation.rank]
    | error f => cases f <;> simp [afterInvocation, Request.rank, Invocation.rank]
  | _ => simp [afterInvocation, Request.rank]

theorem rank_afterInvocation_of_zero {i : Invocation} (h : i.rank = 0) :
    (afterInvocation i).rank ≤ 1 := by
  cases i with
  | finished r =>
    cases r with
    | ok built => simp [afterInvocation, Request.rank]
    | error f => cases f <;> simp [afterInvocation, Request.rank]
  | _ => simp [Invocation.rank] at h

theorem rank_start_le (text package typeName : String) :
    (Invocation.start text package typeName).rank ≤ 4 := by
  unfold Invocation.start
  split <;> simp [Invocation.rank]

/-- Every stage brings a request nearer to its end. -/
theorem rank_step_le (b : Bench) (model : Path) (r : Request) :
    (w.step b model r).2.rank ≤ r.rank - 1 := by
  cases r with
  | lookup => simp only [step, answerFromCache]; split <;> (try split) <;> simp [Request.rank]
  | generate => simp only [step, produce]; split <;> (try split) <;> simp [Request.rank]
  | claim text unit =>
    simp only [step, checkOwner]
    split
    · simp [Request.rank]
    · have h := rank_start_le text unit.package unit.typeName
      simp only [Request.rank]
      omega
  | invoking progress =>
    have h := Invocation.rank_step_le w.site b.files progress
    show (afterInvocation (progress.step w.site b.files).2).rank ≤ progress.rank + 2 - 1
    by_cases h0 : (progress.step w.site b.files).2.rank = 0
    · have := rank_afterInvocation_of_zero h0
      omega
    · have := rank_afterInvocation_le (progress.step w.site b.files).2
      omega
  | recordMiss d => simp only [step]; split <;> simp [Request.rank]
  | store built => simp only [step]; split <;> simp [Request.rank]
  | finished result => simp [step, Request.rank]

/-- The bench, the answer and the compiler's jobs when a request has ended. -/
structure Ended where
  bench : Bench
  result : Except BuildFailure (Descriptor × Provenance)
  jobs : List CompileJob

/-- Advances a request to its end; `n` bounds the stages. -/
def advance (model : Path) : (n : Nat) → Bench → (r : Request) → r.rank ≤ n → List CompileJob →
    Ended
  | _, b, .finished result, _, jobs => ⟨b, result, jobs⟩
  | n + 1, b, r, h, jobs =>
    advance model n (w.step b model r).1 (w.step b model r).2
      (Nat.le_trans (w.rank_step_le b model r) (by omega)) (jobs ++ w.jobOf r)

/-- An executable for `model`, from the cache unless that is forced not to answer. -/
def ensure (b : Bench) (model : Path) (force : Bool) : Ended :=
  w.advance model (Request.start force).rank b (Request.start force) (Nat.le_refl _) []

/-- Forgets all about `model`. -/
def invalidate (b : Bench) (model : Path) : Bench × Except BuildFailure Bool :=
  let done := b.cache.invalidate b.files w.here model
  (⟨done.files, done.cache⟩,
    match done.answer with
    | .ok had => .ok had
    | .error fault => .error (.cache fault))

/-- Those of the candidates that no entry refers to. -/
def unreferenced (b : Bench) (candidates : List Path) : List Path :=
  candidates.filter fun p =>
    !b.cache.entries.any fun d => d.artifact.same (p.normalised w.here.path)

/-- Opens the cache for the compiler as it is now. -/
def openBench (files : FileTree) : FileTree × Except BuildFailure Bench :=
  let (files, identity) := w.site.compiler.identity files
  let environment := environmentDigest w.digest identity w.site.classpath
  match Cache.openAt files w.here w.site.layout.cacheIndex environment with
  | (files, .ok cache) => (files, .ok ⟨files, cache⟩)
  | (files, .error fault) => (files, .error (.cache fault))

end Workshop
end SimWorkbench
