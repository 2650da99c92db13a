import SimWorkbench.Proofs.Build.Answers
import SimWorkbench.Proofs.Build.Rehearsal
import SimWorkbench.Proofs.Build.Requests

/-!
# Known misses

As long as models change between requests only, a known miss is truthful: the compiler was called
for what the model holds now, and it failed. But a miss is recorded for the model as it is after the
call, so a model that was repaired during the call is taken for the one that was rejected.
-/
namespace SimWorkbench

theorem Cache.miss_of_isMiss {digest : Digest} {c : Cache} {files : FileTree} {here : Location}
    {source : Path} (missed : c.isMiss digest files here source = true) :
    ∃ m ∈ c.misses, m.key = key here source ∧
      m.fingerprint = Fingerprint.now digest files here [source.normalised here.path] := by
  unfold isMiss at missed
  cases found : c.miss? here source with
  | none => simp [found] at missed
  | some m =>
    obtain ⟨member, isKey⟩ := Keyed.get?_mem found
    simp only [found, decide_eq_true_eq] at missed
    exact ⟨m, member, isKey, missed⟩

/-- The text that a request wrote last when it has advanced by some stages. -/
def Workshop.textAfter (w : Workshop) (model : Path) :
    (stages : Nat) → Bench → (text : String) → Request → String
  | 0, _, text, _ => text
  | n + 1, b, text, r =>
    textAfter w model n (w.step b model r).1 (r.written?.getD text) (w.step b model r).2

theorem Request.exists_finished {r : Request} (ended : r.rank = 0) :
    ∃ result, r = .finished result := by
  cases r <;> simp [rank] at ended
  exact ⟨_, rfl⟩

namespace Premises

variable {s : Premises}

/-- Whether a call of the compiler was made for a model as it is now, and built nothing. -/
structure Rejected (s : Premises) (k : Compilation) (environment : String) (files : FileTree)
    (model : Path) : Prop where
  compiled : ∃ bytes, files.read s.here model = .ok bytes ∧ s.From k environment bytes
  failed : k.Failed s.here

/-- Whether the digest tells a model as it is from the misses as they were after the calls. -/
def UncollidedMisses (s : Premises) (log : List Compilation) (files : FileTree) (c : Cache)
    (model : Path) : Prop :=
  ∀ k ∈ log, ∀ m ∈ c.misses,
    let before := Fingerprint.stream (Fingerprint.readings k.after s.here [m.source])
    let now := Fingerprint.stream (Fingerprint.readings files s.here [model.normalised s.here.path])
    s.digest before = s.digest now → before = now

theorem misses_refreshed (w : Workshop) (b : Bench) (model : Path) :
    (w.refreshed b model).cache.misses = b.cache.misses := by
  cases found : b.cache.entry? w.here model with
  | none => rw [Workshop.refreshed_of_none found]
  | some d =>
    cases stale : Cache.outdated w.digest b.files w.here d with
    | true =>
      rw [Workshop.refreshed_of_outdated found stale]
      rfl
    | false => simp only [Workshop.refreshed, Cache.lookup_of_current found stale]

/-- In every run in which other programs change files between requests only: when a model is answered
as a known miss, a call of the compiler was made in the present environment for the source that
belongs to what the model holds now, and it built nothing. -/
theorem known_miss_rejected {files : FileTree} {w : Workshop} {c : Cache} {log : List Compilation}
    {model m : Path} (history : s.History s.Admits s.Ready files (some (w, c)) log)
    (ready : s.Ready files model)
    (answer : (w.ensure ⟨files, c⟩ model false).result = .error (.knownMiss m))
    (uncollided : s.UncollidedMisses log files c model)
    (fits : Fingerprint.Fitting files s.here [model.normalised s.here.path])
    (didFit : ∀ k ∈ log, ∀ m ∈ c.misses, Fingerprint.Fitting k.after s.here [m.source]) :
    ∃ k ∈ log, s.Rejected k c.environment files model := by
  obtain ⟨admits, sound⟩ := (sound_of_history history).2 w c rfl
  have here : w.here = s.here := admits.here
  obtain ⟨bytes, holds⟩ := ready.holds
  have refreshed := Holds.lookup (b := ⟨files, c⟩) holds ready.placed sound w.digest
  have missed := Workshop.isMiss_of_knownMiss answer
  obtain ⟨miss, member, -, fingerprint⟩ := Cache.miss_of_isMiss missed
  rw [misses_refreshed] at member
  obtain ⟨k, isCall, explains⟩ := sound.records.misses miss member
  obtain ⟨past, once, from'⟩ := explains.model
  rw [here, admits.digest, explains.fingerprint] at fingerprint
  have now : Fingerprint.readings (w.refreshed ⟨files, c⟩ model).files s.here
        [model.normalised s.here.path] =
      Fingerprint.readings files s.here [model.normalised s.here.path] := by
    simp only [Fingerprint.readings, List.map_cons, List.map_nil, holds.2]
    simp only [Workshop.refreshed, here, refreshed.2]
  have streams : s.digest (Fingerprint.stream (Fingerprint.readings k.after s.here [miss.source])) =
      s.digest (Fingerprint.stream
        (Fingerprint.readings files s.here [model.normalised s.here.path])) := by
    rw [← now]
    exact congrArg Fingerprint.hex fingerprint
  have contents := Fingerprint.stream_injective
    (fun content isRead => didFit k isCall miss member _ isRead content rfl)
    (fun content isRead => fits _ isRead content rfl) (uncollided k isCall miss member streams)
  simp only [Fingerprint.readings, List.map_cons, List.map_nil, once, holds.2] at contents
  obtain rfl : past = bytes := by simpa [Except.toOption] using contents
  exact ⟨k, isCall, ⟨past, holds.1, from'⟩, explains.failed⟩

/-- What the first request of a project can come to when other programs may write its model at any
time, also between its stages: what it works on, the text it wrote last and its calls of the
compiler. -/
inductive Disturbed (s : Premises) (w : Workshop) (model : Path) :
    Bench → String → List Compilation → Request → Prop
  | start {files environment} (fresh : files.get? s.index = none) :
    Disturbed s w model ⟨files, ⟨s.layout.cacheIndex, environment, [], []⟩⟩ "" [] .lookup
  | stage {b text log r} (past : Disturbed s w model b text log r) :
    Disturbed s w model (w.step b model r).1 (r.written?.getD text)
      (log ++ (w.compilation? b text r).toList) (w.step b model r).2
  | written {b text log r} (past : Disturbed s w model b text log r) (bytes : Bytes) (mode : Mode) :
    Disturbed s w model ⟨b.files.insert (model.location s.here) (.file bytes mode), b.cache⟩ text log r

/-- A request that is left alone for some stages. -/
theorem Disturbed.stages {w : Workshop} {model : Path} {b : Bench} {text : String}
    {log : List Compilation} {r : Request} (n : Nat) (past : s.Disturbed w model b text log r) :
    s.Disturbed w model (w.after model n (b, r)).1 (w.textAfter model n b text r)
      (log ++ w.compilations model n b text r) (w.after model n (b, r)).2 := by
  induction n generalizing b text log r with
  | zero => simpa [Workshop.compilations, Workshop.after, Workshop.textAfter] using past
  | succ n ih =>
    have later := ih past.stage
    rwa [List.append_assoc] at later

end Premises

namespace Rehearsal

/-- The model that was built once, with a source that the compiler rejects. -/
def rejected : String := source ++ "// !reject no\n"

/-- The directory with the model that is rejected. -/
def faulty : FileTree :=
  ⟨[(["tmp"], .directory), (["tmp", "job"], .directory),
    (["tmp", "job", "m"], .file (Bytes.ofString rejected) .plain)]⟩

/-- The first request for the faulty model, once it was rejected. -/
def failed : Workshop.Ended := openPipeline.ensure ⟨faulty, blank⟩ ⟨"m"⟩ false

theorem faulty_opened : (openPipeline.openBench faulty).1 = faulty ∧
    (openPipeline.openBench faulty).2.toOption = some ⟨faulty, blank⟩ := by decide +kernel

/-- After the first request the model is as it was, and its miss is recorded. -/
theorem failed_reads :
    (failed.bench.files.read ["tmp", "job"] ⟨"m"⟩).toOption.isSome = true ∧
      (failed.bench.files.read ["tmp", "job"]
        ((Path.mk "m").normalised (Location.path ["tmp", "job"]))).toOption.isSome = true ∧
      error? (openPipeline.ensure failed.bench ⟨"m"⟩ false).result = some (.knownMiss ⟨"m"⟩) ∧
      Fingerprint.Fitting failed.bench.files ["tmp", "job"]
        [(Path.mk "m").normalised (Location.path ["tmp", "job"])] ∧
      ∀ k ∈ openPipeline.calls ⟨faulty, blank⟩ ⟨"m"⟩ false, ∀ m ∈ failed.bench.cache.misses,
        Fingerprint.Fitting k.after ["tmp", "job"] [m.source] ∧
          Fingerprint.readings k.after ["tmp", "job"] [m.source] =
            Fingerprint.readings failed.bench.files ["tmp", "job"]
              [(Path.mk "m").normalised (Location.path ["tmp", "job"])] := by
  decide +kernel

theorem placed_model : openProject.Placed ⟨"m"⟩ :=
  ⟨placed_project.outside, placed_project.notIndex, placed_project.notTemporary⟩

theorem history_faulty {admits : Workshop → Prop} {askable : FileTree → Path → Prop}
    (admitted : admits openPipeline) :
    openProject.History admits askable faulty (some (openPipeline, blank)) [] :=
  .begins (by rw [show openProject.index = ["i"] from index_project]; rfl) admitted faulty_opened

/-- A model that was rejected and is asked for again was given to the compiler as it is. -/
theorem known_miss_rejected_rehearsed :
    openProject.History openProject.Admits openProject.Ready failed.bench.files
        (some (openPipeline, failed.bench.cache)) (openPipeline.calls ⟨faulty, blank⟩ ⟨"m"⟩ false) ∧
      (openPipeline.ensure failed.bench ⟨"m"⟩ false).result = .error (.knownMiss ⟨"m"⟩) ∧
      ∃ k ∈ openPipeline.calls ⟨faulty, blank⟩ ⟨"m"⟩ false,
        openProject.Rejected k failed.bench.cache.environment failed.bench.files ⟨"m"⟩ := by
  obtain ⟨given, known, isMiss, fits, same⟩ := failed_reads
  have ready : openProject.Ready faulty ⟨"m"⟩ :=
    ⟨⟨placed_model, exists_of_isSome (by decide +kernel)⟩, exists_of_isSome (by decide +kernel)⟩
  have readyAgain : openProject.Ready failed.bench.files ⟨"m"⟩ :=
    ⟨⟨placed_model, exists_of_isSome given⟩, exists_of_isSome known⟩
  have opening : openProject.History openProject.Admits openProject.Ready faulty
      (some (openPipeline, blank)) [] := history_faulty admits_open
  have history := opening.ensured ready false
  have answer : (openPipeline.ensure failed.bench ⟨"m"⟩ false).result = .error (.knownMiss ⟨"m"⟩) :=
    error_of_error? isMiss
  exact ⟨history, answer, Premises.known_miss_rejected history readyAgain answer
    (fun k isCall m member _ => congrArg Fingerprint.stream (same k isCall m member).2) fits
    fun k isCall m member => (same k isCall m member).1⟩

/-- The request for the faulty model when the source has been generated. -/
def begun : Bench × Request := openPipeline.after ⟨"m"⟩ 2 (⟨faulty, blank⟩, .lookup)

/-- The model is repaired then. -/
def repaired : Bench :=
  ⟨begun.1.files.insert ["tmp", "job", "m"] (.file (Bytes.ofString source) .plain), begun.1.cache⟩

/-- The end of the request. -/
def overtaken : Bench × Request := openPipeline.after ⟨"m"⟩ 8 (repaired, begun.2)

/-- The repaired model is a known miss, though only the rejected one was compiled. -/
theorem overtaken_reads :
    overtaken.2.rank = 0 ∧
      (overtaken.1.files.read ["tmp", "job"] ⟨"m"⟩).toOption = some (Bytes.ofString source) ∧
      (overtaken.1.files.read ["tmp", "job"]
        ((Path.mk "m").normalised (Location.path ["tmp", "job"]))).toOption.isSome = true ∧
      error? (openPipeline.ensure overtaken.1 ⟨"m"⟩ false).result = some (.knownMiss ⟨"m"⟩) ∧
      ∀ k ∈ [] ++ openPipeline.compilations ⟨"m"⟩ 2 ⟨faulty, blank⟩ "" .lookup ++
        openPipeline.compilations ⟨"m"⟩ 8 repaired
          (openPipeline.textAfter ⟨"m"⟩ 2 ⟨faulty, blank⟩ "" .lookup) begun.2,
        k.text = rejected := by
  decide +kernel

/-- A model that is repaired while its compile is under way is taken for the one that was rejected:
it is a known miss, although the compiler was never called for it. -/
theorem known_miss_repaired :
    ∃ text log result,
      openProject.Disturbed openPipeline ⟨"m"⟩ overtaken.1 text log (.finished result) ∧
      openProject.Ready overtaken.1.files ⟨"m"⟩ ∧
      (openPipeline.ensure overtaken.1 ⟨"m"⟩ false).result = .error (.knownMiss ⟨"m"⟩) ∧
      ∀ k ∈ log,
        ¬ openProject.Rejected k overtaken.1.cache.environment overtaken.1.files ⟨"m"⟩ := by
  obtain ⟨isEnd, given, known, isMiss, texts⟩ := overtaken_reads
  have start : openProject.Disturbed openPipeline ⟨"m"⟩ ⟨faulty, blank⟩ "" [] .lookup :=
    .start (by decide +kernel)
  have location : (Path.mk "m").location openProject.here = ["tmp", "job", "m"] := by
    decide +kernel
  have changed := (start.stages 2).written (Bytes.ofString source) .plain
  rw [location] at changed
  have ended : openProject.Disturbed openPipeline ⟨"m"⟩ overtaken.1 _ _ overtaken.2 :=
    changed.stages 8
  obtain ⟨result, isFinished⟩ := Request.exists_finished isEnd
  rw [isFinished] at ended
  have now : overtaken.1.files.read openProject.here ⟨"m"⟩ = .ok (Bytes.ofString source) :=
    ok_of_toOption given
  refine ⟨_, _, result, ended, ⟨⟨placed_model, _, now⟩, exists_of_isSome known⟩,
    error_of_error? isMiss, fun k isCall isRejected => ?_⟩
  obtain ⟨bytes, given, from'⟩ := isRejected.compiled
  rw [now] at given
  cases given
  obtain ⟨made, isGenerated, text⟩ := from'.generated
  have isSource : openProject.generated (Bytes.ofString source) = some ⟨source, none, none⟩ := by
    decide +kernel
  rw [isSource, Option.some.injEq] at isGenerated
  rw [texts k isCall, ← isGenerated] at text
  exact absurd text (by decide +kernel)

end Rehearsal
end SimWorkbench
