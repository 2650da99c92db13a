import SimWorkbench.Proofs.Build.Answers
import SimWorkbench.Proofs.Build.Rehearsal
import SimWorkbench.Proofs.Build.Requests
import SimWorkbench.Proofs.Path.Length

/-!
# Answers from the cache

An entry that answers a request was made after a call of the compiler, and the model and the
executable read now as they did then: the fingerprint would tell if they did not.
-/
namespace SimWorkbench

/-- An entry whose model has too long a path does not expire while its executable reads as it did. -/
theorem Cache.outdated_of_tooLong {digest : Digest} {files files' : FileTree} {here : Location}
    {source artifact : Path} {package : String}
    (long : 4096 ≤ (source.normalised here.path).text.utf8ByteSize)
    (executable : files'.read here (artifact.normalised here.path) =
      files.read here (artifact.normalised here.path)) :
    outdated digest files' here (entryOf digest files here source artifact package) = false := by
  set d := entryOf digest files here source artifact package
  have unreadable : ∀ t : FileTree, (t.read here d.source).toOption = none :=
    fun t => FileTree.read_tooLong t here long
  have same : Fingerprint.now digest files' here [d.source, d.artifact] = d.fingerprint := by
    have readings : Fingerprint.readings files' here [d.source, d.artifact] =
        Fingerprint.readings files here [d.source, d.artifact] := by
      simp only [Fingerprint.readings, List.map_cons, List.map_nil, unreadable]
      rw [show d.artifact = artifact.normalised here.path from rfl, executable]
    rw [Fingerprint.now, readings]
    rfl
  simpa [outdated] using same

/-- Such an entry is found although its model has changed. -/
theorem Cache.lookup_of_tooLong {digest : Digest} {c : Cache} {files files' : FileTree}
    {here : Location} {source artifact : Path} {package : String}
    (long : 4096 ≤ (source.normalised here.path).text.utf8ByteSize)
    (executable : files'.read here (artifact.normalised here.path) =
      files.read here (artifact.normalised here.path)) :
    let d := entryOf digest files here source artifact package
    (c.withEntry d).lookup digest files' here source = ⟨files', c.withEntry d, some d⟩ := by
  intro d
  exact lookup_of_current (entry?_stored c digest files here source artifact package)
    (outdated_of_tooLong long executable)

namespace FileTree

/-- A file that is read under one of its paths is read under another one that leads to it. -/
theorem read_of_isFile {t : FileTree} {here : Location} {p q : Path} {content : Bytes}
    (isFile : t.isFile here p = true) (readable : t.read here q = .ok content)
    (same : q.location here = p.location here) : t.read here p = .ok content := by
  obtain ⟨l, e, located, isContent⟩ := read_ok_iff.mp readable
  have found := locate_get? located
  rw [locate_location located, same] at found
  cases locatedP : t.locate here p with
  | error cause => simp [FileTree.isFile, entryAt?, locatedP, Except.toOption] at isFile
  | ok ends =>
    obtain ⟨l', e'⟩ := ends
    have found' := locate_get? locatedP
    rw [locate_location locatedP, found, Option.some.injEq] at found'
    exact read_ok_iff.mpr ⟨l', e', locatedP, found' ▸ isContent⟩

end FileTree

/-- Of two files of which the first can be read, the contents that can be read tell both. -/
theorem Fingerprint.pair_injective {a b : Bytes} {x y : Option Bytes}
    (same : [(.ok a : Except OsError Bytes).toOption, x].filterMap id =
      [(.ok b : Except OsError Bytes).toOption, y].filterMap id) : a = b ∧ x = y := by
  rcases x with _ | x <;> rcases y with _ | y <;>
    simp_all [Except.toOption]

namespace Premises

variable {s : Premises}

/-- Whether the digest tells the files of an entry as they are from those after the calls. -/
def Uncollided (s : Premises) (log : List Compilation) (files : FileTree) (d : Descriptor) : Prop :=
  ∀ k ∈ log,
    let before := Fingerprint.stream (Fingerprint.readings k.after s.here [d.source, d.artifact])
    let now := Fingerprint.stream (Fingerprint.readings files s.here [d.source, d.artifact])
    s.digest before = s.digest now → before = now

/-- Whether an executable is what a call of the compiler left for the model as it is now, in the
given environment. -/
structure Current (s : Premises) (k : Compilation) (environment : String) (files : FileTree)
    (model artifact : Path) : Prop where
  compiled : ∃ bytes, files.read s.here model = .ok bytes ∧ s.From k environment bytes
  output : artifact = k.job.output.normalised s.here.path
  produced : k.after.isFile s.here k.job.output = true
  /-- What can be read of the executable is what could be read of it after the call. -/
  unchanged : (files.read s.here artifact).toOption = (k.after.read s.here artifact).toOption
  /-- These are the bytes that the compiler left at its output. -/
  bytes : ∀ executable, files.read s.here artifact = .ok executable →
    k.after.read s.here k.job.output = .ok executable

/-- In every run over a project in which models are asked for that can be read under the path by
which the cache knows them: when a model is asked for without force and the answer comes from the
cache, the executable is what a call of the compiler in the present environment left for the model
as it is now. -/
theorem cached_provenance {files : FileTree} {w : Workshop} {c : Cache} {log : List Compilation}
    {model : Path} {d : Descriptor} (history : s.History s.Admits s.Ready files (some (w, c)) log)
    (ready : s.Ready files model)
    (answer : (w.ensure ⟨files, c⟩ model false).result = .ok (d, .cached))
    (uncollided : s.Uncollided log files d)
    (fits : Fingerprint.Fitting files s.here [d.source, d.artifact])
    (didFit : ∀ k ∈ log, Fingerprint.Fitting k.after s.here [d.source, d.artifact]) :
    ∃ k ∈ log, s.Current k c.environment (w.ensure ⟨files, c⟩ model false).bench.files model
      d.artifact := by
  obtain ⟨admits, sound⟩ := (sound_of_history history).2 w c rfl
  have found := Workshop.cached_iff_lookup.mp answer
  obtain ⟨entry, fresh, files'⟩ := Cache.found_of_lookup found
  have unchanged : (w.ensure ⟨files, c⟩ model false).bench.files = files := by
    rw [Workshop.bench_of_cached answer]
    exact files'
  rw [unchanged]
  simp only [show w.here = s.here from admits.here, admits.digest] at entry fresh
  obtain ⟨member, key⟩ := Cache.mem_of_found entry
  obtain ⟨k, made, supports⟩ := sound.records.entries d member
  obtain ⟨bytes, given, known⟩ := ready.holds
  obtain ⟨past, once, from'⟩ := supports.model
  have now : files.read s.here d.source = .ok bytes := FileTree.read_of_same key once known
  have streams : s.digest (Fingerprint.stream
      (Fingerprint.readings k.after s.here [d.source, d.artifact])) =
      s.digest (Fingerprint.stream (Fingerprint.readings files s.here [d.source, d.artifact])) :=
    congrArg Fingerprint.hex (supports.fingerprint.symm.trans fresh)
  have contents := Fingerprint.stream_injective
    (fun content member => didFit k made _ member content rfl)
    (fun content member => fits _ member content rfl) (uncollided k made streams)
  simp only [Fingerprint.readings, List.map_cons, List.map_nil, once, now] at contents
  obtain ⟨rfl, executables⟩ := Fingerprint.pair_injective contents
  refine ⟨k, made, ⟨past, given, from'⟩, supports.artifact, supports.produced, executables.symm, ?_⟩
  intro executable readable
  have then' : k.after.read s.here d.artifact = .ok executable := by
    rw [readable] at executables
    cases read : k.after.read s.here d.artifact with
    | error cause => simp [read, Except.toOption] at executables
    | ok content =>
      rw [read, Except.toOption, Except.toOption, Option.some.injEq] at executables
      rw [executables]
  refine FileTree.read_of_isFile supports.produced then' ?_
  rw [supports.artifact, Path.location_normalised _ s.proper]

end Premises

namespace Rehearsal

/-- A model that was built once is answered from the cache, and its executable is current. -/
theorem cached_provenance_rehearsed :
    project.History project.Admits project.Ready built.bench.files (some (pipeline, built.bench.cache))
        (pipeline.calls ⟨fresh, unused⟩ ⟨"m"⟩ false) ∧
      (pipeline.ensure built.bench ⟨"m"⟩ false).result = .ok (entry, .cached) ∧
      ∃ k ∈ pipeline.calls ⟨fresh, unused⟩ ⟨"m"⟩ false,
        project.Current k built.bench.cache.environment
          (pipeline.ensure built.bench ⟨"m"⟩ false).bench.files ⟨"m"⟩ entry.artifact := by
  have ready : project.Ready fresh ⟨"m"⟩ :=
    ⟨⟨placed_project, exists_of_isSome (by decide +kernel)⟩, exists_of_isSome (by decide +kernel)⟩
  have readyAgain : project.Ready built.bench.files ⟨"m"⟩ :=
    ⟨⟨placed_project, exists_of_isSome (by decide +kernel)⟩, exists_of_isSome (by decide +kernel)⟩
  have opening : project.History project.Admits project.Ready fresh (some (pipeline, unused)) [] :=
    history_fresh (admits [1])
  have history := opening.ensured ready false
  have answer : (pipeline.ensure built.bench ⟨"m"⟩ false).result = .ok (entry, .cached) :=
    ok_of_toOption (by decide +kernel)
  refine ⟨history, answer, Premises.cached_provenance history readyAgain answer ?_ ?_ ?_⟩
  · have same : ∀ k ∈ pipeline.calls ⟨fresh, unused⟩ ⟨"m"⟩ false,
        Fingerprint.readings k.after ["tmp", "job"] [entry.source, entry.artifact] =
          Fingerprint.readings built.bench.files ["tmp", "job"] [entry.source, entry.artifact] := by
      decide +kernel
    exact fun k member _ => congrArg Fingerprint.stream (same k member)
  · decide +kernel
  · have fits : ∀ k ∈ pipeline.calls ⟨fresh, unused⟩ ⟨"m"⟩ false,
        Fingerprint.Fitting k.after ["tmp", "job"] [entry.source, entry.artifact] := by
      decide +kernel
    exact fits

/-- The model, by a path that is too long for the system when it is seen from the root. -/
@[irreducible] def winding : Path := Path.detour 818

theorem long_winding :
    4096 ≤ (winding.normalised (Location.path ["tmp", "job"])).text.utf8ByteSize := by
  have isOpen : (Location.path ["tmp", "job"]).Open := by
    unfold Path.Open
    decide +kernel
  have long : 4096 ≤ (Location.path ["tmp", "job"]).text.utf8ByteSize + (5 * 818 + 2) := by
    decide +kernel
  unfold winding
  exact Nat.le_trans long (Path.size_normalised_detour (by decide) isOpen)

theorem read_winding {t : FileTree} {e : Entry} {content : Bytes}
    (directory : t.get? ["tmp", "job"] = some .directory)
    (inner : t.get? ["tmp", "job", "d"] = some .directory)
    (found : t.get? ["tmp", "job", "m"] = some e) (readable : e.content? = some content) :
    t.read ["tmp", "job"] winding = .ok content := by
  unfold winding
  exact Path.read_detour (by decide) directory inner found readable

/-- What is generated by the long way is told by what the model holds. -/
theorem generate_winding {t : FileTree} {c : Cache} {text : String} {u : SourceUnit}
    (readable : t.read ["tmp", "job"] winding = .ok (Bytes.ofString text))
    (decoded : Text.Utf8.toString? (Bytes.ofString text) = some text)
    (plain : (Text.splitAt? "ungeneratable".toList text.toList).isSome = false)
    (declares : (SourceUnit.parse text.toList).toOption = some u) :
    pipeline.step ⟨t, c⟩ winding .generate = (⟨t, c⟩, .claim text u) := by
  have isText : t.readText ["tmp", "job"] winding = .ok text := by
    rw [FileTree.readText, readable]
    simp only [bind, Except.bind, decoded]
  have isGenerator : pipeline.generator = generator ["tmp", "job"] none none := rfl
  have made : pipeline.generator t winding = (t, .ok ⟨text, none, none⟩) := by
    rw [isGenerator]
    exact generator_ok isText plain
  exact Workshop.generate_of_text (b := ⟨t, c⟩) made (ok_of_toOption declares)

theorem generated_winding :
    pipeline.step ⟨fresh, unused⟩ winding .generate = (⟨fresh, unused⟩, .claim source ⟨"p", "T"⟩) := by
  have readable : fresh.read ["tmp", "job"] winding = .ok (Bytes.ofString source) :=
    @read_winding fresh (.file (Bytes.ofString source) .plain) _ (by decide +kernel)
      (by decide +kernel) (by decide +kernel) rfl
  exact generate_winding readable (by decide +kernel) (by decide +kernel) (by decide +kernel)

/-- What the compile for the source comes to, when the executable is to be stored. -/
def compiled : Bench × Request :=
  pipeline.after ⟨"m"⟩ 4 (⟨fresh, unused⟩, .invoking (Invocation.start source "p" "T"))

theorem compiled_eq :
    compiled = (⟨compiled.1.files, unused⟩, .store ⟨"p", "T", ⟨"/s/p/T.rs"⟩, ⟨"/c/p/T"⟩⟩) := by
  have cache : compiled.1.cache = unused := by decide +kernel
  have request : compiled.2 = .store ⟨"p", "T", ⟨"/s/p/T.rs"⟩, ⟨"/c/p/T"⟩⟩ :=
    Request.eq_store (by decide +kernel)
  rw [← request, ← cache]

/-- The entry of the model by the long way. -/
def windingEntry : Descriptor :=
  Cache.entryOf pipeline.digest compiled.1.files pipeline.here winding ⟨"/c/p/T"⟩ "p"

theorem lookup_winding :
    pipeline.step ⟨fresh, unused⟩ winding .lookup = (⟨fresh, unused⟩, .generate) :=
  @Workshop.lookup_of_unanswered pipeline ⟨fresh, unused⟩ winding fun _ found => nomatch found

theorem claim_winding :
    pipeline.step ⟨fresh, unused⟩ winding (.claim source ⟨"p", "T"⟩) =
      (⟨fresh, unused⟩, .invoking (Invocation.start source "p" "T")) :=
  Workshop.claim_of_unowned rfl

/-- The stages of a request by the long way, up to the storing of the executable. -/
theorem stages_winding (n : Nat) :
    pipeline.after winding (4 + n + 1 + 1 + 1) (⟨fresh, unused⟩, .lookup) =
      pipeline.after winding n compiled := by
  have compiling : pipeline.after winding 4
      (⟨fresh, unused⟩, .invoking (Invocation.start source "p" "T")) = compiled :=
    pipeline.after_congr winding (by decide +kernel)
  calc pipeline.after winding (4 + n + 1 + 1 + 1) (⟨fresh, unused⟩, .lookup)
      = pipeline.after winding (4 + n + 1 + 1) (⟨fresh, unused⟩, .generate) :=
        pipeline.after_of_step lookup_winding _
    _ = pipeline.after winding (4 + n + 1) (⟨fresh, unused⟩, .claim source ⟨"p", "T"⟩) :=
        pipeline.after_of_step generated_winding _
    _ = pipeline.after winding (4 + n)
          (⟨fresh, unused⟩, .invoking (Invocation.start source "p" "T")) :=
        pipeline.after_of_step claim_winding _
    _ = pipeline.after winding n compiled := by rw [pipeline.after_add, compiling]

theorem ensured_winding :
    (pipeline.ensure ⟨fresh, unused⟩ winding false).bench =
      ⟨(unused.withEntry windingEntry).swept pipeline.here [] compiled.1.files,
        unused.withEntry windingEntry⟩ := by
  have ended := pipeline.after_eq_ensure ⟨fresh, unused⟩ winding false
  have rank : (Request.start false).rank = 4 + (2 + 1) + 1 + 1 + 1 := rfl
  rw [rank, show Request.start false = .lookup from rfl, stages_winding] at ended
  obtain ⟨result, stored, -⟩ := pipeline.step_store ⟨compiled.1.files, unused⟩ winding
    ⟨"p", "T", ⟨"/s/p/T.rs"⟩, ⟨"/c/p/T"⟩⟩
  have storing := (pipeline.after_of_step stored 2).trans (pipeline.after_finished winding 2 _ _)
  rw [← compiled_eq, ended] at storing
  exact (Prod.mk.inj storing).1

/-- Another model for the same unit. -/
def changed : String := source ++ "// changed\n"

/-- The files after the model was changed. -/
def rewritten : FileTree :=
  ((unused.withEntry windingEntry).swept pipeline.here [] compiled.1.files).insert
    ["tmp", "job", "m"] (.file (Bytes.ofString changed) .plain)

theorem location_winding : winding.location ["tmp", "job"] = ["tmp", "job", "m"] := by
  unfold winding
  exact Path.location_detour 818 _

theorem readable_winding {t : FileTree} {e : Entry} {content : Bytes}
    (directory : t.get? ["tmp", "job"] = some .directory)
    (inner : t.get? ["tmp", "job", "d"] = some .directory)
    (found : t.get? ["tmp", "job", "m"] = some e) (readable : e.content? = some content) :
    project.Readable t winding := by
  have outside : project.layout.Outside ["tmp", "job"] ["tmp", "job", "m"] ∧
      ["tmp", "job", "m"] ≠ project.index ∧
        ["tmp", "job", "m"] ≠ project.layout.temporary.location ["tmp", "job"] := by
    decide +kernel
  rw [← location_winding] at outside
  exact ⟨⟨outside.1, outside.2.1, outside.2.2⟩, _, read_winding directory inner found readable⟩

/-- The change of the model leaves what the compile had left. -/
theorem kept_rewritten :
    FileTree.KeepsDirectories compiled.1.files rewritten ∧
      ∀ l ∈ [["tmp", "job"], ["tmp", "job", "d"], ["c", "p"], ["c", "p", "T"]],
        rewritten.get? l = compiled.1.files.get? l := by
  obtain ⟨kept, grows⟩ := Cache.swept_frame (unused.withEntry windingEntry) ["tmp", "job"] []
    compiled.1.files
  have model := grows ["tmp", "job", "m"] (by decide +kernel) (by decide +kernel) (by simp)
  have isFile : compiled.1.files.get? ["tmp", "job", "m"] =
      some (.file (Bytes.ofString source) .plain) := by decide +kernel
  constructor
  · refine kept.trans (FileTree.keepsDirectories_insert ?_)
    rw [model.file isFile]
    simp
  · intro l member
    have there : (compiled.1.files.get? l).isSome = true ∧ l ≠ ["i"] ∧ l ≠ ["i.tmp"] ∧
        l ≠ ["tmp", "job", "m"] := by
      revert l
      decide +kernel
    obtain ⟨e, found⟩ := Option.isSome_iff_exists.mp there.1
    rw [rewritten, FileTree.get?_insert_ne there.2.2.2, found]
    exact (grows l there.2.1 there.2.2.1 (by simp)).file found

/-- The only call of the request by the long way is for the source, and leaves the executable. -/
theorem calls_winding :
    ∀ k ∈ pipeline.calls ⟨fresh, unused⟩ winding false,
      k.text = source ∧ k.after = compiled.1.files := by
  have later : ∀ k ∈ pipeline.compilations ⟨"m"⟩ 7 ⟨fresh, unused⟩ ""
      (.invoking (Invocation.start source "p" "T")),
      k.text = source ∧ k.after = compiled.1.files := by
    decide +kernel
  rw [← pipeline.compilations_congr _ winding] at later
  have calls : pipeline.calls ⟨fresh, unused⟩ winding false =
      pipeline.compilations winding 7 ⟨fresh, unused⟩ ""
        (.invoking (Invocation.start source "p" "T")) := by
    rw [Workshop.calls, show (Request.start false).rank = 7 + 1 + 1 + 1 from rfl,
      show Request.start false = .lookup from rfl, pipeline.compilations_of_step lookup_winding rfl,
      pipeline.compilations_of_step generated_winding rfl,
      pipeline.compilations_of_step claim_winding rfl]
  rwa [calls]

/-- A model whose absolute path is too long is answered from the cache although it has changed: no
call of the compiler was made for what it holds now. -/
theorem cached_outdated :
    project.History project.Admits project.Readable rewritten
        (some (pipeline, unused.withEntry windingEntry))
        (pipeline.calls ⟨fresh, unused⟩ winding false) ∧
      project.Readable rewritten winding ∧
      project.Uncollided (pipeline.calls ⟨fresh, unused⟩ winding false) rewritten windingEntry ∧
      (pipeline.ensure ⟨rewritten, unused.withEntry windingEntry⟩ winding false).result =
        .ok (windingEntry, .cached) ∧
      ∀ k ∈ pipeline.calls ⟨fresh, unused⟩ winding false,
        ¬ project.Current k unused.environment
          (pipeline.ensure ⟨rewritten, unused.withEntry windingEntry⟩ winding false).bench.files
          winding windingEntry.artifact := by
  obtain ⟨kept, same⟩ := kept_rewritten
  have found : rewritten.get? ["tmp", "job", "m"] = some (.file (Bytes.ofString changed) .plain) :=
    FileTree.get?_insert_self _ _ (by decide)
  have first : project.Readable fresh winding :=
    @readable_winding fresh (.file (Bytes.ofString source) .plain) _ (by decide +kernel)
      (by decide +kernel) (by decide +kernel) rfl
  have directory : rewritten.get? ["tmp", "job"] = some .directory := by
    rw [same _ (by decide +kernel)]
    decide +kernel
  have inner : rewritten.get? ["tmp", "job", "d"] = some .directory := by
    rw [same _ (by decide +kernel)]
    decide +kernel
  have opening : project.History project.Admits project.Readable fresh (some (pipeline, unused)) [] :=
    history_fresh (admits [1])
  have ensured := opening.ensured first false
  rw [ensured_winding, List.nil_append] at ensured
  have history : project.History project.Admits project.Readable rewritten
      (some (pipeline, unused.withEntry windingEntry))
      (pipeline.calls ⟨fresh, unused⟩ winding false) := ensured.edited (leaves_model _ _)
  have executable : rewritten.read ["tmp", "job"] windingEntry.artifact =
      compiled.1.files.read ["tmp", "job"] windingEntry.artifact := by
    have artifact : windingEntry.artifact = ⟨"/c/p/T"⟩ := artifact_normalised
    have before : (compiled.1.files.read ["tmp", "job"] ⟨"/c/p/T"⟩).toOption =
        some (Bytes.ofString source).reverse := by decide +kernel
    rw [artifact, ok_of_toOption before]
    refine @FileTree.read_mono _ _ _ ⟨"/c/p/T"⟩ _ kept (.inl ?_) (ok_of_toOption before)
    exact same _ (by decide +kernel)
  have answer : (unused.withEntry windingEntry).lookup pipeline.digest rewritten pipeline.here
      winding = ⟨rewritten, unused.withEntry windingEntry, some windingEntry⟩ :=
    @Cache.lookup_of_tooLong pipeline.digest unused compiled.1.files rewritten pipeline.here winding
      ⟨"/c/p/T"⟩ "p" long_winding executable
  obtain ⟨result, bench⟩ :=
    Workshop.ensure_of_current answer
  refine ⟨history, readable_winding directory inner found rfl, ?_, result, ?_⟩
  · intro k isCall before now _
    have unreadable : ∀ t : FileTree,
        (t.read ["tmp", "job"] windingEntry.source).toOption = none :=
      fun t => FileTree.read_tooLong t _ long_winding
    have readings : Fingerprint.readings k.after ["tmp", "job"]
          [windingEntry.source, windingEntry.artifact] =
        Fingerprint.readings rewritten ["tmp", "job"]
          [windingEntry.source, windingEntry.artifact] := by
      simp only [Fingerprint.readings, List.map_cons, List.map_nil, unreadable, executable,
        (calls_winding k isCall).2]
    exact congrArg Fingerprint.stream readings
  · intro k isCall current
    obtain ⟨bytes, given, made⟩ := current.compiled
    obtain ⟨generated, isGenerated, text⟩ := made.generated
    have isChanged : project.generated (Bytes.ofString changed) = some ⟨changed, none, none⟩ := by
      decide +kernel
    rw [bench, show project.here = ["tmp", "job"] from rfl,
      read_winding directory inner found rfl] at given
    cases given
    rw [isChanged, Option.some.injEq] at isGenerated
    rw [(calls_winding k isCall).1, ← isGenerated] at text
    exact absurd text (by decide +kernel)

end Rehearsal
end SimWorkbench
