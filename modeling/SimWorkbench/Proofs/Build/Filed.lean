import SimWorkbench.Proofs.Build.Answers
import SimWorkbench.Proofs.Build.History
import SimWorkbench.Proofs.Cache.Fingerprint
import SimWorkbench.Proofs.Path.Below

/-!
# Where executables are found

Every entry was stored right after a call of the compiler for the unit that its source declares, and
names the place of that unit by its absolute path. So when a request is answered with an executable,
be it from the cache or from the compiler, a file is in the place where the layout puts the unit, and
it holds the bytes that the fingerprint of the answer was taken over.
-/
namespace SimWorkbench

open FileTree (KeepsDirectories GrowsAt NothingNewAt)

namespace Grounds

/-- A pipeline of the project that fingerprints files in a given way. Its generator does not write the
index, and neither does its compiler, unless it is its output. -/
structure Regular (g : Grounds) (digest : Digest) (w : Workshop) : Prop extends g.Site w where
  digest : w.digest = digest
  generatorLeaves : ∀ files model, NothingNewAt files (w.generator files model).1 g.index
  compilerLeaves : ∀ files job, job.output.location g.here ≠ g.index →
    NothingNewAt files (w.site.compiler.compile files job).1 g.index

/-- Whether an entry was stored right after a call of the compiler, for the unit of the source. -/
structure Filed (g : Grounds) (digest : Digest) (k : Compilation) (u : SourceUnit) (d : Descriptor) :
    Prop where
  declares : SourceUnit.parse k.text.toList = .ok u
  package : d.package = u.package
  output : k.job.output = g.layout.artifactFile u.package u.typeName
  artifact : d.artifact = k.job.output.normalised g.here.path
  produced : k.after.isFile g.here k.job.output = true
  fingerprint : d.fingerprint = Fingerprint.now digest k.after g.here [d.source, d.artifact]

/-- The law that every entry was stored right after one of the calls. -/
def filing (g : Grounds) (digest : Digest) (log : List Compilation) : Cache.Law :=
  fun _ entries _ => ∀ d ∈ entries, ∃ k ∈ log, ∃ u, g.Filed digest k u d

/-- What is known of a request after its calls so far: which unit it is for, and, once the compiler
was called, that nothing happened since then. -/
def Stays (g : Grounds) (digest : Digest) (w : Workshop) (calls : List Compilation) (files : FileTree)
    (text : String) : Request → Prop
  | .claim text' u | .invoking (.writeSource u text') => SourceUnit.parse text'.toList = .ok u
  | .invoking (.clearOutput u) | .invoking (.callCompiler u) => SourceUnit.parse text.toList = .ok u
  | .invoking (.inspect u _) => ∃ k ∈ calls, SourceUnit.parse k.text.toList = .ok u ∧
      k.job = Invocation.job w.site u ∧ k.after = files
  | .invoking (.finished result) => ∀ built, result ≠ .ok built
  | .store built => ∃ k ∈ calls, ∃ u, SourceUnit.parse k.text.toList = .ok u ∧
      built.package = u.package ∧ k.job.output = g.layout.artifactFile u.package u.typeName ∧
      built.artifact = k.job.output ∧ k.after = files ∧ files.isFile g.here built.artifact = true
  | .finished (.ok (d, .compiled)) => ∃ k ∈ calls, ∃ u, g.Filed digest k u d ∧
      ∃ c : Cache, c.indexPath = g.layout.cacheIndex ∧ files = c.swept g.here [] k.after
  | _ => True

/-- What the stages of a request keep. -/
structure Files (g : Grounds) (digest : Digest) (w : Workshop) (log calls : List Compilation)
    (environment : String) (b : Bench) (text : String) (r : Request) : Prop where
  obeys : g.Obeys (g.filing digest (log ++ calls)) environment b.files b.cache
  stays : g.Stays digest w calls b.files text r

variable {g : Grounds} {digest : Digest} {w : Workshop} {log calls : List Compilation}
  {environment text : String} {files : FileTree} {b : Bench} {c : Cache} {model : Path}
  {d : Descriptor} {u : SourceUnit} {k : Compilation}

theorem filing_lasting (g : Grounds) (digest : Digest) (log : List Compilation) :
    (g.filing digest log).Lasting where
  empty _ := List.forall_mem_nil _
  dropEntry filed _ := fun d member => filed d (Keyed.mem_drop.mp member).1
  dropMiss filed _ := filed
  loaded filed := fun d member => filed d (Keyed.mem_ofList member)

theorem filing_append {entries : List Descriptor} {misses : List Miss} (more : List Compilation)
    (filed : g.filing digest log environment entries misses) :
    g.filing digest (log ++ more) environment entries misses := fun d member =>
  (filed d member).imp fun _ found => ⟨List.mem_append_left _ found.1, found.2⟩

/-! ### Stage by stage -/

theorem files_lookup (regular : g.Regular digest w)
    (known : g.Files digest w log calls environment b text .lookup) :
    g.Files digest w log calls environment (w.step b model .lookup).1 text
      (w.step b model .lookup).2 := by
  have obeys : g.Obeys (g.filing digest (log ++ calls)) environment (w.refreshed b model).files
      (w.refreshed b model).cache := by
    simp only [Workshop.refreshed, show w.here = g.here from regular.here]
    exact known.obeys.lookup (g.filing_lasting _ _) w.digest model
  obtain ⟨after, next, ⟨d, rfl⟩ | rfl | rfl⟩ := w.step_lookup b model <;> rw [next] <;>
    exact ⟨obeys, trivial⟩

theorem files_generate (regular : g.Regular digest w)
    (known : g.Files digest w log calls environment b text .generate) :
    g.Files digest w log calls environment (w.step b model .generate).1 text
      (w.step b model .generate).2 := by
  have obeys := known.obeys.leaves (regular.generatorLeaves b.files model)
  obtain ⟨after, next, ⟨failure, rfl⟩ | ⟨source, unit, -, accepted, rfl⟩⟩ := w.step_generate b model
  · rw [next]
    exact ⟨obeys, trivial⟩
  · rw [next]
    exact ⟨obeys, GeneratedSource.parse_of_unit accepted⟩

theorem files_claim {text' : String}
    (known : g.Files digest w log calls environment b text (.claim text' u)) :
    g.Files digest w log calls environment b text (w.checkOwner b.cache model text' u) := by
  unfold Workshop.checkOwner
  split
  · exact ⟨known.obeys, trivial⟩
  · rw [Invocation.start_of_parse known.stays]
    exact ⟨known.obeys, known.stays⟩

/-- The stages that put files in place do not write the index. -/
theorem obeys_placing {law : Cache.Law} (site : g.Site w) {i : Invocation} (declared : u.Declared)
    (obeys : g.Obeys law environment b.files b.cache)
    (stage : (∃ text, i = .writeSource u text) ∨ i = .clearOutput u) :
    g.Obeys law environment (i.step w.site b.files).1 b.cache := by
  have apart : w.site.layout.Apart w.site.here g.index := by
    rw [site.layout, show w.site.here = g.here from site.here]
    exact g.indexApart
  obtain ⟨-, grows⟩ := Invocation.step_frame w.site b.files declared stage apart
  exact obeys.leaves grows.nothingNewAt

theorem files_writeSource (regular : g.Regular digest w) {text' : String}
    (known : g.Files digest w log calls environment b text (.invoking (.writeSource u text'))) :
    g.Files digest w log calls environment (w.step b model (.invoking (.writeSource u text'))).1
      text' (w.step b model (.invoking (.writeSource u text'))).2 := by
  have obeys := obeys_placing regular.toSite ⟨_, known.stays⟩ known.obeys (.inl ⟨text', rfl⟩)
  rw [Invocation.step, Invocation.files_proceed] at obeys
  obtain ⟨after, next, ⟨-, rfl⟩ | ⟨fault, -, rfl⟩⟩ := w.step_writeSource b model u text' <;> rw [next]
  · exact ⟨obeys, known.stays⟩
  · exact ⟨obeys, trivial⟩

theorem files_clearOutput (regular : g.Regular digest w)
    (known : g.Files digest w log calls environment b text (.invoking (.clearOutput u))) :
    g.Files digest w log calls environment (w.step b model (.invoking (.clearOutput u))).1 text
      (w.step b model (.invoking (.clearOutput u))).2 := by
  have obeys := obeys_placing regular.toSite ⟨_, known.stays⟩ known.obeys (.inr rfl)
  rw [Invocation.step, Invocation.files_proceed] at obeys
  obtain ⟨after, next, ⟨-, rfl⟩ | ⟨fault, -, rfl⟩⟩ := w.step_clearOutput b model u <;> rw [next]
  · exact ⟨obeys, known.stays⟩
  · exact ⟨obeys, trivial⟩

theorem files_callCompiler (regular : g.Regular digest w)
    (known : g.Files digest w log calls environment b text (.invoking (.callCompiler u))) :
    g.Files digest w log
      (calls ++ (w.compilation? b text (.invoking (.callCompiler u))).toList) environment
      (w.step b model (.invoking (.callCompiler u))).1 text
      (w.step b model (.invoking (.callCompiler u))).2 := by
  have apart : (Invocation.job w.site u).output.location g.here ≠ g.index := by
    rw [Invocation.job, regular.layout]
    exact Ne.symm (g.indexApart u ⟨_, known.stays⟩).2
  have obeys := known.obeys.leaves (regular.compilerLeaves b.files (Invocation.job w.site u) apart)
  rw [w.step_callCompiler]
  refine ⟨?_, _, List.mem_append_right _ (List.mem_singleton_self _), known.stays, rfl, rfl⟩
  rw [← List.append_assoc]
  exact obeys.imp fun filed => filing_append _ filed

theorem files_inspect (regular : g.Regular digest w) {answer : String}
    (known : g.Files digest w log calls environment b text (.invoking (.inspect u answer))) :
    g.Files digest w log calls environment (w.step b model (.invoking (.inspect u answer))).1 text
      (w.step b model (.invoking (.inspect u answer))).2 := by
  obtain ⟨k, isCall, declares, job, after⟩ := known.stays
  have output : k.job.output = g.layout.artifactFile u.package u.typeName := by
    rw [job, Invocation.job, regular.layout]
  obtain ⟨stage, next, ⟨-, isFile, rfl⟩ | ⟨-, diagnostic, rfl⟩⟩ := w.step_inspect b model u answer <;>
    rw [next]
  · refine ⟨known.obeys, k, isCall, u, declares, rfl, output, by rw [job], after, ?_⟩
    rwa [show w.here = g.here from regular.here] at isFile
  · exact ⟨known.obeys, trivial⟩

theorem files_finished {result : Except BuildFailure CompiledArtifact}
    (known : g.Files digest w log calls environment b text (.invoking (.finished result))) :
    g.Files digest w log calls environment b text (Workshop.afterInvocation (.finished result)) := by
  refine ⟨known.obeys, ?_⟩
  cases result with
  | ok built => exact absurd rfl (known.stays built)
  | error failure => cases failure <;> exact trivial

theorem files_store (regular : g.Regular digest w) {built : CompiledArtifact}
    (known : g.Files digest w log calls environment b text (.store built)) :
    g.Files digest w log calls environment (w.step b model (.store built)).1 text
      (w.step b model (.store built)).2 := by
  obtain ⟨k, isCall, u, declares, package, output, artifact, after, isFile⟩ := known.stays
  have here : w.here = g.here := regular.here
  have filed : g.Filed digest k u
      (Cache.entryOf w.digest b.files g.here model built.artifact built.package) := by
    refine ⟨declares, package, output, by rw [← artifact]; rfl, by rwa [after, ← artifact], ?_⟩
    rw [after, regular.digest]
    rfl
  obtain ⟨result, next, answer⟩ := w.step_store b model built
  have obeys : g.Obeys (g.filing digest (log ++ calls)) environment
      (w.step b model (.store built)).1.files (w.step b model (.store built)).1.cache := by
    have records : g.filing digest (log ++ calls) environment
        (Keyed.put Descriptor.key (Cache.entryOf w.digest b.files g.here model built.artifact
          built.package) b.cache.entries)
        (Keyed.drop Miss.key (Cache.key g.here model) b.cache.misses) := by
      intro e member
      rcases Keyed.mem_put member with rfl | before
      · exact ⟨k, List.mem_append_right _ isCall, u, filed⟩
      · exact known.obeys.records e before
    simp only [Workshop.step, here]
    exact known.obeys.store records
  rw [next] at obeys ⊢
  rw [here] at answer obeys ⊢
  refine ⟨obeys, ?_⟩
  rcases answer with rfl | ⟨fault, rfl⟩
  · exact ⟨k, isCall, u, filed, b.cache.withEntry _, known.obeys.keeps, by rw [after]⟩
  · trivial

theorem files_step (regular : g.Regular digest w) {r : Request}
    (known : g.Files digest w log calls environment b text r) :
    g.Files digest w log (calls ++ (w.compilation? b text r).toList) environment
      (w.step b model r).1 (r.written?.getD text) (w.step b model r).2 := by
  have plain : (w.compilation? b text r).toList = [] → g.Files digest w log calls environment
      (w.step b model r).1 (r.written?.getD text) (w.step b model r).2 →
      g.Files digest w log (calls ++ (w.compilation? b text r).toList) environment
        (w.step b model r).1 (r.written?.getD text) (w.step b model r).2 := by
    intro none known
    rwa [none, List.append_nil]
  cases r with
  | lookup => exact plain rfl (files_lookup regular known)
  | generate => exact plain rfl (files_generate regular known)
  | claim text' u => exact plain rfl (files_claim known)
  | invoking i =>
    cases i with
    | writeSource u text' => exact plain rfl (files_writeSource regular known)
    | clearOutput u => exact plain rfl (files_clearOutput regular known)
    | callCompiler u => exact files_callCompiler regular known
    | inspect u answer => exact plain rfl (files_inspect regular known)
    | finished result => exact plain rfl (files_finished known)
  | recordMiss diagnostic =>
    obtain ⟨failure, next, -⟩ := w.step_recordMiss b model diagnostic
    have obeys : g.Obeys (g.filing digest (log ++ calls)) environment
        (w.step b model (.recordMiss diagnostic)).1.files
        (w.step b model (.recordMiss diagnostic)).1.cache := by
      simp only [Workshop.step, show w.here = g.here from regular.here]
      exact known.obeys.recordMiss known.obeys.records
    refine plain rfl ⟨obeys, ?_⟩
    rw [next]
    trivial
  | store built => exact plain rfl (files_store regular known)
  | finished result => exact plain rfl known

/-- A request keeps what is filed, however many stages it takes. -/
theorem files_after (regular : g.Regular digest w) (n : Nat) {r : Request}
    (known : g.Files digest w log calls environment b text r) :
    ∃ text', g.Files digest w log (calls ++ w.compilations model n b text r) environment
      (w.after model n (b, r)).1 text' (w.after model n (b, r)).2 := by
  induction n generalizing calls b text r with
  | zero => exact ⟨text, by simpa [Workshop.compilations, Workshop.after] using known⟩
  | succ n ih =>
    have stepped : g.Files digest w log (calls ++ (w.compilation? b text r).toList) environment
        (w.step b model r).1 (r.written?.getD text) (w.step b model r).2 := files_step regular known
    have next := ih stepped
    rwa [List.append_assoc] at next

/-- What a whole request leaves. -/
theorem files_ensure (regular : g.Regular digest w)
    (obeys : g.Obeys (g.filing digest log) environment files c) (model : Path) (force : Bool) :
    ∃ text, g.Files digest w log (w.calls ⟨files, c⟩ model force) environment
      (w.ensure ⟨files, c⟩ model force).bench text
      (.finished (w.ensure ⟨files, c⟩ model force).result) := by
  have start : g.Files digest w log [] environment ⟨files, c⟩ "" (Request.start force) :=
    ⟨by rwa [List.append_nil], by cases force <;> exact trivial⟩
  have ended : ∃ text, g.Files digest w log
      ([] ++ w.compilations model (Request.start force).rank ⟨files, c⟩ "" (Request.start force))
      environment (w.after model (Request.start force).rank (⟨files, c⟩, Request.start force)).1 text
      (w.after model (Request.start force).rank (⟨files, c⟩, Request.start force)).2 :=
    files_after regular _ start
  rwa [w.after_eq_ensure, List.nil_append] at ended

/-- In every run the entries were stored right after calls of the compiler. -/
theorem filed_of_history {open? : Option (Workshop × Cache)}
    (history : g.History (g.Regular digest) (fun _ _ => True) files open? log) :
    ∀ w c, open? = some (w, c) →
      g.Regular digest w ∧ g.Obeys (g.filing digest log) c.environment files c :=
  (history.obeys (fun _ regular => regular.toSite) (g.filing_lasting digest)
    fun regular obeys _ force => (files_ensure regular obeys _ force).elim fun _ known => known.obeys).2

/-! ### What an answer promises -/

/-- Whether a file with the given content is in the place of a unit, and an entry was stored for it
when its executable had the same content. -/
structure Present (g : Grounds) (digest : Digest) (k : Compilation) (u : SourceUnit) (d : Descriptor)
    (files : FileTree) (content : Bytes) : Prop where
  filed : g.Filed digest k u d
  isFile : files.isFile g.here (g.layout.artifactFile u.package u.typeName) = true
  now : files.read g.here (g.layout.artifactFile u.package u.typeName) = .ok content
  stored : k.after.read g.here d.artifact = .ok content

/-- What the answer from the cache relies on: the digest tells the files as they are from those that
the entry was stored for, none of them is too large to be counted, the model could be read when the
entry was stored, and nobody put a device in the place of the executable. -/
structure Reliable (g : Grounds) (digest : Digest) (log : List Compilation) (files : FileTree)
    (d : Descriptor) : Prop where
  uncollided : ∀ k ∈ log,
    let before := Fingerprint.stream (Fingerprint.readings k.after g.here [d.source, d.artifact])
    let now := Fingerprint.stream (Fingerprint.readings files g.here [d.source, d.artifact])
    digest before = digest now → before = now
  fits : Fingerprint.Fitting files g.here [d.source, d.artifact]
  didFit : ∀ k ∈ log, Fingerprint.Fitting k.after g.here [d.source, d.artifact]
  readable : ∀ k ∈ log, ∀ u, g.Filed digest k u d →
    ∃ model, k.after.read g.here d.source = .ok model
  regular : ∀ device, files.get? (d.artifact.location g.here) ≠ some (.device device)

theorem Filed.declared (filed : g.Filed digest k u d) : u.Declared := ⟨_, filed.declares⟩

/-- The executable of an entry is read where the layout puts it exactly if it is read under its
absolute path. -/
theorem Filed.read_iff (filed : g.Filed digest k u d)
    (absolute : g.layout.classesDir.isAbsolute = true) {content : Bytes} :
    files.read g.here d.artifact = .ok content ↔
      files.read g.here (g.layout.artifactFile u.package u.typeName) = .ok content := by
  obtain ⟨package, typeName⟩ := filed.declared.words
  have named := FileTree.canNameFile_of_isFile filed.produced
  rw [filed.artifact]
  rw [filed.output] at named ⊢
  refine FileTree.read_normalised_iff g.proper ?_ named (Path.steps_child typeName.isName)
    typeName.isName.2.2.1
  rw [Layout.artifactFile, Path.isAbsolute_child typeName.isName,
    Path.isAbsolute_child package.isName, absolute]

theorem Filed.location (filed : g.Filed digest k u d) :
    d.artifact.location g.here = (g.layout.artifactFile u.package u.typeName).location g.here := by
  rw [filed.artifact, Path.location_normalised _ g.proper, filed.output]

/-- After a compile the executable is in its place. -/
theorem present_of_compiled {force : Bool} (regular : g.Regular digest w)
    (absolute : g.layout.classesDir.isAbsolute = true)
    (temporaryApart : g.layout.Apart g.here (g.layout.temporary.location g.here))
    (obeys : g.Obeys (g.filing digest log) environment files c)
    (answer : (w.ensure ⟨files, c⟩ model force).result = .ok (d, .compiled)) :
    ∃ k ∈ w.calls ⟨files, c⟩ model force, ∃ u content,
      g.Present digest k u d (w.ensure ⟨files, c⟩ model force).bench.files content := by
  obtain ⟨text, known⟩ := files_ensure regular obeys model force
  have stays := known.stays
  rw [answer] at stays
  obtain ⟨k, isCall, u, filed, saved, isPath, swept⟩ := stays
  have apart := fun {l} (apart : g.layout.Apart g.here l) => Ne.symm (apart u filed.declared).2
  obtain ⟨kept, grows⟩ := saved.swept_frame g.here [] k.after
  have grows := grows ((g.layout.artifactFile u.package u.typeName).location g.here)
    (isPath ▸ apart g.indexApart) (by rw [Cache.temporary, isPath]; exact apart temporaryApart)
    (by simp)
  have produced := filed.output ▸ filed.produced
  obtain ⟨e, located, isFile⟩ := FileTree.locate_of_isFile produced
  obtain ⟨content, stored⟩ := FileTree.exists_read_of_isFile produced
  rw [swept]
  refine ⟨k, isCall, u, content, filed, ?_, FileTree.read_mono kept grows stored,
    (filed.read_iff absolute).mpr stored⟩
  have again := FileTree.locate_mono kept located (grows.file (FileTree.locate_get? located))
  simp [FileTree.isFile, FileTree.entryAt?, again, Except.toOption, isFile]

/-- Of two files that could be read, the contents that can be read now are the same. -/
theorem pair_eq {a b : Bytes} {x y : Option Bytes}
    (same : [some a, some b].filterMap id = [x, y].filterMap id) : x = some a ∧ y = some b := by
  rcases x with _ | x <;> rcases y with _ | y <;> simp_all

/-- A forced request is not answered from the cache. -/
theorem not_cached_of_forced : (w.ensure b model true).result ≠ .ok (d, .cached) := by
  intro cached
  have never : ¬ (w.after model 9 (b, .generate)).2.MayBeKnown :=
    Workshop.not_mayBeKnown_after 9 id
  have ended := w.after_eq_ensure b model true
  rw [show Request.start true = .generate from rfl, show Request.generate.rank = 9 from rfl,
    cached] at ended
  rw [ended] at never
  exact never trivial

/-- When the answer comes from the cache, the executable is in its place as it was stored. -/
theorem present_of_cached (regular : g.Regular digest w)
    (absolute : g.layout.classesDir.isAbsolute = true)
    (obeys : g.Obeys (g.filing digest log) environment files c)
    (answer : (w.ensure ⟨files, c⟩ model false).result = .ok (d, .cached))
    (reliable : g.Reliable digest log files d) :
    ∃ k ∈ log, ∃ u content,
      g.Present digest k u d (w.ensure ⟨files, c⟩ model false).bench.files content := by
  obtain ⟨entry, fresh, same⟩ := Cache.found_of_lookup (Workshop.cached_iff_lookup.mp answer)
  have bench : (w.ensure ⟨files, c⟩ model false).bench.files = files := by
    rw [Workshop.bench_of_cached answer]
    exact same
  rw [bench]
  obtain ⟨k, isCall, u, filed⟩ := obeys.records d (Cache.mem_of_found entry).1
  obtain ⟨bytes, once⟩ := reliable.readable k isCall u filed
  obtain ⟨content, stored⟩ := FileTree.exists_read_of_isFile (filed.output ▸ filed.produced)
  have stored := (filed.read_iff absolute).mpr stored
  have streams : digest (Fingerprint.stream
      (Fingerprint.readings k.after g.here [d.source, d.artifact])) =
      digest (Fingerprint.stream (Fingerprint.readings files g.here [d.source, d.artifact])) := by
    have prints := filed.fingerprint.symm.trans fresh
    rw [regular.digest, show w.here = g.here from regular.here] at prints
    exact congrArg Fingerprint.hex prints
  have contents := Fingerprint.stream_injective
    (fun content member => reliable.didFit k isCall _ member content rfl)
    (fun content member => reliable.fits _ member content rfl)
    (reliable.uncollided k isCall streams)
  simp only [Fingerprint.readings, List.map_cons, List.map_nil, once, stored,
    Except.toOption] at contents
  have now : files.read g.here d.artifact = .ok content := by
    have now := (pair_eq contents).2
    cases read : files.read g.here d.artifact with
    | ok content' => simpa [read] using now
    | error cause => simp [read] at now
  have inPlace := (filed.read_iff absolute).mp now
  exact ⟨k, isCall, u, content, filed,
    FileTree.isFile_of_read inPlace (by rw [← filed.location]; exact reliable.regular), inPlace,
    stored⟩

/-- Whoever is answered with an executable finds it in the place of its unit. -/
theorem present_of_answer {force : Bool} {how : Provenance}
    (absolute : g.layout.classesDir.isAbsolute = true)
    (temporaryApart : g.layout.Apart g.here (g.layout.temporary.location g.here))
    (history : g.History (g.Regular digest) (fun _ _ => True) files (some (w, c)) log)
    (answer : (w.ensure ⟨files, c⟩ model force).result = .ok (d, how))
    (reliable : how = .cached → g.Reliable digest log files d) :
    ∃ k ∈ (if how = .cached then log else w.calls ⟨files, c⟩ model force), ∃ u content,
      g.Present digest k u d (w.ensure ⟨files, c⟩ model force).bench.files content := by
  obtain ⟨regular, obeys⟩ := filed_of_history history w c rfl
  cases how with
  | compiled => exact present_of_compiled regular absolute temporaryApart obeys answer
  | cached =>
    cases force with
    | false => exact present_of_cached regular absolute obeys answer (reliable rfl)
    | true => exact absurd answer not_cached_of_forced

end Grounds

/-- A pipeline whose compiler writes its output alone is regular. -/
theorem Premises.Admits.regular {s : Premises} {w : Workshop} (admits : s.Admits w) :
    s.Regular s.digest w where
  toSite := admits.toSite
  digest := admits.digest
  generatorLeaves files model := (admits.generatorKeeps files model).2.2
  compilerLeaves files job apart := by
    rcases admits.compilerWrites files job s.index with same | ⟨isOutput, -⟩
    · exact fun e now => .inr (same ▸ now)
    · exact absurd isOutput.symm apart

end SimWorkbench
