import SimWorkbench.Proofs.Build.Filed
import SimWorkbench.Proofs.Build.Rehearsal
import SimWorkbench.Proofs.Cache.Opening
import SimWorkbench.Proofs.FileTree.Listing
import SimWorkbench.Tool.Upkeep

/-!
# What a collection leaves

A collection removes files of the directory of executables that are the executable of no entry. It
asks nothing else about them: where that directory holds the index, the index is removed with the
rest. Where it holds neither the index nor the model of an entry, the cache that is opened
afterwards is the one that was open, with every entry as fresh as it was, and there is nothing left
to collect.
-/
namespace SimWorkbench

namespace Cache

variable {here : Location} {path : Path} {environment : String} {files after later : FileTree}
  {c : Cache}

/-- What was opened is opened again where the index is read as it was left. -/
theorem openAt_again (writable : Writable here path files)
    (opened : openAt files here path environment = (after, .ok c))
    (same : (later.read here path).toOption = (after.read here path).toOption) :
    openAt later here path environment = (later, .ok c) := by
  have loaded := load?_congr same
  cases document : Index.load? files here path with
  | none =>
    simp only [openAt, document, Prod.mk.injEq, Except.ok.injEq] at opened
    obtain ⟨rfl, rfl⟩ := opened
    simp only [openAt, loaded, document]
  | some i =>
    by_cases own : i.environment = environment
    · simp only [openAt, document, if_pos own, Prod.mk.injEq, Except.ok.injEq] at opened
      obtain ⟨rfl, rfl⟩ := opened
      simp only [openAt, loaded, document, if_pos own]
    · rw [openAt_of_other document own] at opened
      rcases clear_cases (ofIndex path environment i) here files with
        ⟨cleared, emptied, n, answer⟩ | ⟨fault, -, answer⟩
      · simp only [answer, emptied, Except.map, Prod.mk.injEq, Except.ok.injEq] at opened
        obtain ⟨rfl, rfl⟩ := opened
        have empty : Index.load? later here path = some ⟨environment, [], []⟩ :=
          loaded.trans (cleared.load? writable)
        simp only [openAt, empty, if_true]
        rfl
      · simp [answer, Except.map] at opened

end Cache

namespace Workshop

variable {w : Workshop} {b : Bench} {p : Path}

/-- A bench that was opened has the files that the opening left. -/
theorem openBench_files {t : FileTree} (opened : (w.openBench t).2 = .ok b) :
    b.files = (w.openBench t).1 := by
  unfold Workshop.openBench at opened ⊢
  rcases identified : w.site.compiler.identity t with ⟨after, identity⟩
  rw [identified] at opened
  dsimp only at opened ⊢
  rcases isOpen : Cache.openAt after w.here w.site.layout.cacheIndex
      (environmentDigest w.digest identity w.site.classpath) with ⟨final, fault | c⟩
  · rw [isOpen] at opened
    cases opened
  · rw [isOpen] at opened
    cases opened
    rfl

/-- Where the compiler changes nothing, a pipeline opens the cache that its identity opens. -/
theorem openBench_of_openAt {t : FileTree} {identity : Bytes} {c : Cache}
    (identified : w.site.compiler.identity t = (t, identity))
    (opened : Cache.openAt t w.here w.site.layout.cacheIndex
      (environmentDigest w.digest identity w.site.classpath) = (t, .ok c)) :
    w.openBench t = (t, .ok ⟨t, c⟩) := by
  simp only [openBench, identified, opened]

/-- What a collection does to the files. -/
theorem collect_files (w : Workshop) (b : Bench) :
    (w.collect b).files = b.files.lacking ((w.collect b).removed.map (Path.location w.here)) := by
  obtain ⟨-, -, left, -⟩ := Collected.remove_spec b.files w.here (w.orphans b)
  exact left

theorem removed_subset (removed : p ∈ (w.collect b).removed) :
    p ∈ b.files.filesFrom w.here w.site.layout.classesDir ∧
      ∀ d ∈ b.cache.entries, d.artifact.same (p.normalised w.here.path) = false := by
  obtain ⟨rest, split, -⟩ := Collected.remove_spec b.files w.here (w.orphans b)
  have orphan : p ∈ w.orphans b := split ▸ List.mem_append_left rest removed
  simpa [orphans, unreferenced] using orphan

/-- A file is removed that is at or below the directory of executables. -/
theorem removed_file (tidy : b.files.Tidy) (removed : p ∈ (w.collect b).removed) :
    w.site.layout.classesDir.location w.here <+: p.location w.here ∧
      ∃ e, b.files.get? (p.location w.here) = some e ∧ e.isFile = true := by
  obtain ⟨names, e, -, location, -, found, isFile⟩ :=
    FileTree.mem_filesFrom tidy (removed_subset removed).1
  exact ⟨location ▸ List.prefix_append _ _, e, found, isFile⟩

/-- After a collection there is nothing left to collect, not even if a removal was refused. -/
theorem collect_again (tidy : b.files.Tidy) :
    (w.collect ⟨(w.collect b).files, b.cache⟩).removed = [] ∧
      (w.collect ⟨(w.collect b).files, b.cache⟩).files = (w.collect b).files := by
  obtain ⟨rest, split, left, -, refused⟩ := Collected.remove_spec b.files w.here (w.orphans b)
  have gone : ∀ l ∈ (w.collect b).removed.map (Path.location w.here),
      ∃ e, b.files.get? l = some e ∧ e.isFile = true := by
    intro l member
    obtain ⟨p, removed, rfl⟩ := List.mem_map.mp member
    exact (removed_file tidy removed).2
  -- what is left to collect is what the first collection did not come to
  have remaining : w.orphans ⟨(w.collect b).files, b.cache⟩ = rest := by
    have once : ((w.orphans b).map (Path.location w.here)).Nodup :=
      (FileTree.nodup_filesFrom tidy w.here _).sublist (List.filter_sublist.map _)
    rw [split, List.map_append, List.nodup_append] at once
    have filtered : w.orphans ⟨(w.collect b).files, b.cache⟩ = (w.orphans b).filter fun q =>
        !((w.collect b).removed.map (Path.location w.here)).contains (q.location w.here) := by
      simp only [orphans, unreferenced, collect_files, FileTree.filesFrom_lacking tidy gone,
        List.filter_filter, Bool.and_comm]
    rw [filtered, split, List.filter_append, List.filter_eq_nil_iff.mpr, List.nil_append,
      List.filter_eq_self]
    · intro q waits
      have apart : ∀ p ∈ (w.collect b).removed, p.location w.here ≠ q.location w.here :=
        fun p removed => once.2.2 _ (List.mem_map_of_mem removed) _ (List.mem_map_of_mem waits)
      simpa using apart
    · intro q removed
      simpa using ⟨q, removed, rfl⟩
  exact Collected.remove_of_refused (remaining ▸ refused)

end Workshop

/-! ### The command -/

namespace Tool
open Work

variable {α β : Type} {s : Setting} {d d' : Desk} {o : Opened} {work : Work α}

/-- Work goes on where it did not give up. -/
theorem run_bind (work : Work α) (next : α → Work β) (s : Setting) (d : Desk) :
    (work >>= next) s d =
      match work s d with
      | (.ok a, d) => next a s d
      | (.error complaint, d) => (.error complaint, d) := by
  simp only [bind, ReaderT.bind, ExceptT.bind, ExceptT.mk, StateT.bind, ExceptT.bindCont]
  rcases work s d with ⟨e | a, d'⟩ <;> rfl

/-- Whether work leaves the files as they are. -/
def Prints (work : Work α) : Prop := ∀ s d, (work s d).2.files = d.files

theorem Prints.bind {next : α → Work β} (first : Prints work) (rest : ∀ a, Prints (next a)) :
    Prints (work >>= next) := by
  intro s d
  have left := first s d
  rw [run_bind]
  rcases worked : work s d with ⟨e | a, d'⟩
  · rw [worked] at left
    exact left
  · rw [worked] at left
    exact (rest a s d').trans left

theorem prints_detail (line : Line) : Prints (detail line) := by
  intro s d
  unfold detail
  rw [run_bind]
  show (ite (s.verbosity = .verbose) (say line) (pure ()) s d).2.files = d.files
  split <;> rfl

theorem prints_forIn {γ : Type} (xs : List γ) {work : γ → Work PUnit} (prints : ∀ x, Prints (work x)) :
    Prints (forIn xs PUnit.unit fun x _ => do work x; pure (.yield PUnit.unit)) := by
  induction xs with
  | nil => exact fun _ _ => rfl
  | cons x xs ih =>
    rw [List.forIn_cons, bind_assoc]
    exact (prints x).bind fun _ => by simpa using ih

theorem prints_findProject : Prints findProject := by
  unfold findProject
  refine .bind (fun _ _ => rfl) fun setting => .bind (fun _ _ => rfl) fun files => ?_
  split
  · exact fun _ _ => rfl
  · refine .bind (fun _ _ => rfl) fun files => ?_
    split <;> exact fun _ _ => rfl

/-- A project that was opened has the bench that its workshop opens over the files. -/
theorem openProject_ok (opened : openProject s d = (.ok o, d')) :
    o.workshop = o.project.workshop s.around ∧
      o.workshop.openBench d.files = (d'.files, .ok ⟨d'.files, o.cache⟩) := by
  unfold openProject at opened
  rw [run_bind] at opened
  have kept : (findProject s d).2.files = d.files := prints_findProject s d
  rcases found : findProject s d with ⟨complaint | project, after⟩
  · rw [found] at opened
    cases opened
  · rw [found] at opened kept
    dsimp only at opened kept
    rw [run_bind] at opened
    simp only [show (read : Work Setting) s after = (.ok s, after) from rfl] at opened
    rw [run_bind] at opened
    simp only [show files s after = (.ok after.files, after) from rfl] at opened
    rw [kept] at opened
    rw [run_bind] at opened
    rcases bench : (project.workshop s.around).openBench d.files with ⟨left, failure | b⟩
    · rw [bench] at opened
      cases opened
    · have same := Workshop.openBench_files (congrArg Prod.snd bench)
      rw [bench] at opened same
      cases opened
      obtain rfl : b.files = left := same
      exact ⟨rfl, bench⟩

/-- The command that collects garbage does to the files of a project that could be opened what the
collection does. -/
theorem files_collectGarbage (opened : openProject s d = (.ok o, d')) :
    (collectGarbage s d).2.files = (o.workshop.collect ⟨d'.files, o.cache⟩).files := by
  unfold collectGarbage
  rw [run_bind, opened]
  dsimp only
  rw [run_bind]
  simp only [show files s d' = (.ok d'.files, d') from rfl]
  rw [run_bind]
  simp only [show Work.here s d' = (.ok s.around.here, d') from rfl]
  by_cases there : d'.files.exists? s.around.here o.project.layout.classesDir = true
  · rw [if_pos there, run_bind]
    simp only [show files s d' = (.ok d'.files, d') from rfl]
    rw [run_bind]
    refine Prints.bind (prints_forIn _ fun p => prints_detail _) (fun _ => ?_) s ⟨_, _⟩
    split <;> exact fun _ _ => rfl
  · rw [if_neg there]
    have nothing : d'.files.filesFrom o.workshop.here o.workshop.site.layout.classesDir = [] := by
      rw [(openProject_ok opened).1]
      exact FileTree.filesFrom_of_missing (Bool.eq_false_iff.mpr there)
    simp only [Workshop.collect, Workshop.orphans, nothing, Workshop.unreferenced, List.filter_nil,
      Collected.remove]
    rfl

end Tool

/-! ### What is kept -/

namespace Grounds

/-- Where the executables are. -/
def classes (g : Grounds) : Location := g.layout.classesDir.location g.here

/-- Whether the directory of executables holds neither the index nor the model of an entry. -/
structure Secluded (g : Grounds) (c : Cache) : Prop where
  index : ¬ g.classes <+: g.index
  models : ∀ d ∈ c.entries, ¬ g.classes <+: d.source.location g.here

/-- What a collection does that loses nothing the cache knows. -/
structure Collects (g : Grounds) (w : Workshop) (b : Bench) (done : Collected) : Prop where
  /-- What was removed is gone, and all else is as it was. -/
  files : done.files = b.files.lacking (done.removed.map (Path.location g.here))
  /-- Regular files of the directory of executables are removed. -/
  removed : ∀ p ∈ done.removed, g.classes <+: p.location g.here ∧
    ∃ e, b.files.get? (p.location g.here) = some e ∧ e.isFile = true
  /-- Neither the index is removed nor what an entry refers to. -/
  spared : ∀ p ∈ done.removed, p.location g.here ≠ g.index ∧
    ∀ d ∈ b.cache.entries, p.location g.here ≠ d.artifact.location g.here ∧
      p.location g.here ≠ d.source.location g.here
  /-- What was listed is listed when the project is opened again. -/
  reopened : w.openBench done.files = (done.files, .ok ⟨done.files, b.cache⟩)
  /-- What was fresh is fresh, and what was stale is stale. -/
  current : ∀ d ∈ b.cache.entries, Cache.outdated w.digest done.files g.here d =
    Cache.outdated w.digest b.files g.here d
  /-- A second collection removes nothing. -/
  again : (w.collect ⟨done.files, b.cache⟩).removed = [] ∧
    (w.collect ⟨done.files, b.cache⟩).files = done.files

variable {g : Grounds} {digest : Digest} {w : Workshop} {log : List Compilation} {t : FileTree}
  {b : Bench} {d : Descriptor} {k : Compilation} {u : SourceUnit} {p : Path}

/-- The listed path of an executable is the one that its entry names. -/
theorem Filed.listed (filed : g.Filed digest k u d) (tidy : t.Tidy)
    (listed : p ∈ t.filesFrom g.here g.layout.classesDir)
    (same : p.location g.here = d.artifact.location g.here) :
    d.artifact.same (p.normalised g.here.path) = true := by
  obtain ⟨names, -, isPath, location, -⟩ := FileTree.mem_filesFrom tidy listed
  rw [location, filed.location, Layout.location_artifactFile g.here filed.declared,
    List.append_cancel_left_eq] at same
  have isExecutable : p = g.layout.artifactFile u.package u.typeName := by
    rw [isPath, same]
    rfl
  rw [isExecutable, filed.artifact, filed.output, Path.same, beq_self_eq_true]

/-- The cache of a pipeline is opened under the identity that its compiler tells. -/
theorem opened_cache (site : g.Site w) (opened : w.openBench t = (b.files, .ok b)) :
    Cache.openAt (w.site.compiler.identity t).1 g.here g.layout.cacheIndex
      (environmentDigest w.digest (w.site.compiler.identity t).2 w.site.classpath) =
        (b.files, .ok b.cache) := by
  unfold Workshop.openBench at opened
  rw [site.here, site.layout] at opened
  rcases isOpen : Cache.openAt (w.site.compiler.identity t).1 g.here g.layout.cacheIndex
      (environmentDigest w.digest (w.site.compiler.identity t).2 w.site.classpath) with
    ⟨after, fault | c⟩
  · simp only [isOpen, Prod.mk.injEq, reduceCtorEq, and_false] at opened
  · simp only [isOpen, Prod.mk.injEq, Except.ok.injEq] at opened
    obtain ⟨isFiles, isBench⟩ := opened
    rw [← isBench]

/-- Where the index and the models of all entries lie elsewhere, and the executables of entries are
listed under the names that the entries give them, a collection loses nothing the cache knows. -/
theorem Secluded.collects (secluded : g.Secluded b.cache) (site : g.Site w) (tidy : b.files.Tidy)
    (named : ∀ d ∈ b.cache.entries, ∀ p ∈ b.files.filesFrom g.here g.layout.classesDir,
      p.location g.here = d.artifact.location g.here →
        d.artifact.same (p.normalised g.here.path) = true)
    (opened : w.openBench t = (b.files, .ok b))
    (writable : Cache.Writable g.here g.layout.cacheIndex (w.site.compiler.identity t).1)
    (identity : w.site.compiler.identity (w.collect b).files =
      ((w.collect b).files, (w.site.compiler.identity t).2)) :
    g.Collects w b (w.collect b) := by
  have here : w.here = g.here := site.here
  have left := w.collect_files b
  rw [here] at left
  have removed : ∀ p ∈ (w.collect b).removed, g.classes <+: p.location g.here ∧
      ∃ e, b.files.get? (p.location g.here) = some e ∧ e.isFile = true := by
    intro p isRemoved
    have file := Workshop.removed_file tidy isRemoved
    rwa [here, site.layout] at file
  have notDirectories : ∀ l ∈ (w.collect b).removed.map (Path.location g.here),
      b.files.get? l ≠ some .directory := by
    intro l member directory
    obtain ⟨p, isRemoved, rfl⟩ := List.mem_map.mp member
    obtain ⟨-, e, found, isFile⟩ := removed p isRemoved
    cases found.symm.trans directory
    cases isFile
  have outside : ∀ q : Path, ¬ g.classes <+: q.location g.here →
      q.location g.here ∉ (w.collect b).removed.map (Path.location g.here) := by
    intro q isOutside member
    obtain ⟨p, isRemoved, same⟩ := List.mem_map.mp member
    exact isOutside (same ▸ (removed p isRemoved).1)
  have owned : ∀ d ∈ b.cache.entries,
      d.artifact.location g.here ∉ (w.collect b).removed.map (Path.location g.here) := by
    intro d isEntry member
    obtain ⟨p, isRemoved, same⟩ := List.mem_map.mp member
    obtain ⟨listed, unowned⟩ := Workshop.removed_subset isRemoved
    rw [here, site.layout] at listed
    rw [here] at unowned
    exact Bool.false_ne_true ((unowned d isEntry).symm.trans (named d isEntry p listed same))
  have read : ∀ q : Path,
      q.location g.here ∉ (w.collect b).removed.map (Path.location g.here) →
      ((w.collect b).files.read g.here q).toOption = (b.files.read g.here q).toOption := by
    intro q kept
    rw [left]
    exact FileTree.read_lacking notDirectories kept
  refine ⟨left, removed,
    fun p isRemoved => ⟨fun isIndex => ?_, fun d isEntry => ⟨fun same => ?_, fun same => ?_⟩⟩,
    ?_, fun d isEntry => ?_, Workshop.collect_again tidy⟩
  · exact secluded.index (isIndex ▸ (removed p isRemoved).1)
  · exact owned d isEntry (same ▸ List.mem_map_of_mem isRemoved)
  · exact secluded.models d isEntry (same ▸ (removed p isRemoved).1)
  · have again := Cache.openAt_again writable (opened_cache site opened)
      (read g.layout.cacheIndex (outside _ secluded.index))
    rw [← here, ← site.layout] at again
    exact Workshop.openBench_of_openAt identity again
  · have readings : Fingerprint.readings (w.collect b).files g.here [d.source, d.artifact] =
        Fingerprint.readings b.files g.here [d.source, d.artifact] := by
      simp only [Fingerprint.readings, List.map_cons, List.map_nil,
        read d.source (outside _ (secluded.models d isEntry)), read d.artifact (owned d isEntry)]
    rw [Cache.outdated, Cache.outdated, Fingerprint.now, Fingerprint.now, readings]

/-- In every run, whatever was built before: a collection right after the project was opened removes
no file that the cache knows, provided that the directory of executables holds neither the index nor
a model. The command that collects garbage does to the files what the collection does. -/
theorem collected {open? : Option (Workshop × Cache)}
    (past : g.History (g.Regular digest) (fun _ _ => True) t open? log)
    (regular : g.Regular digest w) (opened : w.openBench t = (b.files, .ok b))
    (tidy : b.files.Tidy) (secluded : g.Secluded b.cache)
    (writable : Cache.Writable g.here g.layout.cacheIndex (w.site.compiler.identity t).1)
    (identity : w.site.compiler.identity (w.collect b).files =
      ((w.collect b).files, (w.site.compiler.identity t).2)) :
    g.Collects w b (w.collect b) ∧
      ∀ s d o d', Tool.openProject s d = (.ok o, d') → o.workshop = w → d.files = t →
        (Tool.collectGarbage s d).2.files = (w.collect b).files := by
  have history : g.History (g.Regular digest) (fun _ _ => True) _ _ log := past.opened regular
  rw [opened] at history
  obtain ⟨-, obeys⟩ := filed_of_history history w b.cache rfl
  refine ⟨secluded.collects regular.toSite tidy (fun d isEntry p listed same => ?_) opened writable
    identity, fun s d o d' opens isWorkshop isFiles => ?_⟩
  · obtain ⟨k, -, u, filed⟩ := obeys.records d isEntry
    exact filed.listed tidy listed same
  · have bench := (Tool.openProject_ok opens).2
    rw [isWorkshop, isFiles, opened, Prod.mk.injEq, Except.ok.injEq] at bench
    rw [Tool.files_collectGarbage opens, isWorkshop, ← bench.2]

end Grounds

namespace Rehearsal

/-- The first request for the model. -/
def stocked : Workshop.Ended := openPipeline.ensure ⟨fresh, blank⟩ ⟨"m"⟩ false

/-- The entry of the model after that. -/
def stock : Descriptor :=
  ⟨⟨"/tmp/job/m"⟩, ⟨"/c/p/T"⟩, "p",
    Fingerprint.now spelledOut stocked.bench.files ["tmp", "job"] [⟨"/tmp/job/m"⟩, ⟨"/c/p/T"⟩]⟩

/-- Another program left a file beside the executable. -/
def littered : Bench :=
  ⟨stocked.bench.files.insert ["c", "p", "Old"] (.file [] .program), stocked.bench.cache⟩

theorem littered_reads :
    littered.cache = ⟨⟨"/i"⟩, environmentDigest spelledOut [1] [], [stock], []⟩ ∧
      (littered.files.read ["tmp", "job"] littered.cache.indexPath).toOption =
        some (Bytes.ofChars littered.cache.index.write) ∧
      (openPipeline.collect littered).removed = [⟨"/c/p/Old"⟩] := by
  decide +kernel

theorem littered_past : ∃ log, openProject.History (openProject.Regular spelledOut)
    (fun _ _ => True) littered.files (some (openPipeline, stocked.bench.cache)) log := by
  have opening : openProject.History (openProject.Regular spelledOut) (fun _ _ => True) fresh
      (some (openPipeline, blank)) [] := history_open admits_open.regular
  have history := @Grounds.History.ensured _ _ _ _ _ _ _ ⟨"m"⟩ opening trivial false
  have leaves : FileTree.NothingNewAt stocked.bench.files littered.files openProject.index := by
    intro e there
    rw [show openProject.index = ["i"] from index_project] at there ⊢
    rw [littered, FileTree.get?_insert_ne (by decide)] at there
    exact .inr there
  exact ⟨_, history.edited leaves⟩

/-- A pipeline opens a cache again that is in the index. -/
theorem openBench_open {b : Bench} (path : b.cache.indexPath = ⟨"/i"⟩)
    (environment : b.cache.environment = environmentDigest spelledOut [1] [])
    (inOrder : b.cache.InOrder)
    (document : b.files.read ["tmp", "job"] b.cache.indexPath =
      .ok (Bytes.ofChars b.cache.index.write)) :
    openPipeline.openBench b.files = (b.files, .ok b) := by
  have opened := Cache.openAt_of_load? inOrder (Cache.load?_of_document document)
  rw [path, environment] at opened
  exact @Workshop.openBench_of_openAt openPipeline b.files [1] b.cache rfl opened

/-- A collection removes what the other program left, and the entry of the model is listed and fresh
as before. -/
theorem collected_rehearsed :
    (openPipeline.collect littered).removed = [⟨"/c/p/Old"⟩] ∧
      littered.cache.entries = [stock] ∧
      openProject.Collects openPipeline littered (openPipeline.collect littered) := by
  obtain ⟨cache, document, removed⟩ := littered_reads
  obtain ⟨log, past⟩ := littered_past
  have entries : littered.cache.entries = [stock] := by rw [cache]
  have inOrder : littered.cache.InOrder := by
    rw [cache]
    exact ⟨List.pairwise_singleton _ _, .nil⟩
  have opened : openPipeline.openBench littered.files = (littered.files, .ok littered) :=
    openBench_open (congrArg Cache.indexPath cache) (congrArg Cache.environment cache) inOrder
      (ok_of_toOption document)
  have secluded : openProject.Secluded littered.cache := by
    refine ⟨by decide +kernel, fun d isEntry => ?_⟩
    rw [entries, List.mem_singleton] at isEntry
    subst isEntry
    decide +kernel
  have vacant : littered.files.get? (openProject.layout.temporary.location ["tmp", "job"]) = none := by
    decide +kernel
  have collected := Grounds.collected past admits_open.regular opened
    ⟨by decide +kernel, by decide +kernel⟩ secluded
    (fun device isDevice => by cases vacant.symm.trans isDevice) rfl
  exact ⟨removed, entries, collected.1⟩

/-- The layout of a project that keeps its executables where the index is. -/
def crowded : Layout :=
  (Project.resolve ⟨"/"⟩ { paths := { classes := ⟨"build"⟩ } } none).layout

theorem crowded_index : crowded.cacheIndex = (Layout.ofRoot crowded.root).cacheIndex := by
  simp only [crowded, Project.resolve]

theorem crowded_apart : crowded.Apart ["tmp", "job"] (crowded.cacheIndex.location ["tmp", "job"]) :=
  (Layout.index_apart ["tmp", "job"] crowded_index).1

theorem crowded_proper : ∀ name ∈ ["tmp", "job"], Path.IsName name := project.proper

def crowdedProject : Grounds where
  here := ["tmp", "job"]
  layout := crowded
  proper := crowded_proper
  indexApart := crowded_apart

def crowdedPipeline : Workshop :=
  { workshop ["tmp", "job"] crowded [1] with digest := spelledOut }

theorem regular_crowded : crowdedProject.Regular spelledOut crowdedPipeline where
  here := rfl
  layout := rfl
  identityKeeps files := .refl _ _
  digest := rfl
  generatorLeaves files model := by
    have same : (crowdedPipeline.generator files model).1 = files :=
      (generator_spec ["tmp", "job"] files model).1
    rw [same]
    exact .refl _ _
  compilerLeaves files job apart := by
    rcases compiler_writes [1] ["tmp", "job"] files job crowdedProject.index with
      same | ⟨isOutput, -⟩
    · exact fun e now => .inr (same ▸ now)
    · exact (apart isOutput.symm).elim

/-- The cache of the crowded project before anything was asked. -/
def unfilled : Cache :=
  ⟨⟨"/build/artifact-cache.json"⟩, environmentDigest spelledOut [1] [], [], []⟩

/-- The first request for the model there. -/
def filling : Workshop.Ended := crowdedPipeline.ensure ⟨fresh, unfilled⟩ ⟨"m"⟩ false

/-- The entry of the model after that. -/
def filled : Descriptor :=
  ⟨⟨"/tmp/job/m"⟩, ⟨"/build/p/T"⟩, "p",
    Fingerprint.now spelledOut filling.bench.files ["tmp", "job"] [⟨"/tmp/job/m"⟩, ⟨"/build/p/T"⟩]⟩

/-- Where the directory of executables holds the index, a collection removes it: the project that was
just built has an empty cache when it is opened again. -/
theorem index_collected :
    (∃ log, crowdedProject.History (crowdedProject.Regular spelledOut) (fun _ _ => True)
      filling.bench.files (some (crowdedPipeline, filling.bench.cache)) log) ∧
    filling.bench.files.Tidy ∧
    filling.bench.cache.entries = [filled] ∧
    Cache.outdated spelledOut filling.bench.files ["tmp", "job"] filled = false ∧
    (crowdedPipeline.collect filling.bench).fault = none ∧
    (crowdedPipeline.collect filling.bench).removed = [⟨"/build/artifact-cache.json"⟩] ∧
    (crowdedPipeline.openBench (crowdedPipeline.collect filling.bench).files).2.toOption =
      some ⟨(crowdedPipeline.collect filling.bench).files, unfilled⟩ := by
  have opens : (crowdedPipeline.openBench fresh).1 = fresh ∧
      (crowdedPipeline.openBench fresh).2.toOption = some ⟨fresh, unfilled⟩ := by
    decide +kernel
  have opening : crowdedProject.History (crowdedProject.Regular spelledOut) (fun _ _ => True) fresh
      (some (crowdedPipeline, unfilled)) [] := .begins (by decide +kernel) regular_crowded opens
  have history := @Grounds.History.ensured _ _ _ _ _ _ _ ⟨"m"⟩ opening trivial false
  exact ⟨⟨_, history⟩, ⟨by decide +kernel, by decide +kernel⟩, by decide +kernel⟩

end Rehearsal
end SimWorkbench
