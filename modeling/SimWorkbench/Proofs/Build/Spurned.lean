import SimWorkbench.Proofs.Build.Cached
import SimWorkbench.Proofs.Build.Drawn
import SimWorkbench.Proofs.Build.Failing
import SimWorkbench.Proofs.Build.Missed
import SimWorkbench.Proofs.Cache.Agreement

/-!
# Models that are known to be rejected

When the compiler has answered a request with an error, nothing is in the place of the executable and
the miss is remembered. An entry that a forced request has passed over is of no use from then on:
either its model has changed since, or it names the place that was cleared. A fingerprint does not
cover what the system does not find under the path by which the entry knows it, so this is on
condition that the system accepts these paths. A model that is spurned in this sense stays so as long
as its bytes stay, and every request for it is answered by its lookup.
-/
namespace SimWorkbench

open FileTree (KeepsDirectories GrowsAt NothingNewAt)

/-- Where nothing new was put, nothing can be read unless something could before. -/
theorem FileTree.NothingNewAt.bytesAt? {t t' : FileTree} {l : Location} (new : NothingNewAt t t' l)
    (free : t.bytesAt? l = none) : t'.bytesAt? l = none := by
  rw [FileTree.bytesAt?] at free ⊢
  cases found : t'.get? l with
  | none => rfl
  | some e =>
    rcases new e found with rfl | before
    · rfl
    · rwa [before] at free

/-- Whether the system accepts the paths by which an entry knows its model and its executable. -/
structure Descriptor.Nameable (d : Descriptor) : Prop where
  source : FileTree.CanNameFile d.source
  artifact : FileTree.CanNameFile d.artifact

namespace Workshop

variable {w : Workshop} {b b' : Bench} {model : Path} {entries : List Descriptor} {r r' : Request}

/-- Whether the cache has the given entries at a stage of a request that stores nothing. Before the
lookup they are those that it will leave. -/
def Lists (w : Workshop) (model : Path) (entries : List Descriptor) (b : Bench) : Request → Prop
  | .lookup => (w.refreshed b model).cache.entries = entries
  | .store _ | .finished (.ok _) | .finished (.error (.cache _)) => True
  | _ => b.cache.entries = entries

/-- Whether a request is answered by its lookup: no entry is found, and the miss is known, so nothing
is generated and no compiler is called. -/
structure Dismisses (w : Workshop) (b : Bench) (q : Path) : Prop where
  unanswered : (b.cache.lookup w.digest b.files w.here q).answer = none
  stage : w.step b q .lookup = (w.refreshed b q, .finished (.error (.knownMiss q)))
  ended : w.ensure b q false = ⟨w.refreshed b q, .error (.knownMiss q), []⟩

theorem lists_afterInvocation (same : b.cache.entries = entries) (i : Invocation) :
    w.Lists model entries b (afterInvocation i) := by
  cases i with
  | finished result =>
    cases result with
    | ok built => trivial
    | error failure =>
      cases failure with
      | cache fault => trivial
      | _ => exact same
  | _ => exact same

/-- A request leaves the entries alone but for its lookup and for what it stores. -/
theorem lists_step (lists : w.Lists model entries b r) (steps : w.step b model r = (b', r')) :
    w.Lists model entries b' r' := by
  cases r with
  | lookup =>
    obtain ⟨after, next, outcome⟩ := w.step_lookup b model
    cases next.symm.trans steps
    rcases outcome with ⟨d, rfl⟩ | rfl | rfl
    · trivial
    · exact lists
    · exact lists
  | generate =>
    obtain ⟨after, next, outcome⟩ := w.step_generate b model
    cases next.symm.trans steps
    rcases outcome with ⟨failure, rfl⟩ | ⟨source, unit, -, -, rfl⟩
    · cases failure with
      | cache fault => trivial
      | _ => exact lists
    · exact lists
  | claim text unit =>
    simp only [step, checkOwner] at steps
    split at steps <;> cases steps <;> exact lists
  | invoking progress =>
    rw [Premises.step_invoking] at steps
    cases steps
    exact lists_afterInvocation (b := ⟨(progress.step w.site b.files).1, b.cache⟩) lists _
  | recordMiss diagnostic =>
    obtain ⟨failure, next, outcome⟩ := w.step_recordMiss b model diagnostic
    cases next.symm.trans steps
    rcases outcome with rfl | ⟨fault, rfl⟩
    · exact lists
    · trivial
  | store built =>
    obtain ⟨result, next, outcome⟩ := w.step_store b model built
    cases next.symm.trans steps
    rcases outcome with rfl | ⟨fault, rfl⟩ <;> trivial
  | finished result =>
    cases steps
    exact lists

theorem lists_after (n : Nat) (lists : w.Lists model entries b r) :
    w.Lists model entries (w.after model n (b, r)).1 (w.after model n (b, r)).2 := by
  induction n generalizing b r with
  | zero => exact lists
  | succ n ih => exact ih (lists_step lists Prod.mk.eta.symm)

/-- A request that ends with an error of the compiler has the entries that its lookup left. -/
theorem entries_of_rejected {force : Bool} {diagnostic : Diagnostic}
    (failed : (w.ensure b model force).result = .error (.compile diagnostic)) :
    (w.ensure b model force).bench.cache.entries =
      (Grounds.entered w b model force).cache.entries := by
  have start : w.Lists model (Grounds.entered w b model force).cache.entries b
      (Request.start force) := by cases force <;> exact rfl
  have ended := lists_after (Request.start force).rank start
  rw [w.after_eq_ensure, failed] at ended
  exact ended

/-- An unforced request that ends with an error of the compiler has no entry of its model. -/
theorem entry?_of_rejected {diagnostic : Diagnostic}
    (failed : (w.ensure b model false).result = .error (.compile diagnostic)) :
    (w.ensure b model false).bench.cache.entry? w.here model = none := by
  by_cases unanswered : ∀ d, b.cache.entry? w.here model = some d →
      Cache.outdated w.digest b.files w.here d = true
  · rw [Cache.entry?, entries_of_rejected failed]
    exact entry?_refreshed unanswered
  · push Not at unanswered
    obtain ⟨d, found, current⟩ := unanswered
    rw [w.ensure_of_step (lookup_of_current found (by simpa using current))] at failed
    cases failed

end Workshop

namespace Premises

/-- Whether the digest tells the files of an entry as they are from those it was stored for, and none
of them is too large to be counted. -/
structure Discernible (s : Premises) (log : List Compilation) (files : FileTree) (d : Descriptor) :
    Prop where
  uncollided : s.Uncollided log files d
  fits : Fingerprint.Fitting files s.here [d.source, d.artifact]
  didFit : ∀ k ∈ log, Fingerprint.Fitting k.after s.here [d.source, d.artifact]

/-- Whether an entry is of no use while its model holds the given bytes: it was stored when the model
held others, or nothing can be read in the place of its executable. -/
structure Obsolete (s : Premises) (log : List Compilation) (bytes : Bytes) (files : FileTree)
    (d : Descriptor) : Prop where
  nameable : d.Nameable
  stems : ∃ k ∈ log, ∃ u p past, s.Stems k u p d ∧ k.after.read s.here p = .ok past ∧
    (past = bytes → files.bytesAt? (s.place u) = none)

/-- Whether other programs leave the bytes of a model alone, and put nothing in the places of
executables and of the index. -/
structure Leaves (s : Premises) (model : Path) (files files' : FileTree) : Prop where
  reachable : files'.Reachable s.here
  bytes : files'.bytesAt? (model.location s.here) = files.bytesAt? (model.location s.here)
  executables : ∀ u : SourceUnit, u.Declared → NothingNewAt files files' (s.place u)
  index : NothingNewAt files files' s.index

/-- Whether the miss of a model is remembered, as it was when the files were those of `origin`, and the
model holds the content it held then. -/
structure Remembered (s : Premises) (model : Path) (origin : FileTree) (content : Bytes) (b : Bench) :
    Prop where
  known : origin.Reachable s.here
  held : origin.read s.here model = .ok content
  reachable : b.files.Reachable s.here
  bytes : b.files.bytesAt? (model.location s.here) = some content
  missed : ∃ m, b.cache.miss? s.here model = some m ∧
    m.fingerprint = Fingerprint.now s.digest origin s.here [model.normalised s.here.path]

/-- Whether a model is known to be rejected, and its entry is of no use if it has one. -/
structure Spurned (s : Premises) (log : List Compilation) (model : Path) (origin : FileTree)
    (content : Bytes) (b : Bench) : Prop extends s.Remembered model origin content b where
  obeys : s.Obeys s.ownership b.cache.environment b.files b.cache
  obsolete : ∀ d, b.cache.entry? s.here model = some d → s.Obsolete log content b.files d

variable {s : Premises} {w w' : Workshop} {model p q : Path} {b b' : Bench} {d : Descriptor}
  {log : List Compilation} {files files' origin : FileTree} {bytes content : Bytes}

/-- A file that is read is read by every path that the cache takes for its absolute one, if the system
accepts it. -/
theorem read_of_nameable {path : Path} (reachable : files.Reachable s.here)
    (readable : files.read s.here p = .ok content)
    (same : path.sortKey = (p.normalised s.here.path).sortKey) (named : FileTree.CanNameFile path) :
    files.read s.here path = .ok content := by
  have reached := FileTree.reached_normalised s.proper reachable readable
  obtain ⟨start, steps⟩ := Path.walk_of_same same s.here
  refine FileTree.read_iff.mpr ⟨named, ?_, ?_⟩
  · rw [FileTree.Reached, start, steps]
    exact reached
  · rw [FileTree.location_of_same same, Path.location_normalised p s.proper]
    exact (FileTree.read_iff.mp readable).2.2

theorem Stems.location {k : Compilation} {u : SourceUnit} (stems : s.Stems k u p d) :
    d.artifact.location s.here = s.place u := stems.filed.location

/-- The fingerprint of an obsolete entry gives it away. -/
theorem Obsolete.outdated (obsolete : s.Obsolete log bytes files d)
    (reachable : files.Reachable s.here) (same : d.key = Cache.key s.here q)
    (readable : files.read s.here q = .ok bytes) (discernible : s.Discernible log files d) :
    Cache.outdated s.digest files s.here d = true := by
  obtain ⟨nameable, k, isCall, u, p, past, stems, once, gone⟩ := obsolete
  by_contra current
  have fresh : Fingerprint.now s.digest files s.here [d.source, d.artifact] = d.fingerprint := by
    simpa [Cache.outdated] using current
  have now : files.read s.here d.source = .ok bytes :=
    read_of_nameable reachable readable same nameable.source
  have then' : k.after.read s.here d.source = .ok past :=
    read_of_nameable stems.reachable once (by rw [stems.source]) nameable.source
  obtain ⟨executable, built⟩ := FileTree.exists_read_of_isFile stems.filed.produced
  have stored : k.after.read s.here d.artifact = .ok executable :=
    read_of_nameable stems.reachable built (by rw [stems.filed.artifact]) nameable.artifact
  have streams := discernible.uncollided k isCall
    (congrArg Fingerprint.hex (stems.filed.fingerprint.symm.trans fresh.symm))
  have contents := Fingerprint.stream_injective
    (fun content member => discernible.didFit k isCall _ member content rfl)
    (fun content member => discernible.fits _ member content rfl) streams
  simp only [Fingerprint.readings, List.map_cons, List.map_nil, then', now, stored] at contents
  obtain ⟨isPast, executables⟩ := Fingerprint.pair_injective contents
  have free := gone isPast
  rw [← stems.location] at free
  cases read : files.read s.here d.artifact with
  | error cause =>
    rw [read] at executables
    cases executables
  | ok found =>
    have there := (FileTree.read_iff.mp read).2.2
    rw [free] at there
    cases there

theorem Obsolete.kept (obsolete : s.Obsolete log content files d)
    (stays : files.bytesAt? (d.artifact.location s.here) = none →
      files'.bytesAt? (d.artifact.location s.here) = none) : s.Obsolete log content files' d := by
  obtain ⟨nameable, k, isCall, u, p, past, stems, once, gone⟩ := obsolete
  rw [stems.location] at stays
  exact ⟨nameable, k, isCall, u, p, past, stems, once, fun same => stays (gone same)⟩

/-! ### What keeps a model spurned -/

/-- What does not disturb a model keeps it spurned. -/
theorem Spurned.kept (spurned : s.Spurned log model origin content b)
    (obeys : s.Obeys s.ownership b'.cache.environment b'.files b'.cache)
    (undisturbed : s.Undisturbed model b b') : s.Spurned log model origin content b' := by
  obtain ⟨m, found, fingerprint⟩ := spurned.missed
  refine ⟨⟨spurned.known, spurned.held, spurned.reachable.mono undisturbed.directories,
    undisturbed.bytes.trans spurned.bytes, m, undisturbed.miss.trans found, fingerprint⟩, obeys,
    fun d isEntry => ?_⟩
  rw [undisturbed.entry] at isEntry
  exact (spurned.obsolete d isEntry).kept (undisturbed.executable d isEntry).trans

theorem Spurned.edited (spurned : s.Spurned log model origin content b)
    (leaves : s.Leaves model b.files files) :
    s.Spurned log model origin content ⟨files, b.cache⟩ where
  known := spurned.known
  held := spurned.held
  obeys := spurned.obeys.leaves leaves.index
  reachable := leaves.reachable
  bytes := leaves.bytes.trans spurned.bytes
  missed := spurned.missed
  obsolete d isEntry := by
    obtain ⟨u, declared, isPlace, -⟩ :=
      spurned.obeys.records.place_of_mem (Cache.mem_of_found isEntry).1
    refine (spurned.obsolete d isEntry).kept fun free => ?_
    rw [isPlace] at free ⊢
    exact (leaves.executables u declared).bytesAt? free

/-- A lookup of the model itself at most removes its entry. -/
theorem Spurned.refreshed (spurned : s.Spurned log model origin content b) (orderly : s.Orderly w)
    (placed : s.Placed model) (same : Cache.key s.here q = Cache.key s.here model) :
    s.Spurned log model origin content (w.refreshed b q) := by
  obtain ⟨obeys, spares⟩ : _ ∧ s.Spares q b _ :=
    Grounds.spares_refreshed orderly.toSite spurned.obeys
  obtain ⟨m, found, fingerprint⟩ := spurned.missed
  rw [← obeys.built] at obeys
  refine ⟨⟨spurned.known, spurned.held, spurned.reachable.mono spares.directories,
    (spares.files _ placed.sheltered).bytesAt?.trans spurned.bytes, m, ?_, fingerprint⟩, obeys,
    fun d isEntry => ?_⟩
  · rwa [Cache.miss?, misses_refreshed]
  · by_cases unanswered : ∀ d, b.cache.entry? w.here q = some d →
        Cache.outdated w.digest b.files w.here d = true
    · have none := Workshop.entry?_refreshed unanswered
      rw [orderly.here, Cache.entry?, same] at none
      cases none.symm.trans isEntry
    · push Not at unanswered
      obtain ⟨e, isFound, current⟩ := unanswered
      have unchanged : w.refreshed b q = b := by
        rw [Workshop.refreshed, Cache.lookup_of_current isFound (by simpa using current)]
      rw [unchanged] at isEntry ⊢
      exact spurned.obsolete d isEntry

/-- Every pipeline over the same index that agrees with the cache is opened with what the cache
knows. -/
theorem opened_agreed (dependable : s.Dependable w')
    (keeps : b.cache.indexPath = s.layout.cacheIndex) (records : b.cache ≠ b.cache.emptied)
    (agreed : Cache.Agreed s.here b.files b.cache) (opens : (w'.openBench b.files).2 = .ok b')
    (environment : b'.cache.environment = b.cache.environment) :
    b'.cache = b.cache ∧ ∀ l, b'.files.get? l = b.files.get? l := by
  have silent := dependable.identitySilent b.files
  unfold Workshop.openBench at opens
  rcases identified : w'.site.compiler.identity b.files with ⟨after, identity⟩
  rw [identified] at silent
  simp only [identified, dependable.here, dependable.layout, ← keeps] at opens
  have agreed' : Cache.Agreed s.here after b.cache :=
    agreed.kept records (fun l directory => (silent l).trans directory) (.inl (silent _))
  rcases opened : Cache.openAt after s.here b.cache.indexPath
      (environmentDigest w'.digest identity w'.site.classpath) with ⟨final, fault | c⟩
  · rw [opened] at opens
    cases opens
  · rw [opened] at opens
    cases opens
    have built : environmentDigest w'.digest identity w'.site.classpath = b.cache.environment := by
      rw [← environment]
      exact (Cache.environment_of_openAt (congrArg Prod.snd opened)).symm
    rw [built, agreed'.opened records] at opened
    cases opened
    exact ⟨rfl, silent⟩

/-- A pipeline that is opened again over an index that agrees with the cache keeps a model spurned. -/
theorem Spurned.reopened (spurned : s.Spurned log model origin content b)
    (dependable : s.Dependable w') (agreed : Cache.Agreed s.here b.files b.cache)
    (opens : (w'.openBench b.files).2 = .ok b')
    (environment : b'.cache.environment = b.cache.environment) :
    s.Spurned log model origin content b' := by
  have records : b.cache ≠ b.cache.emptied := by
    obtain ⟨m, found, -⟩ := spurned.missed
    intro empty
    rw [empty] at found
    cases found
  obtain ⟨cache, same⟩ :=
    opened_agreed dependable spurned.obeys.keeps records agreed opens environment
  have leaves : s.Leaves model b.files b'.files :=
    { reachable := spurned.reachable.mono fun l directory => (same l).trans directory
      bytes := by rw [FileTree.bytesAt?, same]; rfl
      executables := fun u _ e now => .inr (by rwa [same] at now)
      index := fun e now => .inr (by rwa [same] at now) }
  have kept := spurned.edited leaves
  rwa [← cache] at kept

/-! ### What a spurned model is answered -/

/-- A model whose miss is remembered is a known miss under every spelling that can be read. -/
theorem Remembered.isMiss (remembered : s.Remembered model origin content b)
    (same : Cache.key s.here q = Cache.key s.here model)
    (readable : b.files.read s.here q = .ok bytes) :
    b.cache.isMiss s.digest b.files s.here q = true := by
  obtain ⟨m, found, fingerprint⟩ := remembered.missed
  have alike : (origin.read s.here (model.normalised s.here.path)).toOption =
      (b.files.read s.here (q.normalised s.here.path)).toOption := by
    refine FileTree.toOption_read_congr (FileTree.canNameFile_normalised_iff s.proper remembered.known
      remembered.held remembered.reachable readable same.symm)
      (FileTree.reached_normalised s.proper remembered.known remembered.held)
      (FileTree.reached_normalised s.proper remembered.reachable readable) ?_
    rw [FileTree.location_of_same same, Path.location_normalised model s.proper, remembered.bytes]
    exact (FileTree.read_iff.mp remembered.held).2.2
  have readings : Fingerprint.readings origin s.here [model.normalised s.here.path] =
      Fingerprint.readings b.files s.here [q.normalised s.here.path] := by
    simp only [Fingerprint.readings, List.map_cons, List.map_nil, alike]
  rw [Cache.miss?] at found
  rw [Cache.isMiss, Cache.miss?, same]
  simp only [found, fingerprint, decide_eq_true_eq]
  exact Fingerprint.now_congr readings

theorem Spurned.missed_refreshed (spurned : s.Spurned log model origin content b)
    (dependable : s.Dependable w) (placed : s.Placed model)
    (same : Cache.key s.here q = Cache.key s.here model)
    (readable : b.files.read s.here q = .ok bytes) :
    (w.refreshed b q).cache.isMiss w.digest (w.refreshed b q).files w.here q = true := by
  obtain ⟨-, spares⟩ : _ ∧ s.Spares q b (w.refreshed b q) :=
    Grounds.spares_refreshed dependable.toSite spurned.obeys
  have atModel := s.location_of_key same
  rw [dependable.digest, dependable.here]
  refine (spurned.refreshed dependable.toOrderly placed same).isMiss same
    (Grounds.read_kept spares.directories ?_ readable)
  rw [atModel]
  exact (spares.files _ placed.sheltered).bytesAt?

/-- A spurned model is dismissed under every spelling that can be read, if the digest gives its entry
away. -/
theorem Spurned.dismisses (spurned : s.Spurned log model origin content b)
    (dependable : s.Dependable w) (placed : s.Placed model)
    (same : Cache.key s.here q = Cache.key s.here model)
    (readable : b.files.read s.here q = .ok bytes)
    (discernible : ∀ d, b.cache.entry? s.here model = some d → s.Discernible log b.files d) :
    w.Dismisses b q := by
  have isContent : bytes = content := by
    have there := (FileTree.read_iff.mp readable).2.2
    rw [s.location_of_key same, spurned.bytes] at there
    exact (Option.some.inj there).symm
  have outdated : ∀ d, b.cache.entry? w.here q = some d →
      Cache.outdated w.digest b.files w.here d = true := by
    rw [dependable.digest, dependable.here]
    intro d found
    have isKey := (Cache.mem_of_found found).2
    rw [Cache.entry?, same] at found
    rw [isContent] at readable
    exact (spurned.obsolete d found).outdated spurned.reachable isKey readable (discernible d found)
  have stage := Workshop.lookup_of_unanswered outdated
  rw [if_pos (spurned.missed_refreshed dependable placed same readable)] at stage
  refine ⟨?_, stage, w.ensure_of_step stage⟩
  cases found : b.cache.entry? w.here q with
  | none => rw [Cache.lookup_of_none found]
  | some d => rw [Cache.lookup_of_outdated found (outdated d found)]

/-- An unforced request for a spurned model ends with its lookup, however it is answered. -/
theorem Spurned.bench_ensure (spurned : s.Spurned log model origin content b)
    (dependable : s.Dependable w) (placed : s.Placed model)
    (same : Cache.key s.here q = Cache.key s.here model)
    (readable : b.files.read s.here q = .ok bytes) :
    (w.ensure b q false).bench = w.refreshed b q := by
  by_cases unanswered : ∀ d, b.cache.entry? w.here q = some d →
      Cache.outdated w.digest b.files w.here d = true
  · have stage := Workshop.lookup_of_unanswered unanswered
    rw [if_pos (spurned.missed_refreshed dependable placed same readable)] at stage
    rw [w.ensure_of_step stage]
  · push Not at unanswered
    obtain ⟨d, found, current⟩ := unanswered
    rw [ne_eq, Bool.not_eq_true] at current
    rw [w.ensure_of_step (Workshop.lookup_of_current found current), Workshop.refreshed,
      Cache.lookup_of_current found current]

end Premises
end SimWorkbench
