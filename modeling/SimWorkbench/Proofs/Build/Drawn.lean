import SimWorkbench.Proofs.Build.Filed
import SimWorkbench.Proofs.Build.Period
import SimWorkbench.Proofs.Build.Reach

/-!
# Sources that are drawn from their models

From the generator on a request carries the source that belongs to what its model holds. So an entry
of a model that lies outside of what the build writes was stored right after a call of the compiler
for the source that belonged to the model then. A request that ends with an error of the compiler has
cleared the place of the executable, and the miss it has recorded is that of the model as it is.
-/
namespace SimWorkbench

open FileTree (KeepsDirectories GrowsAt)

namespace Premises

/-- An attentive pipeline whose generator depends on the bytes of a model alone. Its compiler changes
no file when it is asked for its identity, and a call that builds nothing leaves nothing that can be
read where nothing was before. -/
structure Dependable (s : Premises) (w : Workshop) : Prop extends s.Attentive w where
  digest : w.digest = s.digest
  generates : ∀ files model bytes, files.read s.here model = .ok bytes →
    (w.generator files model).2.toOption = s.generated bytes
  identitySilent : ∀ files l, (w.site.compiler.identity files).1.get? l = files.get? l
  leavesNothing : ∀ files job, files.bytesAt? (job.output.location s.here) = none →
    (w.site.compiler.compile files job).2 ≠ compileSuccess ∨
        (w.site.compiler.compile files job).1.isFile s.here job.output = false →
      (w.site.compiler.compile files job).1.bytesAt? (job.output.location s.here) = none

/-- Whether a text is the source that belongs to what a model holds, and declares a unit. -/
def Drawn (s : Premises) (files : FileTree) (model : Path) (text : String) (u : SourceUnit) : Prop :=
  ∃ bytes, files.read s.here model = .ok bytes ∧ s.Makes bytes text ∧
    SourceUnit.parse text.toList = .ok u

/-- Whether an entry was stored right after a call of the compiler for the source that was drawn from
its model, spelled `p`. -/
structure Stems (s : Premises) (k : Compilation) (u : SourceUnit) (p : Path) (d : Descriptor) :
    Prop where
  filed : s.Filed s.digest k u d
  source : d.source = p.normalised s.here.path
  drawn : s.Drawn k.after p k.text u
  reachable : k.after.Reachable s.here

/-- Whether entries do not share places, and those whose model is at a location stem from calls of the
compiler. -/
structure Lineage (s : Premises) (l : Location) (log : List Compilation) (entries : List Descriptor)
    (misses : List Miss) : Prop where
  owned : s.Owned entries misses
  stems : ∀ d ∈ entries, d.source.location s.here = l → ∃ k ∈ log, ∃ u p, s.Stems k u p d

/-- The law of lineage. -/
def lineage (s : Premises) (l : Location) (log : List Compilation) : Cache.Law :=
  fun _ entries misses => s.Lineage l log entries misses

/-- Whether a model was rejected as it is: nothing can be read in the place of its executable, and the
miss is recorded. -/
structure Rejects (s : Premises) (w : Workshop) (model : Path) (b : Bench) : Prop where
  cleared : ∃ text u, s.Drawn b.files model text u ∧ b.files.bytesAt? (s.place u) = none
  missed : ∃ m, b.cache.miss? s.here model = some m ∧
    m.fingerprint = Fingerprint.now w.digest b.files s.here [model.normalised s.here.path]

/-- What is known of a request after the given calls of the compiler, when `text` is what it wrote
last. -/
def Draws (s : Premises) (w : Workshop) (model : Path) (calls : List Compilation) (b : Bench)
    (text : String) : Request → Prop
  | .claim text' u | .invoking (.writeSource u text') => s.Drawn b.files model text' u
  | .invoking (.clearOutput u) => s.Drawn b.files model text u
  | .invoking (.callCompiler u) =>
    s.Drawn b.files model text u ∧ b.files.bytesAt? (s.place u) = none
  | .invoking (.inspect u answer) => ∃ k ∈ calls, s.Drawn b.files model k.text u ∧
      k.job = Invocation.job w.site u ∧ k.after = b.files ∧
      (answer ≠ compileSuccess ∨ b.files.isFile s.here k.job.output = false →
        b.files.bytesAt? (s.place u) = none)
  | .store built => ∃ k ∈ calls, ∃ u, s.Drawn b.files model k.text u ∧ built.package = u.package ∧
      k.job.output = s.layout.artifactFile u.package u.typeName ∧ built.artifact = k.job.output ∧
      k.after = b.files ∧ b.files.isFile s.here k.job.output = true
  | .recordMiss _ => ∃ text u, s.Drawn b.files model text u ∧ b.files.bytesAt? (s.place u) = none
  | .finished (.error (.compile _)) => s.Rejects w model b
  | _ => True

/-- What holds of a request under way for a model. -/
structure Pursues (s : Premises) (w : Workshop) (environment : String) (model : Path)
    (log calls : List Compilation) (b : Bench) (text : String) (r : Request) : Prop where
  claimed : s.Claimed b.cache model r
  obeys : s.Obeys (s.lineage (model.location s.here) (log ++ calls)) environment b.files b.cache
  reachable : b.files.Reachable s.here
  draws : s.Draws w model calls b text r

variable {s : Premises} {w : Workshop} {model : Path} {b b' : Bench} {c : Cache} {l : Location}
  {environment text : String} {files : FileTree} {log calls : List Compilation} {u : SourceUnit}
  {r r' : Request}

theorem Drawn.declared (drawn : s.Drawn files model text u) : u.Declared := by
  obtain ⟨-, -, -, declares⟩ := drawn
  exact ⟨_, declares⟩

theorem Drawn.kept (drawn : s.Drawn b.files model text u) (placed : s.Placed model)
    (spares : s.Spares model b b') : s.Drawn b'.files model text u := by
  obtain ⟨bytes, readable, belongs⟩ := drawn
  exact ⟨bytes, Grounds.read_kept spares.directories (spares.files _ placed.sheltered).bytesAt?
    readable, belongs⟩

/-- What is drawn from a model is told by its bytes. -/
theorem Drawn.unique {files' : FileTree} {p : Path} {text' : String} {u' : SourceUnit}
    {bytes : Bytes} (drawn : s.Drawn files model text u) (drawn' : s.Drawn files' p text' u')
    (reads : files.read s.here model = .ok bytes) (reads' : files'.read s.here p = .ok bytes) :
    u = u' := by
  obtain ⟨held, isHeld, ⟨source, made, rfl⟩, declares⟩ := drawn
  obtain ⟨held', isHeld', ⟨source', made', rfl⟩, declares'⟩ := drawn'
  cases isHeld.symm.trans reads
  cases isHeld'.symm.trans reads'
  cases made.symm.trans made'
  exact Except.ok.inj (declares.symm.trans declares')

theorem lineage_lasting (s : Premises) (l : Location) (log : List Compilation) :
    (s.lineage l log).Lasting where
  empty environment := ⟨s.ownership_lasting.empty environment, by simp⟩
  dropEntry lineage key :=
    ⟨lineage.owned.dropEntry key, fun d member => lineage.stems d (Keyed.mem_drop.mp member).1⟩
  dropMiss lineage key := ⟨lineage.owned.dropMiss key, lineage.stems⟩
  loaded {environment entries misses} lineage := by
    have owned : s.ownership environment entries misses := lineage.owned
    exact ⟨s.ownership_lasting.loaded owned,
      fun d member => lineage.stems d (Keyed.mem_ofList member)⟩

theorem Lineage.append {entries : List Descriptor} {misses : List Miss}
    (lineage : s.Lineage l log entries misses) (more : List Compilation) :
    s.Lineage l (log ++ more) entries misses where
  owned := lineage.owned
  stems d member isThere :=
    (lineage.stems d member isThere).imp fun _ found => ⟨List.mem_append_left _ found.1, found.2⟩

theorem steady_of_lineage (claimed : s.Claimed b.cache model r)
    (obeys : s.Obeys (s.lineage l log) environment b.files b.cache) :
    s.Steady environment model b r :=
  ⟨obeys.imp fun lineage => lineage.owned, claimed⟩

/-- A stage keeps the law of lineage if what it stores for a model at the location stems from a
call. -/
theorem lineage_step (orderly : s.Orderly w) (claimed : s.Claimed b.cache model r)
    (obeys : s.Obeys (s.lineage l log) environment b.files b.cache)
    (steps : w.step b model r = (b', r'))
    (stems : ∀ built, r = .store built → model.location s.here = l → ∃ k ∈ log, ∃ u,
      s.Stems k u model (Cache.entryOf w.digest b.files s.here model built.artifact built.package)) :
    s.Obeys (s.lineage l log) environment b'.files b'.cache ∧ s.Claimed b'.cache model r' ∧
      s.Spares model b b' := by
  obtain ⟨steady, spares⟩ := Grounds.advances_step orderly (steady_of_lineage claimed obeys)
  rw [steps] at steady spares
  refine ⟨Grounds.obeys_step orderly claimed obeys steps ⟨steady.obeys.records, ?_⟩, steady.claimed,
    spares⟩
  intro d member isThere
  rcases Grounds.entries_step steps member with before | ⟨built, isStore, rfl⟩
  · exact obeys.records.stems d before isThere
  · rw [orderly.here] at isThere ⊢
    rw [Cache.entryOf, Path.location_normalised _ s.proper] at isThere
    obtain ⟨k, isCall, u, stems⟩ := stems built isStore isThere
    exact ⟨k, isCall, u, model, stems⟩

/-! ### Stage by stage -/

theorem draws_generate (dependable : s.Dependable w) (placed : s.Placed model)
    (spares : s.Spares model b b') (steps : w.step b model .generate = (b', r')) :
    s.Draws w model calls b' text r' := by
  have reads := dependable.readsModel b.files model
  have generates := dependable.generates b.files model
  simp only [Workshop.step, Workshop.produce] at steps
  cases made : (w.generator b.files model).2 with
  | error failure =>
    simp only [made] at steps
    cases steps
    trivial
  | ok source =>
    rw [made] at reads generates
    cases accepted : source.unit with
    | error cause =>
      simp only [made, accepted] at steps
      cases steps
      trivial
    | ok unit =>
      simp only [made, accepted] at steps
      cases steps
      obtain ⟨bytes, readable⟩ := reads source rfl
      have drawn : s.Drawn b.files model source.text unit :=
        ⟨bytes, readable, ⟨source, (generates bytes readable).symm, rfl⟩,
          GeneratedSource.parse_of_unit accepted⟩
      exact drawn.kept placed spares

theorem draws_claim {text' : String} (drawn : s.Drawn b.files model text' u)
    (steps : w.step b model (.claim text' u) = (b', r')) : s.Draws w model calls b' text r' := by
  cases owner : w.owner? b.cache model u with
  | some d =>
    simp only [Workshop.step, Workshop.checkOwner, owner] at steps
    cases steps
    trivial
  | none =>
    obtain ⟨-, -, -, declares⟩ := id drawn
    rw [Workshop.claim_of_unowned owner, Invocation.start_of_parse declares] at steps
    cases steps
    exact drawn

theorem draws_writeSource (placed : s.Placed model) {text' : String} (spares : s.Spares model b b')
    (drawn : s.Drawn b.files model text' u)
    (steps : w.step b model (.invoking (.writeSource u text')) = (b', r')) :
    s.Draws w model calls b' text' r' := by
  obtain ⟨after, next, outcome⟩ := w.step_writeSource b model u text'
  cases next.symm.trans steps
  rcases outcome with ⟨-, rfl⟩ | ⟨fault, -, rfl⟩
  · exact drawn.kept placed spares
  · trivial

theorem draws_clearOutput (dependable : s.Dependable w) (placed : s.Placed model)
    (spares : s.Spares model b b') (drawn : s.Drawn b.files model text u)
    (steps : w.step b model (.invoking (.clearOutput u)) = (b', r')) :
    s.Draws w model calls b' text r' := by
  obtain ⟨after, next, outcome⟩ := w.step_clearOutput b model u
  rw [dependable.here, Grounds.job_output dependable.toOrderly] at next outcome
  cases next.symm.trans steps
  rcases outcome with ⟨done, rfl⟩ | ⟨fault, -, rfl⟩
  · have free := Invocation.get?_cleared drawn.declared (Prod.ext rfl done)
    exact ⟨drawn.kept placed spares, by rw [FileTree.bytesAt?, Grounds.place, free]; rfl⟩
  · trivial

theorem draws_callCompiler (dependable : s.Dependable w) (placed : s.Placed model)
    (spares : s.Spares model b b') (drawn : s.Drawn b.files model text u)
    (free : b.files.bytesAt? (s.place u) = none)
    (steps : w.step b model (.invoking (.callCompiler u)) = (b', r')) :
    s.Draws w model (calls ++ (w.compilation? b text (.invoking (.callCompiler u))).toList) b' text
      r' := by
  have leaves := dependable.leavesNothing b.files (Invocation.job w.site u)
  have isPlace : (Invocation.job w.site u).output.location s.here = s.place u := by
    rw [Grounds.job_output dependable.toOrderly, Grounds.place]
  rw [isPlace] at leaves
  rw [w.step_callCompiler] at steps
  cases steps
  exact ⟨⟨b.cache.environment, text, Invocation.job w.site u, b.files, _, _⟩,
    List.mem_append_right _ (List.mem_singleton.mpr rfl), drawn.kept placed spares, rfl, rfl,
    leaves free⟩

theorem draws_inspect (dependable : s.Dependable w) {answer : String}
    (draws : s.Draws w model calls b text (.invoking (.inspect u answer)))
    (steps : w.step b model (.invoking (.inspect u answer)) = (b', r')) :
    s.Draws w model calls b' text r' := by
  obtain ⟨k, isCall, drawn, job, after, leaves⟩ := draws
  obtain ⟨stage, next, outcome⟩ := w.step_inspect b model u answer
  rw [dependable.here, ← job] at outcome
  cases next.symm.trans steps
  rcases outcome with ⟨-, isFile, rfl⟩ | ⟨failed, diagnostic, rfl⟩
  · refine ⟨k, isCall, u, drawn, rfl, ?_, rfl, after, isFile⟩
    rw [job, Grounds.job_output dependable.toOrderly]
  · exact ⟨k.text, u, drawn, leaves failed⟩

theorem draws_recordMiss (dependable : s.Dependable w) (placed : s.Placed model)
    {diagnostic : Diagnostic} (reachable : b.files.Reachable s.here)
    (temporaryApart : s.layout.Apart s.here (s.layout.temporary.location s.here))
    (keeps : b.cache.indexPath = s.layout.cacheIndex) (spares : s.Spares model b b')
    (draws : s.Draws w model calls b text (.recordMiss diagnostic))
    (steps : w.step b model (.recordMiss diagnostic) = (b', r')) :
    s.Draws w model calls b' text r' := by
  obtain ⟨text', u, drawn, free⟩ := draws
  obtain ⟨bytes, readable, -⟩ := id drawn
  obtain ⟨-, missed⟩ :=
    Grounds.missed_recorded dependable.here placed reachable spares readable steps
  have kept := drawn.kept placed spares
  obtain ⟨failure, next, outcome⟩ := w.step_recordMiss b model diagnostic
  rw [dependable.here] at next
  cases next.symm.trans steps
  have frame := (Cache.swept_frame (b.cache.withMiss (Cache.missOf w.digest b.files s.here model))
    s.here [] b.files).2 (s.place u)
  have grows := frame (keeps ▸ Ne.symm (s.indexApart u drawn.declared).2)
    (by rw [Cache.temporary]; exact keeps ▸ Ne.symm (temporaryApart u drawn.declared).2) (by simp)
  rcases outcome with rfl | ⟨fault, rfl⟩
  · exact ⟨⟨text', u, kept, grows.bytesAt?.trans free⟩, missed⟩
  · trivial

/-- What a request stores stems from its call of the compiler. -/
theorem stems_of_store (dependable : s.Dependable w) {built : CompiledArtifact}
    (reachable : b.files.Reachable s.here)
    (draws : s.Draws w model calls b text (.store built)) :
    ∃ k ∈ calls, ∃ u, s.Stems k u model
      (Cache.entryOf w.digest b.files s.here model built.artifact built.package) := by
  obtain ⟨k, isCall, u, drawn, package, output, artifact, after, isFile⟩ := draws
  obtain ⟨-, -, -, declares⟩ := id drawn
  refine ⟨k, isCall, u, ⟨declares, package, output, ?_, by rwa [after], ?_⟩, rfl, by rwa [after],
    by rwa [after]⟩
  · rw [Cache.entryOf, artifact]
  · rw [after, ← dependable.digest]
    rfl

/-- What is known of a request is known after a stage. -/
theorem draws_step (dependable : s.Dependable w) (placed : s.Placed model)
    (temporaryApart : s.layout.Apart s.here (s.layout.temporary.location s.here))
    (claimed : s.Claimed b.cache model r) (reachable : b.files.Reachable s.here)
    (keeps : b.cache.indexPath = s.layout.cacheIndex) (spares : s.Spares model b b')
    (draws : s.Draws w model calls b text r) (steps : w.step b model r = (b', r')) :
    s.Draws w model (calls ++ (w.compilation? b text r).toList) b' (r.written?.getD text) r' := by
  have plain : (w.compilation? b text r).toList = [] →
      s.Draws w model calls b' (r.written?.getD text) r' →
      s.Draws w model (calls ++ (w.compilation? b text r).toList) b' (r.written?.getD text) r' := by
    intro none draws
    rwa [none, List.append_nil]
  cases r with
  | lookup =>
    obtain ⟨after, next, outcome⟩ := w.step_lookup b model
    cases next.symm.trans steps
    rcases outcome with ⟨d, rfl⟩ | rfl | rfl <;> exact plain rfl trivial
  | generate => exact plain rfl (draws_generate dependable placed spares steps)
  | claim text' u => exact plain rfl (draws_claim draws steps)
  | invoking progress =>
    cases progress with
    | writeSource u text' => exact plain rfl (draws_writeSource placed spares draws steps)
    | clearOutput u => exact plain rfl (draws_clearOutput dependable placed spares draws steps)
    | callCompiler u => exact draws_callCompiler dependable placed spares draws.1 draws.2 steps
    | inspect u answer => exact plain rfl (draws_inspect dependable draws steps)
    | finished result =>
      obtain ⟨cause, rfl⟩ := claimed
      cases steps
      exact plain rfl trivial
  | recordMiss diagnostic =>
    exact plain rfl
      (draws_recordMiss dependable placed reachable temporaryApart keeps spares draws steps)
  | store built =>
    obtain ⟨result, next, outcome⟩ := w.step_store b model built
    cases next.symm.trans steps
    rcases outcome with rfl | ⟨fault, rfl⟩ <;> exact plain rfl trivial
  | finished result =>
    cases steps
    exact plain rfl draws

/-- Every stage keeps what holds of a request. -/
theorem pursues_step (dependable : s.Dependable w) (placed : s.Placed model)
    (temporaryApart : s.layout.Apart s.here (s.layout.temporary.location s.here))
    (pursues : s.Pursues w environment model log calls b text r)
    (steps : w.step b model r = (b', r')) :
    s.Pursues w environment model log (calls ++ (w.compilation? b text r).toList) b'
      (r.written?.getD text) r' := by
  obtain ⟨claimed, obeys, reachable, draws⟩ := pursues
  obtain ⟨obeys', claimed', spares⟩ :=
    lineage_step dependable.toOrderly claimed obeys steps fun built isStore _ => by
      subst isStore
      obtain ⟨k, isCall, stems⟩ := stems_of_store dependable reachable draws
      exact ⟨k, List.mem_append_right _ isCall, stems⟩
  refine ⟨claimed', ?_, reachable.mono spares.directories,
    draws_step dependable placed temporaryApart claimed reachable obeys.keeps spares draws steps⟩
  rw [← List.append_assoc]
  exact obeys'.imp fun lineage => lineage.append _

theorem pursues_after (dependable : s.Dependable w) (placed : s.Placed model)
    (temporaryApart : s.layout.Apart s.here (s.layout.temporary.location s.here)) (n : Nat)
    (pursues : s.Pursues w environment model log calls b text r) :
    ∃ text', s.Pursues w environment model log (calls ++ w.compilations model n b text r)
      (w.after model n (b, r)).1 text' (w.after model n (b, r)).2 := by
  induction n generalizing calls b text r with
  | zero => exact ⟨text, by simpa [Workshop.compilations, Workshop.after] using pursues⟩
  | succ n ih =>
    have next := ih (pursues_step dependable placed temporaryApart pursues Prod.mk.eta.symm)
    rwa [List.append_assoc] at next

/-- What a whole request for a model leaves. -/
theorem pursues_ensure (dependable : s.Dependable w) (placed : s.Placed model)
    (temporaryApart : s.layout.Apart s.here (s.layout.temporary.location s.here))
    (obeys : s.Obeys (s.lineage (model.location s.here) log) environment files c)
    (reachable : files.Reachable s.here) (force : Bool) :
    ∃ text, s.Pursues w environment model log (w.calls ⟨files, c⟩ model force)
      (w.ensure ⟨files, c⟩ model force).bench text
      (.finished (w.ensure ⟨files, c⟩ model force).result) := by
  have start : s.Pursues w environment model log [] ⟨files, c⟩ "" (Request.start force) :=
    ⟨by cases force <;> trivial, by rwa [List.append_nil], reachable, by cases force <;> trivial⟩
  obtain ⟨text, ended⟩ :=
    pursues_after dependable placed temporaryApart (Request.start force).rank start
  rw [w.after_eq_ensure, List.nil_append] at ended
  exact ⟨text, ended⟩

/-- A request for a model elsewhere keeps the law of lineage. -/
theorem lineage_beside (orderly : s.Orderly w) (elsewhere : model.location s.here ≠ l) (n : Nat)
    (claimed : s.Claimed b.cache model r)
    (obeys : s.Obeys (s.lineage l log) environment b.files b.cache) :
    s.Obeys (s.lineage l log) environment (w.after model n (b, r)).1.files
      (w.after model n (b, r)).1.cache := by
  induction n generalizing b r with
  | zero => exact obeys
  | succ n ih =>
    have steps : w.step b model r = ((w.step b model r).1, (w.step b model r).2) := rfl
    obtain ⟨obeys', claimed', -⟩ := lineage_step orderly claimed obeys steps
      fun built _ isThere => absurd isThere elsewhere
    exact ih claimed' obeys'

/-- In every run the open cache keeps the law of lineage for a model outside of what the build
writes. -/
theorem lineage_of_history (placed : s.Placed model)
    (temporaryApart : s.layout.Apart s.here (s.layout.temporary.location s.here))
    {open? : Option (Workshop × Cache)}
    (history : s.History s.Dependable (fun files _ => files.Reachable s.here) files open? log) :
    ∀ w c, open? = some (w, c) → s.Dependable w ∧
      s.Obeys (s.lineage (model.location s.here) log) c.environment files c := by
  refine (history.obeys (fun w dependable => dependable.toSite)
    (fun log => s.lineage_lasting (model.location s.here) log) ?_).2
  intro files w c log model' dependable obeys reachable force
  by_cases isThere : model'.location s.here = model.location s.here
  · have placed' : s.Placed model' :=
      ⟨isThere ▸ placed.outside, isThere ▸ placed.notIndex, isThere ▸ placed.notTemporary⟩
    rw [← isThere] at obeys ⊢
    obtain ⟨text, ended⟩ := pursues_ensure dependable placed' temporaryApart obeys reachable force
    exact ended.obeys
  · have bench : s.Obeys (s.lineage (model.location s.here) log) c.environment
        (Bench.mk files c).files (Bench.mk files c).cache := obeys
    have ended := lineage_beside dependable.toOrderly isThere (Request.start force).rank
      (r := Request.start force) (by cases force <;> trivial) bench
    rw [w.after_eq_ensure] at ended
    exact ended.imp fun lineage => lineage.append _

end Premises
end SimWorkbench
