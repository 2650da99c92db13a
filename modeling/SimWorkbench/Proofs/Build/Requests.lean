import SimWorkbench.Proofs.Build.Provenance

/-!
# What a request knows at its stages

From the generator on, a request carries the source that belongs to the bytes of its model, and the
model keeps these bytes to the end. When the executable is stored, the last call of the compiler was
made for that source, and nothing changed since then.
-/
namespace SimWorkbench

open FileTree (KeepsDirectories GrowsAt NothingNewAt)

namespace Premises

variable {s : Premises} {log more : List Compilation} {environment text : String}
  {files files' : FileTree} {b : Bench} {w : Workshop} {model : Path} {bytes : Bytes}
  {u : SourceUnit}

theorem Holds.mono (holds : s.Holds files model bytes) (kept : KeepsDirectories files files')
    (grows : GrowsAt files files' (model.location s.here)) : s.Holds files' model bytes :=
  ⟨FileTree.read_mono kept grows holds.1,
    FileTree.read_mono kept (by rwa [Path.location_normalised model s.proper]) holds.2⟩

theorem Wrote.mono {path : Path} (wrote : s.Wrote files path text)
    (kept : KeepsDirectories files files')
    (grows : GrowsAt files files' (path.location s.here)) : s.Wrote files' path text := by
  intro noDevice
  exact FileTree.read_mono kept grows (wrote fun d device => noDevice d (grows.file device))

theorem Ready.holds (ready : s.Ready files model) : ∃ bytes, s.Holds files model bytes := by
  obtain ⟨bytes, given⟩ := ready.given
  obtain ⟨bytes', known⟩ := ready.known
  obtain ⟨_, e, located, content⟩ := FileTree.read_ok_iff.mp given
  obtain ⟨_, e', located', content'⟩ := FileTree.read_ok_iff.mp known
  have found := FileTree.locate_get? located
  have found' := FileTree.locate_get? located'
  rw [FileTree.locate_location located] at found
  rw [FileTree.locate_location located', Path.location_normalised model s.proper, found,
    Option.some.injEq] at found'
  rw [← found', content, Option.some.injEq] at content'
  exact ⟨bytes, given, content' ▸ known⟩

/-- What is known of a request for a model that holds the given bytes, when `text` is what was
written last. -/
def Stage (s : Premises) (w : Workshop) (log : List Compilation) (environment : String)
    (model : Path) (bytes : Bytes) (files : FileTree) (text : String) : Request → Prop
  | .lookup | .generate => s.Holds files model bytes
  | .claim text' _ => s.Holds files model bytes ∧ s.Makes bytes text'
  | .invoking (.writeSource unit text') =>
    s.Holds files model bytes ∧ s.Makes bytes text' ∧ unit.Declared
  | .invoking (.clearOutput unit) | .invoking (.callCompiler unit) =>
    s.Holds files model bytes ∧ s.Makes bytes text ∧ unit.Declared ∧
      s.Wrote files (Invocation.job w.site unit).source text
  | .invoking (.inspect unit answer) =>
    s.Holds files model bytes ∧ unit.Declared ∧
      ∃ k ∈ log, s.From k environment bytes ∧ k.job = Invocation.job w.site unit ∧
        k.after = files ∧ k.answer = answer
  | .invoking (.finished result) => ∃ cause, result = .error (.malformed cause)
  | .store built =>
    s.Holds files model bytes ∧
      s.layout.classesDir.location s.here <+: built.artifact.location s.here ∧
      ∃ k ∈ log, s.From k environment bytes ∧ k.job.output = built.artifact ∧ k.after = files ∧
        files.isFile s.here built.artifact = true
  | .recordMiss _ =>
    s.Holds files model bytes ∧
      ∃ k ∈ log, s.From k environment bytes ∧ k.after = files ∧ k.Failed s.here
  | .finished _ => True

/-- Whether all that a request works on is sound, and it knows what it has to know. -/
structure Good (s : Premises) (w : Workshop) (log : List Compilation) (environment : String)
    (model : Path) (bytes : Bytes) (b : Bench) (text : String) (r : Request) : Prop where
  sound : s.Sound log environment b.files b.cache
  stage : s.Stage w log environment model bytes b.files text r

/-- A transaction that discards executables and saves the cache keeps what a model holds. -/
theorem Holds.run {x : Cache.Transaction} {old : Cache} {discarded : List Path}
    (holds : s.Holds files model bytes) (placed : s.Placed model)
    (path : x.cache.indexPath = s.layout.cacheIndex)
    (effects : x.before ++ x.after = discarded.map .discard ++ x.cache.saving)
    (below : ∀ p ∈ discarded, s.layout.classesDir.location s.here <+: p.location s.here) :
    s.Holds (x.run old files s.here).1 model bytes := by
  rw [Cache.files_run]
  obtain ⟨kept, grows⟩ := Effect.performAll_frame (x.before ++ x.after) files s.here
  refine holds.mono kept (grows _ fun e member => ?_)
  rw [effects, List.mem_append] at member
  rcases member with discard | saving
  · obtain ⟨p, isDiscarded, rfl⟩ := List.mem_map.mp discard
    simp only [Effect.touches, List.mem_singleton]
    intro same
    exact placed.outside.2 (same ▸ below p isDiscarded)
  · refine Cache.not_touched_saving saving (by rw [path]; exact placed.notIndex) ?_
    rw [Cache.temporary, path]
    exact placed.notTemporary

/-- The model holds what it held when an entry that is out of date has been removed. -/
theorem Holds.lookup (holds : s.Holds b.files model bytes) (placed : s.Placed model)
    (sound : s.Sound log environment b.files b.cache) (digest : Digest) :
    s.Holds (b.cache.lookup digest b.files s.here model).files model bytes := by
  unfold Cache.lookup
  cases found : b.cache.entry? s.here model with
  | none => exact holds
  | some d =>
    by_cases stale : Cache.outdated digest b.files s.here d = true
    · simp only [if_pos stale]
      obtain ⟨k, -, supports⟩ := sound.records.entries d (Cache.mem_of_found found).1
      have below : ∀ p ∈ [d.artifact], s.layout.classesDir.location s.here <+: p.location s.here := by
        simpa using supports.below
      exact Holds.run holds placed sound.keeps rfl below
    · simp only [if_neg stale]
      exact holds

theorem good_lookup (admits : s.Admits w) (placed : s.Placed model)
    (good : s.Good w log environment model bytes b text .lookup) :
    s.Good w log environment model bytes (w.answerFromCache b model).1 text
      (w.answerFromCache b model).2 := by
  obtain ⟨sound, holds⟩ := good
  have here : w.here = s.here := admits.here
  have kept := Holds.lookup holds placed sound w.digest
  have sound' := Cache.Obeys.lookup sound (s.recorded_lasting log) w.digest model
  unfold Workshop.answerFromCache
  rw [here]
  dsimp only
  split
  · exact ⟨sound', trivial⟩
  · split
    · exact ⟨sound', trivial⟩
    · exact ⟨sound', kept⟩

theorem good_generate (admits : s.Admits w)
    (good : s.Good w log environment model bytes b text .generate) :
    s.Good w log environment model bytes (w.produce b model).1 text (w.produce b model).2 := by
  obtain ⟨sound, holds⟩ := good
  obtain ⟨kept, grows, leaves⟩ := admits.generatorKeeps b.files model
  have generated := admits.generates b.files model bytes holds.1
  have sound' := sound.leaves leaves
  have holds' := Holds.mono holds kept grows
  unfold Workshop.produce
  rcases produced : w.generator b.files model with ⟨after, failure | source⟩
  · rw [produced] at sound'
    exact ⟨sound', trivial⟩
  · rw [produced] at sound' holds' generated
    cases unit : source.unit with
    | error cause => simp only [unit]; exact ⟨sound', trivial⟩
    | ok unit' => simp only [unit]; exact ⟨sound', holds', source, generated.symm, rfl⟩

theorem good_claim {text' : String}
    (good : s.Good w log environment model bytes b text (.claim text' u)) :
    s.Good w log environment model bytes b text (w.checkOwner b.cache model text' u) := by
  obtain ⟨sound, holds, makes⟩ := good
  refine ⟨sound, ?_⟩
  unfold Workshop.checkOwner
  split
  · trivial
  · unfold Invocation.start
    split
    · rename_i expected
      exact ⟨holds, makes, (SourceUnit.declared_of_expect expected).1⟩
    · exact ⟨_, rfl⟩

/-- The stages of a compile that only put files in place keep what a request knows. -/
theorem placing_kept (admits : s.Admits w) (placed : s.Placed model) {i : Invocation}
    (sound : s.Sound log environment b.files b.cache) (holds : s.Holds b.files model bytes)
    (declared : u.Declared) (stage : (∃ text, i = .writeSource u text) ∨ i = .clearOutput u) :
    s.Sound log environment (i.step w.site b.files).1 b.cache ∧
      s.Holds (i.step w.site b.files).1 model bytes := by
  have here : w.site.here = s.here := admits.here
  have apart : ∀ {l}, s.layout.Apart s.here l → w.site.layout.Apart w.site.here l := by
    intro l apart
    rwa [admits.layout, here]
  obtain ⟨kept, grows⟩ :=
    Invocation.step_frame w.site b.files declared stage (apart placed.outside.apart)
  obtain ⟨-, growsIndex⟩ := Invocation.step_frame w.site b.files declared stage (apart s.indexApart)
  exact ⟨sound.leaves growsIndex.nothingNewAt, Holds.mono holds kept grows⟩

/-- A source that was put in its place is there. -/
theorem wrote_of_placing {path : Path}
    (placed : Effect.performAll files s.here
      (Invocation.placing path (.write path (Bytes.ofString text))) = (files', none)) :
    s.Wrote files' path text := by
  intro noDevice
  obtain ⟨made, -, writes⟩ := Effect.performAll_append_ok placed
  simp only [Effect.performAll, Effect.perform] at writes
  cases wrote : made.write s.here path (Bytes.ofString text) with
  | error cause => simp [wrote] at writes
  | ok written =>
    simp only [wrote, Prod.mk.injEq, and_true] at writes
    subst writes
    obtain ⟨names, file, ⟨⟨d, device⟩, rfl⟩ | ⟨mode, rfl⟩⟩ := FileTree.write_ok wrote
    · exact absurd device (noDevice d)
    · have found := FileTree.get?_insert_self made (.file (Bytes.ofString text) mode) names.notRoot
      exact FileTree.read_ok_iff.mpr ⟨_, _,
        (names.mono (FileTree.keepsDirectories_insert file)).locate found, rfl⟩

theorem good_writeSource (admits : s.Admits w) (placed : s.Placed model) {text' : String}
    (good : s.Good w log environment model bytes b text (.invoking (.writeSource u text'))) :
    s.Good w log environment model bytes
      ⟨((Invocation.writeSource u text').step w.site b.files).1, b.cache⟩ text'
      (Workshop.afterInvocation ((Invocation.writeSource u text').step w.site b.files).2) := by
  obtain ⟨sound, holds, makes, declared⟩ := good
  obtain ⟨sound', holds'⟩ := placing_kept admits placed sound holds declared (.inl ⟨text', rfl⟩)
  refine ⟨sound', ?_⟩
  have here : w.site.here = s.here := admits.here
  set source := (Invocation.job w.site u).source with isSource
  rw [Invocation.step, ← isSource, here] at holds' ⊢
  rcases placed : Effect.performAll b.files s.here
      (Invocation.placing source (.write source (Bytes.ofString text'))) with ⟨after, _ | fault⟩
  · rw [placed] at holds'
    exact ⟨holds', makes, declared, wrote_of_placing placed⟩
  · trivial

/-- The source of a unit is another file than its executable. -/
theorem ne_output (s : Premises) (w : Workshop) (declared : u.Declared) :
    (Invocation.job w.site u).source.location s.here ≠
      (Invocation.job w.site u).output.location s.here := by
  rw [Invocation.job, Layout.location_sourceFile s.here declared,
    Layout.location_artifactFile s.here declared]
  intro same
  have last := congrArg List.getLast? same
  simp only [List.getLast?_append, List.getLast?_cons_cons, List.getLast?_singleton, Option.some_or,
    Option.some.injEq] at last
  have := congrArg (fun name => name.toList.length) last
  simp at this

theorem good_clearOutput (admits : s.Admits w) (placed : s.Placed model)
    (good : s.Good w log environment model bytes b text (.invoking (.clearOutput u))) :
    s.Good w log environment model bytes
      ⟨((Invocation.clearOutput u).step w.site b.files).1, b.cache⟩ text
      (Workshop.afterInvocation ((Invocation.clearOutput u).step w.site b.files).2) := by
  obtain ⟨sound, holds, makes, declared, wrote⟩ := good
  obtain ⟨sound', holds'⟩ := placing_kept admits placed sound holds declared (.inr rfl)
  refine ⟨sound', ?_⟩
  have here : w.site.here = s.here := admits.here
  set output := (Invocation.job w.site u).output with isOutput
  rw [Invocation.step, ← isOutput, here] at holds' ⊢
  have apart : (Invocation.job w.site u).source.location s.here ∉
      (Effect.discard output).touches s.here := by
    simpa [Effect.touches] using ne_output s w declared
  have frame : KeepsDirectories b.files
        (Effect.performAll b.files s.here (Invocation.placing output (.discard output))).1 ∧
      GrowsAt b.files (Effect.performAll b.files s.here (Invocation.placing output (.discard output))).1
        ((Invocation.job w.site u).source.location s.here) := Invocation.placing_frame apart
  obtain ⟨kept, grows⟩ := frame
  rcases placed : Effect.performAll b.files s.here
      (Invocation.placing output (.discard output)) with ⟨after, _ | fault⟩
  · rw [placed] at holds' kept grows
    exact ⟨holds', makes, declared, Wrote.mono wrote kept grows⟩
  · trivial

theorem good_callCompiler (admits : s.Admits w) (placed : s.Placed model)
    (good : s.Good w log environment model bytes b text (.invoking (.callCompiler u))) :
    s.Good w (log ++ (w.compilation? b text (.invoking (.callCompiler u))).toList) environment model
      bytes ⟨((Invocation.callCompiler u).step w.site b.files).1, b.cache⟩ text
      (Workshop.afterInvocation ((Invocation.callCompiler u).step w.site b.files).2) := by
  obtain ⟨sound, holds, makes, declared, wrote⟩ := good
  have writes := admits.compilerWrites b.files (Invocation.job w.site u)
  rcases compiled : w.site.compiler.compile b.files (Invocation.job w.site u) with ⟨after, answer⟩
  rw [compiled] at writes
  have kept : KeepsDirectories b.files after := by
    intro l directory
    rcases writes l with same | ⟨-, file⟩
    · exact same.trans directory
    · exact absurd directory file
  have output : (Invocation.job w.site u).output =
      s.layout.artifactFile u.package u.typeName := by
    rw [Invocation.job, admits.layout]
  have elsewhere : ∀ l, s.layout.Apart s.here l → GrowsAt b.files after l := by
    intro l apart
    rcases writes l with same | ⟨isOutput, -⟩
    · exact .inl same
    · rw [output] at isOutput
      exact absurd isOutput (apart u declared).2
  have sound' : s.Sound log environment after b.cache :=
    sound.leaves (elsewhere _ s.indexApart).nothingNewAt
  have holds' : s.Holds after model bytes := Holds.mono holds kept (elsewhere _ placed.outside.apart)
  simp only [Invocation.step, Workshop.compilation?, compiled, Option.toList_some]
  refine ⟨sound'.imp Recorded.append, holds', declared, ⟨b.cache.environment, text,
    Invocation.job w.site u, b.files, after, answer⟩, by simp, ?_⟩
  exact ⟨⟨sound.built, makes, wrote⟩, rfl, rfl, rfl⟩

theorem good_inspect (admits : s.Admits w) {answer : String}
    (good : s.Good w log environment model bytes b text (.invoking (.inspect u answer))) :
    s.Good w log environment model bytes
      ⟨((Invocation.inspect u answer).step w.site b.files).1, b.cache⟩ text
      (Workshop.afterInvocation ((Invocation.inspect u answer).step w.site b.files).2) := by
  obtain ⟨sound, holds, declared, k, member, made, job, after, isAnswer⟩ := good
  refine ⟨sound, ?_⟩
  have here : w.site.here = s.here := admits.here
  simp only [Invocation.step, Invocation.verdict, here]
  split
  · rename_i rejected
    exact ⟨holds, k, member, made, after, .inl (by rwa [isAnswer])⟩
  · by_cases isFile : b.files.isFile s.here (Invocation.job w.site u).output = true
    · rw [if_pos isFile]
      refine ⟨holds, ?_, k, member, made, by rw [job], after, isFile⟩
      have output : (Invocation.job w.site u).output =
          s.layout.artifactFile u.package u.typeName := by
        rw [Invocation.job, admits.layout]
      simp only [output, Layout.location_artifactFile s.here declared]
      exact List.prefix_append _ _
    · rw [if_neg isFile]
      exact ⟨holds, k, member, made, after, .inr (by rw [job, after]; simpa using isFile)⟩

theorem good_recordMiss (admits : s.Admits w) {diagnostic : Diagnostic}
    (good : s.Good w log environment model bytes b text (.recordMiss diagnostic)) :
    s.Sound log environment (w.step b model (.recordMiss diagnostic)).1.files
      (w.step b model (.recordMiss diagnostic)).1.cache := by
  obtain ⟨sound, holds, k, member, made, after, failed⟩ := good
  have here : w.here = s.here := admits.here
  simp only [Workshop.step, here]
  refine Sound.recordMiss sound ⟨k, member, ⟨bytes, by rw [after]; exact holds.2, made⟩, failed, ?_⟩
  rw [after, admits.digest]
  rfl

theorem good_store (admits : s.Admits w) {built : CompiledArtifact}
    (good : s.Good w log environment model bytes b text (.store built)) :
    s.Sound log environment (w.step b model (.store built)).1.files
      (w.step b model (.store built)).1.cache := by
  obtain ⟨sound, holds, below, k, member, made, output, after, isFile⟩ := good
  have here : w.here = s.here := admits.here
  simp only [Workshop.step, here]
  refine Sound.store sound ⟨k, member, ⟨bytes, ?_, made⟩, ?_, ?_, ?_, ?_⟩
  · rw [after]
    exact holds.2
  · rw [output]
    rfl
  · rw [Cache.entryOf]
    rwa [Path.location_normalised built.artifact s.proper]
  · rwa [after, output]
  · rw [after, admits.digest]
    rfl

theorem step_invoking (w : Workshop) (b : Bench) (model : Path) (i : Invocation) :
    w.step b model (.invoking i) =
      (⟨(i.step w.site b.files).1, b.cache⟩, Workshop.afterInvocation (i.step w.site b.files).2) :=
  rfl

/-- Every stage of a request keeps what is sound and learns what the next one has to know. -/
theorem good_step (admits : s.Admits w) (placed : s.Placed model) {r : Request}
    (good : s.Good w log environment model bytes b text r) :
    s.Good w (log ++ (w.compilation? b text r).toList) environment model bytes
      (w.step b model r).1 (r.written?.getD text) (w.step b model r).2 := by
  have plain : (w.compilation? b text r).toList = [] → s.Good w log environment model bytes
      (w.step b model r).1 (r.written?.getD text) (w.step b model r).2 →
      s.Good w (log ++ (w.compilation? b text r).toList) environment model bytes
      (w.step b model r).1 (r.written?.getD text) (w.step b model r).2 := by
    intro none good
    rwa [none, List.append_nil]
  cases r with
  | lookup => exact plain rfl (good_lookup admits placed good)
  | generate => exact plain rfl (good_generate admits good)
  | claim text' u => exact plain rfl (good_claim good)
  | invoking progress =>
    rw [step_invoking] at plain ⊢
    cases progress with
    | writeSource u text' => exact plain rfl (good_writeSource admits placed good)
    | clearOutput u => exact plain rfl (good_clearOutput admits placed good)
    | callCompiler u => exact good_callCompiler admits placed good
    | inspect u answer => exact plain rfl (good_inspect admits good)
    | finished result =>
      obtain ⟨cause, rfl⟩ := good.stage
      exact plain rfl ⟨good.sound, trivial⟩
  | recordMiss diagnostic =>
    refine plain rfl ⟨good_recordMiss admits good, ?_⟩
    simp only [Workshop.step]
    split <;> trivial
  | store built =>
    refine plain rfl ⟨good_store admits good, ?_⟩
    simp only [Workshop.step]
    split <;> trivial
  | finished result => exact plain rfl good

/-- A request keeps what is sound, however many stages it takes. -/
theorem good_after (admits : s.Admits w) (placed : s.Placed model) (n : Nat) {r : Request}
    (good : s.Good w log environment model bytes b text r) :
    ∃ text', s.Good w (log ++ w.compilations model n b text r) environment model bytes
      (w.after model n (b, r)).1 text' (w.after model n (b, r)).2 := by
  induction n generalizing log b text r with
  | zero => exact ⟨text, by simpa [Workshop.compilations, Workshop.after] using good⟩
  | succ n ih =>
    have next := ih (good_step admits placed good)
    rwa [List.append_assoc] at next

/-- A whole request for a model that can be asked for keeps the cache and its index sound. -/
theorem Sound.ensure {c : Cache} (sound : s.Sound log environment files c) (admits : s.Admits w)
    (ready : s.Ready files model) (force : Bool) :
    s.Sound (log ++ w.calls ⟨files, c⟩ model force) environment
      (w.ensure ⟨files, c⟩ model force).bench.files
      (w.ensure ⟨files, c⟩ model force).bench.cache := by
  obtain ⟨bytes, holds⟩ := ready.holds
  have start : s.Good w log environment model bytes ⟨files, c⟩ "" (Request.start force) :=
    ⟨sound, by cases force <;> exact holds⟩
  obtain ⟨text, ended⟩ := good_after admits ready.placed (Request.start force).rank start
  rw [w.after_eq_ensure] at ended
  exact ended.sound

/-- What is open in a history is a pipeline of the project, and all it knows was recorded after
calls of the compiler. -/
theorem sound_of_history {open? : Option (Workshop × Cache)}
    (history : s.History s.Admits s.Ready files open? log) :
    s.IndexObeys (s.Recorded log) files ∧
      ∀ w c, open? = some (w, c) → s.Admits w ∧ s.Sound log c.environment files c :=
  history.obeys (fun _ admits => admits.toSite) s.recorded_lasting
    fun admits sound ready force => Sound.ensure sound admits ready force

end Premises
end SimWorkbench
