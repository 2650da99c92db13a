import SimWorkbench.Proofs.Build.Calls
import SimWorkbench.Proofs.Build.Neighbours
import SimWorkbench.Proofs.Build.Rehearsal
import SimWorkbench.Proofs.FileTree.Clearing
import SimWorkbench.Proofs.Path.Absolute

/-!
# Requests that fail without the compiler

A request whose failure is neither the compiler's nor the cache's has not called the compiler. Until
then it changes files at the place of a source alone; the cache is as the lookup left it. The
compile refuses no source as malformed that the request has taken for well-formed.
-/
namespace SimWorkbench

open FileTree (KeepsDirectories GrowsAt)

/-- Whether a failure is that of the compiler or of the cache. -/
def BuildFailure.isLate : BuildFailure → Bool
  | compile _ | cache _ => true
  | _ => false

namespace FileTree

variable {t : FileTree} {here : Location} {p : Path} {final : String}

/-- A regular file can be discarded under a path that ends with a name. -/
theorem discard_of_isFile (isFile : t.isFile here p = true) (last : p.names.getLast? = some final)
    (name : final ≠ "." ∧ final ≠ "..") :
    (Effect.discard p).perform t here = (t.erase (p.location here), none) := by
  obtain ⟨e, located, file⟩ := locate_of_isFile isFile
  obtain ⟨dir, ends, walked, isLocation, found, slash⟩ := locate_ok_iff.mp located
  obtain ⟨-, -, ⟨none, -, -⟩ | ⟨before, final', names, -, -, rfl⟩⟩ := walk_ok_iff.mp walked
  · rw [none] at last
    cases last
  · rw [names, List.getLast?_concat, Option.some.injEq] at last
    subst last
    simp only [Last.ofSegment, if_neg name.1, if_neg name.2] at walked isLocation slash
    have single : (p.text.toList.getLast? == some '/') = false := by
      by_contra slashed
      rw [Bool.not_eq_false] at slashed
      rw [slash ⟨final', by rw [slashed]⟩] at file
      cases file
    rw [single] at walked
    have removed : t.remove here p = .ok (t.erase (p.location here)) := by
      rw [isLocation] at found ⊢
      simp only [Last.location] at found ⊢
      simp only [remove, walked, bind, Except.bind, found]
      cases e with
      | directory => cases file
      | _ => rfl
    simp only [Effect.perform, removed]

end FileTree

namespace Path

variable {p : Path} {name : String}

/-- Seen from the root, the path of a name below another still ends with the name. -/
theorem last_normalised_child {here : Location} (proper : ∀ name ∈ here, IsName name)
    (isName : IsName name) :
    ((p.child name).normalised here.path).names.getLast? = some name := by
  have letters : name.toList ≠ [] := by simpa using isName.1
  have last : (p.child name).text.toList.getLast? = some (name.toList.getLast letters) := by
    rw [text_child isName, List.getLast?_eq_some_getLast letters]
  have notEmpty : (p.child name).text.isEmpty = false := by
    by_contra empty
    simp only [Bool.not_eq_false, String.isEmpty_iff] at empty
    rw [empty] at last
    cases last
  have noSlash : ((p.child name).text.toList.getLast? == some '/') = false := by
    rw [last]
    have other : name.toList.getLast letters ≠ '/' := by
      intro slash
      exact isName.2.2.2 (slash ▸ List.getLast_mem letters)
    simpa using other
  obtain ⟨-, names, -⟩ := steps_normalised proper notEmpty noSlash
  have steps : (p.child name).steps = p.steps ++ [name] := by
    simp [Path.steps, names_child isName, isName.2.1]
  rw [names, fromRoot, steps]
  split
  · simp
  · rw [← List.append_assoc]
    simp

end Path

namespace Invocation

/-- Whether a compile has not refused its source as malformed. -/
def WellFormed : Invocation → Prop
  | finished result => ∀ cause, result ≠ .error (.malformed cause)
  | _ => True

theorem wellFormed_proceed {r : FileTree × Option FileFault} {next i : Invocation}
    {files : FileTree} (wellFormed : next.WellFormed) (proceeds : proceed r next = (files, i)) :
    i.WellFormed := by
  unfold proceed at proceeds
  split at proceeds <;> cases proceeds
  · exact wellFormed
  · simp [WellFormed]

theorem wellFormed_step {site : CompileSite} {files after : FileTree} {i i' : Invocation}
    (wellFormed : i.WellFormed) (steps : i.step site files = (after, i')) : i'.WellFormed := by
  cases i with
  | writeSource unit text =>
    have next : (clearOutput unit).WellFormed := trivial
    exact wellFormed_proceed next steps
  | clearOutput unit =>
    have next : (callCompiler unit).WellFormed := trivial
    exact wellFormed_proceed next steps
  | callCompiler unit =>
    cases steps
    trivial
  | inspect unit answer =>
    cases steps
    simp only [WellFormed, verdict]
    split
    · simp
    · split <;> simp
  | finished result =>
    cases steps
    exact wellFormed

/-- A compile that starts well ends without refusing its source as malformed. -/
theorem wellFormed_advance (site : CompileSite) {n : Nat} {files : FileTree} {i : Invocation}
    (enough : i.rank ≤ n) (done : List CompileJob) (wellFormed : i.WellFormed)
    (cause : MalformedSource) :
    (advance site n files i enough done).result ≠ .error (.malformed cause) := by
  induction n generalizing files i done with
  | zero =>
    cases i <;> simp [rank] at enough
    exact wellFormed cause
  | succ n ih =>
    by_cases ended : ∃ result, i = finished result
    · obtain ⟨result, rfl⟩ := ended
      exact wellFormed cause
    · rw [advance]
      · exact ih _ _ (wellFormed_step wellFormed Prod.mk.eta.symm)
      · exact fun result _ equal _ => ended ⟨result, equal⟩

/-- The compile of an accepted source does not refuse it as malformed. -/
theorem run_wellFormed (site : CompileSite) (files : FileTree) {source : GeneratedSource}
    {unit : SourceUnit} (accepted : source.unit = .ok unit) (cause : MalformedSource) :
    (run site files (start source.text unit.package unit.typeName)).result ≠
      .error (.malformed cause) := by
  have wellFormed : (writeSource unit source.text).WellFormed := trivial
  rw [GeneratedSource.start_of_unit accepted]
  exact wellFormed_advance site (Nat.le_refl _) [] wellFormed cause

end Invocation

namespace Request

/-- Whether a request is over or has called the compiler, and did not fail in another way. -/
def Answered : Request → Prop
  | invoking (.inspect ..) | recordMiss _ | store _ | finished (.ok _) => True
  | finished (.error failure) => failure.isLate = true
  | _ => False

end Request

namespace Workshop

variable {w : Workshop} {b b' : Bench} {model : Path} {r r' : Request}

theorem answered_step (answered : r.Answered) (steps : w.step b model r = (b', r')) :
    r'.Answered := by
  cases r with
  | invoking progress =>
    cases progress with
    | inspect unit answer =>
      obtain ⟨after, next, outcome⟩ := w.step_inspect b model unit answer
      cases next.symm.trans steps
      rcases outcome with ⟨-, -, rfl⟩ | ⟨-, diagnostic, rfl⟩ <;> trivial
    | _ => cases answered
  | recordMiss diagnostic =>
    obtain ⟨failure, next, outcome⟩ := w.step_recordMiss b model diagnostic
    cases next.symm.trans steps
    rcases outcome with rfl | ⟨fault, rfl⟩ <;> rfl
  | store built =>
    obtain ⟨result, next, outcome⟩ := w.step_store b model built
    cases next.symm.trans steps
    rcases outcome with rfl | ⟨fault, rfl⟩
    · trivial
    · rfl
  | finished result =>
    cases steps
    exact answered
  | lookup | generate | claim => cases answered

theorem answered_after (n : Nat) (answered : r.Answered) :
    (w.after model n (b, r)).2.Answered := by
  induction n generalizing b r with
  | zero => exact answered
  | succ n ih => exact ih (answered_step answered Prod.mk.eta.symm)

/-- A request that calls the compiler goes on to an answer of the compiler or of the cache. -/
theorem answered_of_calls {n : Nat} {text : String}
    (calls : w.compilations model n b text r ≠ []) : (w.after model n (b, r)).2.Answered := by
  induction n generalizing b r text with
  | zero => exact absurd rfl calls
  | succ n ih =>
    by_cases later : w.compilations model n (w.step b model r).1 (r.written?.getD text)
        (w.step b model r).2 = []
    · rw [compilations, later, List.append_nil] at calls
      cases r with
      | invoking progress =>
        cases progress with
        | callCompiler unit => exact answered_after n trivial
        | _ => exact absurd rfl calls
      | _ => exact absurd rfl calls
    · exact ih later

/-- A request that fails in another way than by the compiler or the cache has called no compiler. -/
theorem jobs_of_early {force : Bool} {failure : BuildFailure}
    (failed : (w.ensure b model force).result = .error failure) (early : failure.isLate = false) :
    (w.ensure b model force).jobs = [] := by
  rw [w.jobs_ensure]
  by_contra called
  have calls : w.compilations model (Request.start force).rank b "" (Request.start force) ≠ [] := by
    intro none
    exact called (by simp [Workshop.calls, none])
  have answered := answered_of_calls calls
  rw [w.after_eq_ensure, failed] at answered
  exact absurd answered (by simp [Request.Answered, early])

end Workshop

namespace Grounds

/-- Whether the cache is as it was, and files have changed at the places of sources alone. -/
structure Kept (g : Grounds) (b b' : Bench) : Prop where
  cache : b'.cache = b.cache
  directories : KeepsDirectories b.files b'.files
  files : ∀ l, (∀ u : SourceUnit, u.Declared →
    l ≠ (g.layout.sourceFile u.package u.typeName).location g.here) → GrowsAt b.files b'.files l

/-- What is known of a request that has not called the compiler, or failed before. -/
def Early (g : Grounds) (b₀ b : Bench) : Request → Prop
  | .generate => g.Kept b₀ b
  | .claim text unit => g.Kept b₀ b ∧ ∃ source : GeneratedSource, source.text = text ∧
      source.unit = .ok unit
  | .invoking (.writeSource unit _) | .invoking (.clearOutput unit) => g.Kept b₀ b ∧ unit.Declared
  | .finished (.error failure) => failure.isLate = false → g.Kept b₀ b
  | .lookup | .invoking (.finished _) => False
  | _ => True

variable {g : Grounds} {w : Workshop} {model : Path} {b b₀ b' : Bench} {c : Cache}
  {environment : String} {files : FileTree} {r r' : Request}

theorem Kept.refl (g : Grounds) (b : Bench) : g.Kept b b := ⟨rfl, .refl _, fun _ _ => .inl rfl⟩

theorem Kept.trans {b'' : Bench} (first : g.Kept b b') (second : g.Kept b' b'') : g.Kept b b'' where
  cache := second.cache.trans first.cache
  directories := first.directories.trans second.directories
  files l apart := (first.files l apart).trans (second.files l apart)

/-- Clearing the place of an executable changes no file if it is refused. -/
theorem grows_of_placing_discard {t : FileTree} {here : Location} {path : Path}
    (refused : (Effect.performAll t here (Invocation.placing path (.discard path))).2 ≠ none) :
    FileTree.Grows t (Effect.performAll t here (Invocation.placing path (.discard path))).1 := by
  have grows := Cache.grows_of_makeDirs path.parent?.toList t here
  unfold Invocation.placing at refused ⊢
  rw [Effect.performAll_append] at refused ⊢
  rcases made : Effect.performAll t here (path.parent?.toList.map .makeDirs) with ⟨middle, _ | fault⟩
  · rw [made] at refused grows
    simp only [Effect.performAll] at refused ⊢
    rcases performed : (Effect.discard path).perform middle here with ⟨after, _ | cause⟩
    · exact absurd (by rw [performed]) refused
    · have same : after = middle := by
        have unchanged := @Effect.perform_discard_refused middle here path (by simp [performed])
        rwa [performed] at unchanged
      rw [same]
      exact grows
  · rw [made] at grows
    exact grows

theorem early_generate (orderly : g.Orderly w) (early : g.Early b₀ b .generate)
    (steps : w.step b model .generate = (b', r')) : g.Early b₀ b' r' := by
  have silent := orderly.generatorSilent b.files model
  have kept : g.Kept b₀ ⟨(w.generator b.files model).1, b.cache⟩ :=
    Kept.trans early ⟨rfl, fun l directory => (silent l).trans directory, fun l _ => .inl (silent l)⟩
  simp only [Workshop.step, Workshop.produce] at steps
  cases made : (w.generator b.files model).2 with
  | error failure =>
    simp only [made] at steps
    cases steps
    exact fun _ => kept
  | ok source =>
    cases accepted : source.unit with
    | error cause =>
      simp only [made, accepted] at steps
      cases steps
      exact fun _ => kept
    | ok unit =>
      simp only [made, accepted] at steps
      cases steps
      exact ⟨kept, source, rfl, accepted⟩

theorem early_claim {text : String} {unit : SourceUnit} (early : g.Early b₀ b (.claim text unit))
    (steps : w.step b model (.claim text unit) = (b', r')) : g.Early b₀ b' r' := by
  obtain ⟨kept, source, rfl, accepted⟩ := early
  cases owner : w.owner? b.cache model unit with
  | some d =>
    simp only [Workshop.step, Workshop.checkOwner, owner] at steps
    cases steps
    exact fun _ => kept
  | none =>
    rw [Workshop.claim_of_unowned owner, GeneratedSource.start_of_unit accepted] at steps
    cases steps
    exact ⟨kept, _, GeneratedSource.parse_of_unit accepted⟩

theorem early_writeSource (orderly : g.Orderly w) {unit : SourceUnit} {text : String}
    (early : g.Early b₀ b (.invoking (.writeSource unit text)))
    (steps : w.step b model (.invoking (.writeSource unit text)) = (b', r')) :
    g.Early b₀ b' r' := by
  obtain ⟨kept, declared⟩ := early
  obtain ⟨after, next, outcome⟩ := w.step_writeSource b model unit text
  rw [orderly.here, job_source orderly] at next
  cases next.symm.trans steps
  set path := g.layout.sourceFile unit.package unit.typeName
  set written := Effect.performAll b.files g.here
    (Invocation.placing path (.write path (Bytes.ofString text)))
  obtain ⟨directories, grows⟩ := @placing_change g path (.write path (Bytes.ofString text)) rfl b.files
  have kept' : g.Kept b₀ ⟨written.1, b.cache⟩ :=
    kept.trans ⟨rfl, directories, fun l apart => grows l (apart unit declared)⟩
  rcases outcome with ⟨-, rfl⟩ | ⟨fault, -, rfl⟩
  · exact ⟨kept', declared⟩
  · exact fun _ => kept'

theorem early_clearOutput {unit : SourceUnit} (early : g.Early b₀ b (.invoking (.clearOutput unit)))
    (steps : w.step b model (.invoking (.clearOutput unit)) = (b', r')) : g.Early b₀ b' r' := by
  obtain ⟨kept, declared⟩ := early
  obtain ⟨after, next, outcome⟩ := w.step_clearOutput b model unit
  cases next.symm.trans steps
  rcases outcome with ⟨-, rfl⟩ | ⟨fault, refused, rfl⟩
  · trivial
  · have grows := grows_of_placing_discard (by rw [refused]; simp)
    exact fun _ => kept.trans ⟨rfl, grows.keepsDirectories, fun l _ => grows l⟩

/-- Every stage keeps what is known of a request before it calls the compiler. -/
theorem early_step (orderly : g.Orderly w) (early : g.Early b₀ b r)
    (steps : w.step b model r = (b', r')) : g.Early b₀ b' r' := by
  cases r with
  | lookup => exact early.elim
  | generate => exact early_generate orderly early steps
  | claim text unit => exact early_claim early steps
  | invoking progress =>
    cases progress with
    | writeSource unit text => exact early_writeSource orderly early steps
    | clearOutput unit => exact early_clearOutput early steps
    | callCompiler unit =>
      cases steps
      trivial
    | inspect unit answer =>
      obtain ⟨after, next, outcome⟩ := w.step_inspect b model unit answer
      cases next.symm.trans steps
      rcases outcome with ⟨-, -, rfl⟩ | ⟨-, diagnostic, rfl⟩ <;> trivial
    | finished result => exact early.elim
  | recordMiss diagnostic =>
    obtain ⟨failure, next, outcome⟩ := w.step_recordMiss b model diagnostic
    cases next.symm.trans steps
    rcases outcome with rfl | ⟨fault, rfl⟩ <;> exact fun early => by cases early
  | store built =>
    obtain ⟨result, next, outcome⟩ := w.step_store b model built
    cases next.symm.trans steps
    rcases outcome with rfl | ⟨fault, rfl⟩
    · trivial
    · exact fun early => by cases early
  | finished result =>
    cases steps
    exact early

theorem early_after (orderly : g.Orderly w) {n : Nat} (early : g.Early b₀ b r)
    (ends : w.after model n (b, r) = (b', r')) : g.Early b₀ b' r' := by
  induction n generalizing b r with
  | zero =>
    cases ends
    exact early
  | succ n ih => exact ih (early_step orderly early Prod.mk.eta.symm) ends

/-- The bench from which a request goes on if the cache does not answer it. -/
def entered (w : Workshop) (b : Bench) (model : Path) (force : Bool) : Bench :=
  if force then b else w.refreshed b model

/-- A request that fails before it calls the compiler keeps the cache as the lookup left it, and
changes files at the place of a source alone. -/
theorem kept_of_early (orderly : g.Orderly w) {force : Bool} {failure : BuildFailure}
    (failed : (w.ensure b model force).result = .error failure) (isEarly : failure.isLate = false) :
    g.Kept (entered w b model force) (w.ensure b model force).bench := by
  have ended := w.after_eq_ensure b model force
  rw [failed] at ended
  cases force with
  | true =>
    have start : g.Early b b (Request.start true) := Kept.refl g b
    exact early_after orderly start ended isEarly
  | false =>
    by_cases unanswered : ∀ d, b.cache.entry? w.here model = some d →
        Cache.outdated w.digest b.files w.here d = true
    · have next := Workshop.lookup_of_unanswered unanswered
      rw [show (Request.start false).rank = 9 + 1 from rfl, Request.start, if_neg (by simp),
        w.after_of_step next] at ended
      refine early_after orderly ?_ ended isEarly
      split
      · exact fun _ => .refl g _
      · exact .refl g _
    · push Not at unanswered
      obtain ⟨d, found, current⟩ := unanswered
      rw [w.ensure_of_step
        (Workshop.lookup_of_current found (by simpa using current))] at failed
      cases failed

/-- The executable of a stale entry that was there is discarded, and does not come back when the
index is saved. -/
theorem gone_of_refreshed (orderly : g.Orderly w)
    (obeys : g.Obeys g.ownership environment b.files b.cache)
    (temporaryApart : g.layout.Apart g.here (g.layout.temporary.location g.here)) {d : Descriptor}
    (found : b.cache.entry? g.here model = some d)
    (stale : Cache.outdated w.digest b.files g.here d = true)
    (wasFile : b.files.isFile g.here d.artifact = true) :
    GrowsAt (b.files.erase (d.artifact.location g.here)) (w.refreshed b model).files
      (d.artifact.location g.here) := by
  have owned : g.Owned b.cache.entries b.cache.misses := obeys.records
  obtain ⟨u, declared, isPlace, artifact⟩ := owned.place_of_mem (Cache.mem_of_found found).1
  have isName := declared.words.2.isName
  have discarded := FileTree.discard_of_isFile wasFile
    (by rw [artifact]; exact Path.last_normalised_child g.proper isName) ⟨isName.2.1, isName.2.2.1⟩
  rw [Workshop.refreshed_of_outdated (by rwa [orderly.here]) (by rwa [orderly.here]), orderly.here]
  simp only [Cache.swept, List.map_cons, List.map_nil, List.cons_append, List.nil_append,
    Effect.performAll, discarded]
  obtain ⟨-, grows⟩ := Cache.swept_frame (b.cache.withoutEntry g.here model) g.here []
    (b.files.erase (d.artifact.location g.here))
  have keeps : (b.cache.withoutEntry g.here model).indexPath = g.layout.cacheIndex := obeys.keeps
  rw [Cache.temporary, keeps] at grows
  refine grows _ ?_ ?_ (by simp)
  · rw [isPlace]
    exact Ne.symm (g.indexApart u declared).2
  · rw [isPlace]
    exact Ne.symm (temporaryApart u declared).2

theorem entered_misses (w : Workshop) (b : Bench) (model : Path) (force : Bool) :
    (entered w b model force).cache.misses = b.cache.misses := by
  cases force with
  | true => rfl
  | false =>
    simp only [entered, Bool.false_eq_true, if_false, Workshop.refreshed]
    cases found : b.cache.entry? w.here model with
    | none => rw [Cache.lookup_of_none found]
    | some d =>
      cases outdated : Cache.outdated w.digest b.files w.here d with
      | false => rw [Cache.lookup_of_current found outdated]
      | true =>
        rw [Cache.lookup_of_outdated found outdated]
        rfl

theorem entered_of_current {force : Bool}
    (current : force = true ∨ b.cache.isStale w.digest b.files w.here model = false) :
    entered w b model force = b := by
  cases force with
  | true => rfl
  | false =>
    have notStale : b.cache.isStale w.digest b.files w.here model = false := by simpa using current
    simp only [entered, Bool.false_eq_true, if_false, Workshop.refreshed]
    cases found : b.cache.entry? w.here model with
    | none => rw [Cache.lookup_of_none found]
    | some d =>
      simp only [Cache.isStale, found, Option.map_some, Option.getD_some] at notStale
      rw [Cache.lookup_of_current found notStale]

/-- Files at the places of executables are kept. -/
theorem Kept.grows (kept : g.Kept b b') (owned : g.Owned c.entries c.misses) {d : Descriptor}
    (found : c.entry? g.here model = some d) :
    GrowsAt b.files b'.files (d.artifact.location g.here) := by
  obtain ⟨v, declaredV, isPlace, -⟩ := owned.place_of_mem (Cache.mem_of_found found).1
  refine kept.files _ fun u declared => ?_
  rw [isPlace]
  exact g.place_ne_source declaredV declared

theorem Kept.untouched (kept : g.Kept b b') (owned : g.Owned b.cache.entries b.cache.misses)
    (model : Path) : g.Untouched model b b' where
  entry := by rw [kept.cache]
  miss := by rw [kept.cache]
  executable _ found _ _ := (kept.grows owned found).file_iff
  readable _ found _ readable :=
    FileTree.read_mono kept.directories (kept.grows owned found) readable

/-- What is left of a stale entry after a request that kept what the lookup left. -/
theorem removed_of_kept (orderly : g.Orderly w)
    (obeys : g.Obeys g.ownership environment b.files b.cache)
    (temporaryApart : g.layout.Apart g.here (g.layout.temporary.location g.here))
    (stale : b.cache.isStale w.digest b.files g.here model = true)
    (kept : g.Kept (w.refreshed b model) b') :
    b'.cache.entry? g.here model = none ∧
      ∀ d, b.cache.entry? g.here model = some d → b.files.isFile g.here d.artifact = true →
        b'.files.isFile g.here d.artifact = false := by
  have owned : g.Owned b.cache.entries b.cache.misses := obeys.records
  have outdated : ∀ d, b.cache.entry? g.here model = some d →
      Cache.outdated w.digest b.files g.here d = true := by
    intro d found
    simpa [Cache.isStale, found] using stale
  constructor
  · obtain ⟨d, found⟩ : ∃ d, b.cache.entry? g.here model = some d := by
      cases found : b.cache.entry? g.here model with
      | none => simp [Cache.isStale, found] at stale
      | some d => exact ⟨d, rfl⟩
    rw [kept.cache, Workshop.refreshed_of_outdated (by rwa [orderly.here])
      (by rw [orderly.here]; exact outdated d found), orderly.here]
    exact (Keyed.get?_drop _ _ _ _).trans (if_pos rfl)
  · intro d found wasFile
    have gone := gone_of_refreshed orderly obeys temporaryApart found (outdated d found) wasFile
    have grows := gone.trans (kept.grows owned found)
    by_contra isFile
    rw [Bool.not_eq_false] at isFile
    obtain ⟨e, located, file⟩ := FileTree.locate_of_isFile isFile
    have there := FileTree.locate_get? located
    have notRoot : d.artifact.location g.here ≠ [] := by
      obtain ⟨u, declared, isPlace, -⟩ := owned.place_of_mem (Cache.mem_of_found found).1
      rw [isPlace, g.place_eq declared]
      simp
    rcases grows with same | ⟨-, directory⟩
    · rw [FileTree.get?_erase_self notRoot, there] at same
      cases same
    · rw [there, Option.some.injEq] at directory
      subst directory
      cases file

/-- A request that fails in another way than by the compiler or the cache has not called the
compiler. It leaves all misses and everything of other models as they were. Unforced it removes the
model's own entry, and the executable if there is one, exactly if the entry is stale; otherwise they
are as they were, too. No source that a request accepts is refused by the compile as malformed. -/
theorem harmless_failure {log : List Compilation}
    (temporaryApart : g.layout.Apart g.here (g.layout.temporary.location g.here))
    (history : g.History g.Orderly (fun _ _ => True) files (some (w, c)) log) (model : Path)
    (force : Bool) {failure : BuildFailure}
    (failed : (w.ensure ⟨files, c⟩ model force).result = .error failure)
    (early : failure.isLate = false) :
    let b' := (w.ensure ⟨files, c⟩ model force).bench
    let stale := c.isStale w.digest files g.here model
    (w.ensure ⟨files, c⟩ model force).jobs = [] ∧ b'.cache.misses = c.misses ∧
      (∀ neighbour, Cache.key g.here neighbour ≠ Cache.key g.here model →
        g.Untouched neighbour ⟨files, c⟩ b') ∧
      ((force = true ∨ stale = false) → g.Untouched model ⟨files, c⟩ b') ∧
      (force = false → stale = true → b'.cache.entry? g.here model = none ∧
        ∀ d, c.entry? g.here model = some d → files.isFile g.here d.artifact = true →
          b'.files.isFile g.here d.artifact = false) ∧
      ∀ (source : GeneratedSource) (unit : SourceUnit), source.unit = .ok unit →
        ∀ (now : FileTree) (cause : MalformedSource),
          (Invocation.run w.site now
            (Invocation.start source.text unit.package unit.typeName)).result ≠
              .error (.malformed cause) := by
  intro b' stale
  obtain ⟨orderly, obeys⟩ := (owned_of_history (fun _ => id) history).2 w c rfl
  have owned : g.Owned c.entries c.misses := obeys.records
  have bench : g.Obeys g.ownership c.environment (Bench.mk files c).files (Bench.mk files c).cache :=
    obeys
  have kept : g.Kept (entered w ⟨files, c⟩ model force) b' := kept_of_early orderly failed early
  refine ⟨w.jobs_of_early failed early, ?_, fun neighbour other => ?_, fun current => ?_,
    fun unforced isStale => ?_, fun source unit accepted now cause => ?_⟩
  · rw [kept.cache, entered_misses]
  · exact (spares_ensure orderly bench model force).2.untouched owned temporaryApart other
  · rw [entered_of_current (by rw [orderly.here]; exact current)] at kept
    exact kept.untouched owned model
  · subst unforced
    exact removed_of_kept orderly bench temporaryApart isStale kept
  · exact Invocation.run_wellFormed w.site now accepted cause

end Grounds

namespace Rehearsal

/-- The built model is replaced by one from which nothing can be generated. -/
def spoilt : Bench :=
  ⟨built.bench.files.insert ["tmp", "job", "m"] (.file (Bytes.ofString "ungeneratable") .plain),
    built.bench.cache⟩

theorem spoilt_reads :
    spoilt.cache.isStale pipeline.digest spoilt.files ["tmp", "job"] ⟨"m"⟩ = true ∧
      spoilt.cache.entry? ["tmp", "job"] ⟨"m"⟩ = some entry ∧
      spoilt.files.isFile ["tmp", "job"] entry.artifact = true ∧
      error? (pipeline.ensure spoilt ⟨"m"⟩ false).result =
        some (.generation ⟨⟨"m"⟩, "ungeneratable"⟩) := by
  decide +kernel

/-- An unforced request that fails to generate a source removes the stale entry of its model and the
executable, and calls no compiler. -/
theorem harmless_failure_rehearsed :
    (pipeline.ensure spoilt ⟨"m"⟩ false).jobs = [] ∧
      (pipeline.ensure spoilt ⟨"m"⟩ false).bench.cache.misses = spoilt.cache.misses ∧
      (pipeline.ensure spoilt ⟨"m"⟩ false).bench.cache.entry? project.here ⟨"m"⟩ = none ∧
      spoilt.files.isFile project.here entry.artifact = true ∧
      (pipeline.ensure spoilt ⟨"m"⟩ false).bench.files.isFile project.here entry.artifact = false := by
  obtain ⟨stale, found, wasFile, answer⟩ := spoilt_reads
  have failed : (pipeline.ensure spoilt ⟨"m"⟩ false).result =
      .error (.generation ⟨⟨"m"⟩, "ungeneratable"⟩) := error_of_error? answer
  have opening : project.History project.Orderly (fun _ _ => True) fresh
      (some (pipeline, unused)) [] := history_fresh (orderly [1])
  have history := @Grounds.History.ensured _ _ _ _ _ _ _ ⟨"m"⟩ opening trivial false
  have edited : project.History project.Orderly (fun _ _ => True) spoilt.files
      (some (pipeline, spoilt.cache)) _ := history.edited (leaves_model _ _)
  obtain ⟨jobs, misses, -, -, removed, -⟩ :=
    Grounds.harmless_failure temporaryApart_project edited ⟨"m"⟩ false failed rfl
  obtain ⟨gone, deleted⟩ := removed rfl stale
  exact ⟨jobs, misses, gone, wasFile, deleted entry found wasFile⟩

end Rehearsal
end SimWorkbench
