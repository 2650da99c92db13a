import SimWorkbench.Proofs.Cache.Fingerprint
import SimWorkbench.Proofs.Cache.Ledger
import SimWorkbench.Proofs.Cache.Outcome

/-!
# What makes a record out of date

The input of the digest is the same exactly if the contents that can be read are the same, in their
order. A record that was made while all its files could be read is therefore out of date exactly if
one of them cannot be read any more or holds something else, as far as the digest tells its inputs
apart.
-/
namespace SimWorkbench

namespace Fingerprint

variable {digest : Digest} {as bs : List (Option Bytes)}

theorem stream_eq_iff_contents (fitsA : ∀ a, some a ∈ as → Fits a)
    (fitsB : ∀ b, some b ∈ bs → Fits b) :
    stream as = stream bs ↔ as.filterMap id = bs.filterMap id := by
  constructor
  · exact stream_injective fitsA fitsB
  · intro same
    rw [stream, stream, same]

/-- Whether the digest tells two readings apart: it does not take their streams for one another, and
each content fits into its frame. -/
structure Comparable (digest : Digest) (as bs : List (Option Bytes)) : Prop where
  uncollided : digest (stream as) = digest (stream bs) → stream as = stream bs
  fitsA : ∀ a, some a ∈ as → Fits a
  fitsB : ∀ b, some b ∈ bs → Fits b

theorem Comparable.ofReadings_eq_iff (comparable : Comparable digest as bs) :
    ofReadings digest as = ofReadings digest bs ↔ as.filterMap id = bs.filterMap id := by
  rw [← stream_eq_iff_contents comparable.fitsA comparable.fitsB]
  constructor
  · intro same
    exact comparable.uncollided (congrArg hex same)
  · intro same
    rw [ofReadings, ofReadings, same]

/-- As many contents as readings are there only if every reading gave one. -/
theorem filterMap_id_eq_iff {readings : List (Option Bytes)} {contents : List Bytes}
    (length : readings.length = contents.length) :
    contents = readings.filterMap id ↔ readings = contents.map some := by
  constructor
  · intro all
    subst all
    induction readings with
    | nil => rfl
    | cons reading readings ih =>
      cases reading with
      | none =>
        have fewer := List.length_filterMap_le id readings
        rw [List.filterMap_cons_none rfl, List.length_cons] at length
        omega
      | some content =>
        have whole : (some content :: readings).filterMap id = content :: readings.filterMap id :=
          List.filterMap_cons_some rfl
        rw [whole, List.length_cons, List.length_cons, Nat.add_right_cancel_iff] at length
        rw [whole, List.map_cons, ← ih length]
  · intro all
    rw [all, List.filterMap_map, Function.id_comp, List.filterMap_some]

/-- Where all files could be read, their fingerprint is found again exactly if all can be read now
and hold what they held. -/
theorem now_eq_iff {past later : FileTree} {here here' : Location} {paths paths' : List Path}
    {contents : List Bytes} (asMany : paths'.length = paths.length)
    (had : readings past here paths = contents.map some)
    (comparable : Comparable digest (readings past here paths) (readings later here' paths')) :
    now digest past here paths = now digest later here' paths' ↔
      readings later here' paths' = contents.map some := by
  have all : (contents.map some).filterMap id = contents := by
    rw [List.filterMap_map, Function.id_comp, List.filterMap_some]
  have length : (readings later here' paths').length = contents.length := by
    have same := congrArg List.length had
    simp only [readings, List.length_map] at same ⊢
    exact asMany.trans same
  rw [now, now, comparable.ofReadings_eq_iff, had, all]
  exact filterMap_id_eq_iff length

theorem Comparable.of_fitting {past later : FileTree} {here here' : Location} {paths paths' : List Path}
    (uncollided : digest (stream (readings past here paths)) =
        digest (stream (readings later here' paths')) →
      stream (readings past here paths) = stream (readings later here' paths'))
    (didFit : Fitting past here paths) (fits : Fitting later here' paths') :
    Comparable digest (readings past here paths) (readings later here' paths') where
  uncollided := uncollided
  fitsA := fun a member => didFit (some a) member a rfl
  fitsB := fun b member => fits (some b) member b rfl

theorem toOption_eq_some_iff {reading : Except OsError Bytes} {content : Bytes} :
    reading.toOption = some content ↔ reading = .ok content := by
  cases reading <;> simp [Except.toOption]

theorem readings_pair {files : FileTree} {here : Location} {p q : Path} {content executable : Bytes} :
    readings files here [p, q] = [content, executable].map some ↔
      files.read here p = .ok content ∧ files.read here q = .ok executable := by
  simp only [readings, List.map_cons, List.map_nil, List.cons.injEq, and_true, toOption_eq_some_iff]

theorem readings_single {files : FileTree} {here : Location} {p : Path} {content : Bytes} :
    readings files here [p] = [content].map some ↔ files.read here p = .ok content := by
  simp only [readings, List.map_cons, List.map_nil, List.cons.injEq, and_true, toOption_eq_some_iff]

end Fingerprint

namespace Cache

open Fingerprint (Fits Comparable readings)

variable {digest : Digest} {past later : FileTree} {here here' : Location} {c₀ c : Cache}
  {source artifact model : Path} {package : String} {d : Descriptor} {m : Miss}
  {content executable : Bytes}

/-- What a cache knows of a source when an executable was stored for it, even if the index was not
saved. -/
theorem entry?_store (c : Cache) (digest : Digest) (files : FileTree) (here : Location)
    (source artifact : Path) (package : String) :
    (c.store digest files here source artifact package).cache.entry? here source =
      some (entryOf digest files here source artifact package) := by
  obtain ⟨-, isCache, -⟩ := store_outcome c digest files here source artifact package
  rw [isCache]
  exact entry?_stored c digest files here source artifact package

/-- What a cache knows of a source when it was found not to compile. -/
theorem miss?_recordMiss (c : Cache) (digest : Digest) (files : FileTree) (here : Location)
    (source : Path) :
    (c.recordMiss digest files here source).cache.miss? here source =
      some (missOf digest files here source) := by
  obtain ⟨-, isCache, -⟩ := recordMiss_outcome c digest files here source
  rw [isCache]
  exact (Keyed.get?_put Miss.key _ _ _).trans (if_pos rfl)

theorem taken_of_stored
    (stored : (c₀.store digest past here source artifact package).cache.entry? here source = some d) :
    d.fingerprint = Fingerprint.now digest past here [d.source, d.artifact] := by
  rw [entry?_store, Option.some.injEq] at stored
  rw [← stored]
  rfl

theorem taken_of_recorded
    (recorded : (c₀.recordMiss digest past here source).cache.miss? here source = some m) :
    m.fingerprint = Fingerprint.now digest past here [m.source] := by
  rw [miss?_recordMiss, Option.some.injEq] at recorded
  rw [← recorded]
  rfl

/-- An entry whose fingerprint was taken with both files readable is out of date exactly if one of them
is not what it was. -/
theorem outdated_iff_changed
    (taken : d.fingerprint = Fingerprint.now digest past here [d.source, d.artifact])
    (hadSource : past.read here d.source = .ok content)
    (hadArtifact : past.read here d.artifact = .ok executable)
    (comparable : Comparable digest (readings past here [d.source, d.artifact])
      (readings later here' [d.source, d.artifact])) :
    outdated digest later here' d = true ↔
      later.read here' d.source ≠ .ok content ∨ later.read here' d.artifact ≠ .ok executable := by
  have had : readings past here [d.source, d.artifact] = [content, executable].map some :=
    Fingerprint.readings_pair.mpr ⟨hadSource, hadArtifact⟩
  have same := (Fingerprint.now_eq_iff rfl had comparable).trans Fingerprint.readings_pair
  rw [outdated, taken, decide_eq_true_eq, ne_eq, eq_comm, same, not_and_or]

/-- A miss whose fingerprint was taken with the source readable holds exactly as long as the source is
what it was. -/
theorem isMiss_iff_unchanged
    (taken : m.fingerprint = Fingerprint.now digest past here [m.source])
    (had : past.read here m.source = .ok content) (known : c.miss? here' model = some m)
    (comparable : Comparable digest (readings past here [m.source])
      (readings later here' [model.normalised here'.path])) :
    c.isMiss digest later here' model = true ↔
      later.read here' (model.normalised here'.path) = .ok content := by
  have asMany : [model.normalised here'.path].length = [m.source].length := rfl
  have same := Fingerprint.now_eq_iff asMany (Fingerprint.readings_single.mpr had) comparable
  simp only [isMiss, known, taken, decide_eq_true_eq]
  exact same.trans Fingerprint.readings_single

theorem isStale_of_known (known : c.entry? here model = some d) (files : FileTree) :
    c.isStale digest files here model = outdated digest files here d := by
  rw [isStale, known]
  rfl

theorem lookup_answer_iff (known : c.entry? here model = some d) (files : FileTree) :
    (c.lookup digest files here model).answer = some d ↔ outdated digest files here d = false := by
  cases stale : outdated digest files here d with
  | false => simp [lookup_of_current known stale]
  | true => simp [lookup_of_outdated known stale]

/-- Two lists of readings give the digest the same input exactly if the same contents could be read,
in the same order. So wherever the digest tells the inputs apart: an entry that was stored with both
files readable is out of date, in whatever cache still knows it, exactly if one of the files is not
what it was, and only then it is not found; and a recorded miss of a readable source holds exactly
as long as the source is what it was. -/
theorem staleness_of_contents :
    (∀ as bs : List (Option Bytes), (∀ a, some a ∈ as → Fits a) → (∀ b, some b ∈ bs → Fits b) →
      (Fingerprint.stream as = Fingerprint.stream bs ↔ as.filterMap id = bs.filterMap id)) ∧
    (∀ (digest : Digest) (past later : FileTree) (here here' : Location) (c₀ c : Cache)
      (source artifact model : Path) (package : String) (d : Descriptor) (content executable : Bytes),
      (c₀.store digest past here source artifact package).cache.entry? here source = some d →
      past.read here d.source = .ok content → past.read here d.artifact = .ok executable →
      c.entry? here' model = some d →
      Comparable digest (readings past here [d.source, d.artifact])
        (readings later here' [d.source, d.artifact]) →
      (c.isStale digest later here' model = true ↔
        later.read here' d.source ≠ .ok content ∨ later.read here' d.artifact ≠ .ok executable) ∧
      ((c.lookup digest later here' model).answer = some d ↔
        later.read here' d.source = .ok content ∧ later.read here' d.artifact = .ok executable)) ∧
    ∀ (digest : Digest) (past later : FileTree) (here here' : Location) (c₀ c : Cache)
      (source model : Path) (m : Miss) (content : Bytes),
      (c₀.recordMiss digest past here source).cache.miss? here source = some m →
      past.read here m.source = .ok content → c.miss? here' model = some m →
      Comparable digest (readings past here [m.source])
        (readings later here' [model.normalised here'.path]) →
      (c.isMiss digest later here' model = true ↔
        later.read here' (model.normalised here'.path) = .ok content) := by
  refine ⟨fun as bs => Fingerprint.stream_eq_iff_contents, ?_, ?_⟩
  · intro digest past later here here' c₀ c source artifact model package d content executable
      stored hadSource hadArtifact known comparable
    have changed := outdated_iff_changed (taken_of_stored stored) hadSource hadArtifact comparable
    constructor
    · rw [isStale_of_known known]
      exact changed
    · rw [lookup_answer_iff known, ← Bool.not_eq_true, changed, not_or, not_not, not_not]
  · intro digest past later here here' c₀ c source model m content recorded had known comparable
    exact isMiss_iff_unchanged (taken_of_recorded recorded) had known comparable

/-- A cache that knows an executable and then that the model did not compile, as `stocked` has
them. -/
def stockedBoth : Cache :=
  (stockedStore.cache.recordMiss Bytes.toHex stocked [] ⟨"/m.xml"⟩).cache

/-- When the executable is replaced by other bytes, the entry is out of date and not found, and the
miss still holds. -/
theorem staleness_of_contents_edited :
    stocked.read [] ⟨"/m.xml"⟩ = .ok [1] ∧ stocked.read [] ⟨"/a"⟩ = .ok [2] ∧
    stockedBoth.isStale Bytes.toHex stockedEdit [] ⟨"/m.xml"⟩ = true ∧
    (stockedBoth.lookup Bytes.toHex stockedEdit [] ⟨"/m.xml"⟩).answer ≠
      some (entryOf Bytes.toHex stocked [] ⟨"/m.xml"⟩ ⟨"/a"⟩ "p") ∧
    stockedBoth.isMiss Bytes.toHex stockedEdit [] ⟨"/m.xml"⟩ = true := by
  have hadSource : stocked.read [] ⟨"/m.xml"⟩ = .ok [1] := by decide +kernel
  have hadArtifact : stocked.read [] ⟨"/a"⟩ = .ok [2] := by decide +kernel
  have edited : stockedEdit.read [] ⟨"/a"⟩ ≠ .ok [2] := by decide +kernel
  obtain ⟨-, entries, misses⟩ := staleness_of_contents
  obtain ⟨stale, found⟩ := entries Bytes.toHex stocked stockedEdit [] [] ⟨⟨"/i"⟩, "x", [], []⟩
    stockedBoth ⟨"/m.xml"⟩ ⟨"/a"⟩ ⟨"/m.xml"⟩ "p"
    (entryOf Bytes.toHex stocked [] ⟨"/m.xml"⟩ ⟨"/a"⟩ "p") [1] [2] (entry?_store ..)
    hadSource hadArtifact (by decide +kernel)
    (.of_fitting (by decide +kernel) (by decide +kernel) (by decide +kernel))
  refine ⟨hadSource, hadArtifact, stale.mpr (.inr edited), ?_, ?_⟩
  · intro same
    exact edited (found.mp same).2
  · apply (misses Bytes.toHex stocked stockedEdit [] [] stockedStore.cache stockedBoth ⟨"/m.xml"⟩
      ⟨"/m.xml"⟩ (missOf Bytes.toHex stocked [] ⟨"/m.xml"⟩) [1] (miss?_recordMiss ..) hadSource
      (by decide +kernel)
      (.of_fitting (by decide +kernel) (by decide +kernel) (by decide +kernel))).mpr
    decide +kernel

end Cache
end SimWorkbench
