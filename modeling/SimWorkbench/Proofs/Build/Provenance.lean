import SimWorkbench.Proofs.Build.History
import SimWorkbench.Proofs.Cache.Fingerprint

/-!
# Where the records of the cache come from

Every entry, in memory and in the index, was stored right after a call of the compiler in the
environment of the entry, for the text that belongs to the bytes the model had then, and its
fingerprint was taken over the model and the executable as they were then. Every miss was recorded
in the same way after a call that built nothing.
-/
namespace SimWorkbench

namespace Premises

/-- Whether a text is the source that belongs to the bytes of a model. -/
def Makes (s : Premises) (bytes : Bytes) (text : String) : Prop :=
  ∃ source, s.generated bytes = some source ∧ text = source.text

/-- Whether a file holds a text, unless it is a device. -/
def Wrote (s : Premises) (files : FileTree) (path : Path) (text : String) : Prop :=
  (∀ d, files.get? (path.location s.here) ≠ some (.device d)) →
    files.read s.here path = .ok (Bytes.ofString text)

/-- Whether a call of the compiler was made for the source that belongs to the bytes of a model. -/
structure From (s : Premises) (k : Compilation) (environment : String) (bytes : Bytes) : Prop where
  environment : k.environment = environment
  generated : s.Makes bytes k.text
  written : s.Wrote k.before k.job.source k.text

/-- Whether an entry was stored right after a call of the compiler. -/
structure Supports (s : Premises) (k : Compilation) (environment : String) (d : Descriptor) :
    Prop where
  model : ∃ bytes, k.after.read s.here d.source = .ok bytes ∧ s.From k environment bytes
  artifact : d.artifact = k.job.output.normalised s.here.path
  below : s.layout.classesDir.location s.here <+: d.artifact.location s.here
  produced : k.after.isFile s.here k.job.output = true
  fingerprint : d.fingerprint = Fingerprint.now s.digest k.after s.here [d.source, d.artifact]

/-- Whether an entry was stored right after one of the calls. -/
def Made (s : Premises) (log : List Compilation) (environment : String) (d : Descriptor) : Prop :=
  ∃ k ∈ log, s.Supports k environment d

/-- Whether a miss was recorded right after a call of the compiler that built nothing. -/
structure Explains (s : Premises) (k : Compilation) (environment : String) (m : Miss) : Prop where
  model : ∃ bytes, k.after.read s.here m.source = .ok bytes ∧ s.From k environment bytes
  failed : k.Failed s.here
  fingerprint : m.fingerprint = Fingerprint.now s.digest k.after s.here [m.source]

/-- Whether a miss was recorded right after one of the calls. -/
def Missed (s : Premises) (log : List Compilation) (environment : String) (m : Miss) : Prop :=
  ∃ k ∈ log, s.Explains k environment m

/-- Whether all entries and misses were recorded right after calls of the compiler. -/
structure Recorded (s : Premises) (log : List Compilation) (environment : String)
    (entries : List Descriptor) (misses : List Miss) : Prop where
  entries : ∀ d ∈ entries, s.Made log environment d
  misses : ∀ m ∈ misses, s.Missed log environment m

/-- Whether a cache and its index know such records alone. -/
abbrev Sound (s : Premises) (log : List Compilation) (environment : String) (files : FileTree)
    (c : Cache) : Prop := s.Obeys (s.Recorded log) environment files c

variable {s : Premises} {log more : List Compilation} {environment : String} {files : FileTree}
  {c : Cache} {entries : List Descriptor} {misses : List Miss}

theorem Recorded.append (recorded : s.Recorded log environment entries misses) :
    s.Recorded (log ++ more) environment entries misses := by
  refine ⟨fun d member => ?_, fun m member => ?_⟩
  · obtain ⟨k, isCall, supports⟩ := recorded.entries d member
    exact ⟨k, List.mem_append_left _ isCall, supports⟩
  · obtain ⟨k, isCall, explains⟩ := recorded.misses m member
    exact ⟨k, List.mem_append_left _ isCall, explains⟩

theorem recorded_lasting (s : Premises) (log : List Compilation) :
    Cache.Law.Lasting (s.Recorded log) where
  empty environment := ⟨by simp, by simp⟩
  dropEntry recorded key :=
    ⟨fun d member => recorded.entries d (Keyed.mem_drop.mp member).1, recorded.misses⟩
  dropMiss recorded key :=
    ⟨recorded.entries, fun m member => recorded.misses m (Keyed.mem_drop.mp member).1⟩
  loaded recorded :=
    ⟨fun d member => recorded.entries d (Keyed.mem_ofList member),
      fun m member => recorded.misses m (Keyed.mem_ofList member)⟩

/-- Storing what was made leaves a sound cache. -/
theorem Sound.store (sound : s.Sound log environment files c) {digest : Digest}
    {source artifact : Path} {package : String}
    (made : s.Made log environment (Cache.entryOf digest files s.here source artifact package)) :
    s.Sound log environment (c.store digest files s.here source artifact package).files
      (c.store digest files s.here source artifact package).cache := by
  refine Cache.Obeys.store sound ⟨fun d member => ?_, fun m member => ?_⟩
  · rcases Keyed.mem_put member with rfl | before
    · exact made
    · exact sound.records.entries d before
  · exact sound.records.misses m (Keyed.mem_drop.mp member).1

/-- Recording a miss that a call explains leaves a sound cache. -/
theorem Sound.recordMiss (sound : s.Sound log environment files c) {digest : Digest} {source : Path}
    (missed : s.Missed log environment (Cache.missOf digest files s.here source)) :
    s.Sound log environment (c.recordMiss digest files s.here source).files
      (c.recordMiss digest files s.here source).cache := by
  refine Cache.Obeys.recordMiss sound ⟨sound.records.entries, fun m member => ?_⟩
  rcases Keyed.mem_put member with rfl | before
  · exact missed
  · exact sound.records.misses m before

end Premises
end SimWorkbench
