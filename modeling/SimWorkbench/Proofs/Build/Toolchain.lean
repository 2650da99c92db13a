import SimWorkbench.Build.Compiler
import SimWorkbench.Proofs.Build.Rehearsal
import SimWorkbench.Proofs.Cache.Fingerprint
import SimWorkbench.Proofs.Cache.Opening

/-!
# Which toolchains are told apart

The digest of an environment is taken over what the compiler printed about its version, the edition,
the level, the extra arguments and the classpath, one after the other. Neither the end of the version
nor that of an argument is marked. All else of a toolchain is told apart where it is seen how far the
edition goes, and then the entries of another toolchain are discarded. Of toolchains that differ in
those ends alone, one is served what was built with the other.
-/
namespace SimWorkbench

namespace Bytes

/-- A list is cut where a property ends in one way. -/
theorem cut_injective {holds : UInt8 → Prop} {as bs restA restB : Bytes} {a b : UInt8}
    (insideA : ∀ x ∈ as, holds x) (insideB : ∀ x ∈ bs, holds x) (endA : ¬ holds a)
    (endB : ¬ holds b) (same : as ++ a :: restA = bs ++ b :: restB) :
    as = bs ∧ a = b ∧ restA = restB := by
  induction as generalizing bs with
  | nil =>
    cases bs with
    | nil =>
      simp only [List.nil_append, List.cons.injEq] at same
      exact ⟨rfl, same⟩
    | cons y ys =>
      obtain ⟨rfl, -⟩ := List.cons.inj same
      exact absurd (insideB a (by simp)) endA
  | cons x xs ih =>
    cases bs with
    | nil =>
      obtain ⟨rfl, -⟩ := List.cons.inj same
      exact absurd (insideA x (by simp)) endB
    | cons y ys =>
      obtain ⟨rfl, rest⟩ := List.cons.inj same
      obtain ⟨rfl, sameEnd⟩ := ih (fun z member => insideA z (by simp [member]))
        (fun z member => insideB z (by simp [member])) rest
      exact ⟨rfl, sameEnd⟩

theorem ofString_injective {s t : String} (same : ofString s = ofString t) : s = t := by
  have decoded := congrArg Text.Utf8.toString? same
  simpa only [ofString, Text.Utf8.toString?_ofChars, String.ofList_toList, Option.some.injEq]
    using decoded

end Bytes

/-- The input of the digest after the identity gives the classpath back, one path after another. -/
theorem classpath_injective {a b : Bytes} {ps qs : List Path} (plainA : 0 ∉ a) (plainB : 0 ∉ b)
    (plainPs : ∀ p ∈ ps, 0 ∉ Bytes.ofString p.text) (plainQs : ∀ q ∈ qs, 0 ∉ Bytes.ofString q.text)
    (same : environmentStream a ps = environmentStream b qs) : a = b ∧ ps = qs := by
  induction ps generalizing a b qs with
  | nil =>
    cases qs with
    | nil => simpa [environmentStream] using same
    | cons q qs =>
      refine absurd ?_ plainA
      simp only [environmentStream, List.flatMap_nil, List.append_nil] at same
      simp [same]
  | cons p ps ih =>
    cases qs with
    | nil =>
      refine absurd ?_ plainB
      simp only [environmentStream, List.flatMap_nil, List.append_nil] at same
      simp [← same]
    | cons q qs =>
      simp only [environmentStream, List.flatMap_cons, List.cons_append] at same
      have notZero : ∀ {c : Bytes}, 0 ∉ c → ∀ x ∈ c, x ≠ 0 :=
        fun plain x member isZero => plain (isZero ▸ member)
      obtain ⟨rfl, -, rest⟩ := Bytes.cut_injective (notZero plainA) (notZero plainB) (by simp)
        (by simp) same
      obtain ⟨sameText, rfl⟩ := ih (plainPs p (by simp)) (plainQs q (by simp))
        (fun p' member => plainPs p' (by simp [member]))
        (fun q' member => plainQs q' (by simp [member])) rest
      have samePath : p = q := congrArg Path.mk (Bytes.ofString_injective sameText)
      exact ⟨rfl, by rw [samePath]⟩

/-- What executables are built with. -/
structure Toolchain where
  /-- What the compiler printed about its version. -/
  version : Bytes
  settings : CompilerSettings
  classpath : List Path

namespace Toolchain

/-- The text of the version and the edition behind it. -/
def release (t : Toolchain) : Bytes := t.version ++ Bytes.ofString t.settings.edition

/-- The extra arguments, one behind the other. -/
def arguments (t : Toolchain) : Bytes := t.settings.extraArguments.flatMap Bytes.ofString

/-- What the digest of the environment is taken over. -/
def stream (t : Toolchain) : Bytes := environmentStream (t.version ++ t.settings.bytes) t.classpath

/-- Whether two toolchains differ at most in where the version and where an argument ends. -/
structure Alike (t u : Toolchain) : Prop where
  release : t.release = u.release
  level : t.settings.optLevel = u.settings.optLevel
  arguments : t.arguments = u.arguments
  classpath : t.classpath = u.classpath

/-- Whether no zero byte is in the arguments or in the classpath. -/
structure Plain (t : Toolchain) : Prop where
  arguments : 0 ∉ t.arguments
  classpath : ∀ p ∈ t.classpath, 0 ∉ Bytes.ofString p.text

/-- Whether the level is one that compilers know and the version and the edition hold no control
characters that could be taken for it. -/
structure Usual (t : Toolchain) : Prop where
  level : t.settings.optLevel.toNat ≤ 3
  release : ∀ b ∈ t.release, 3 < b

/-- Whether it is seen in both inputs where the edition ends: the texts up to there have one length,
or both toolchains are usual. -/
def Aligned (t u : Toolchain) : Prop := t.release.length = u.release.length ∨ t.Usual ∧ u.Usual

variable {t u : Toolchain}

theorem stream_eq (t : Toolchain) :
    t.stream = t.release ++ (Bytes.littleEndian 4 t.settings.optLevel.toNat ++
      environmentStream t.arguments t.classpath) := by
  simp only [stream, release, arguments, environmentStream, CompilerSettings.bytes,
    List.append_assoc]

/-- A usual level is a small byte before zeros. -/
theorem Usual.level_bytes (usual : t.Usual) :
    ¬ 3 < UInt8.ofNat t.settings.optLevel.toNat ∧
      Bytes.littleEndian 4 t.settings.optLevel.toNat =
        UInt8.ofNat t.settings.optLevel.toNat :: [0, 0, 0] := by
  have level := usual.level
  have small : t.settings.optLevel.toNat / 256 = 0 := by omega
  constructor
  · rw [UInt8.lt_iff_toNat_lt, UInt8.toNat_ofNat']
    simp only [UInt8.reduceToNat]
    omega
  · simp only [Bytes.littleEndian, small]
    rfl

theorem Aligned.release (aligned : Aligned t u) (same : t.stream = u.stream) :
    t.release = u.release := by
  rw [stream_eq, stream_eq] at same
  rcases aligned with lengths | ⟨usualT, usualU⟩
  · exact (List.append_inj same lengths).1
  · obtain ⟨smallT, bytesT⟩ := usualT.level_bytes
    obtain ⟨smallU, bytesU⟩ := usualU.level_bytes
    rw [bytesT, bytesU, List.cons_append, List.cons_append] at same
    exact (Bytes.cut_injective usualT.release usualU.release smallT smallU same).1

/-- Toolchains have the same digest input exactly if they are alike, where it is seen how far the
edition goes. -/
theorem stream_eq_iff (aligned : Aligned t u) (plainT : t.Plain) (plainU : u.Plain) :
    t.stream = u.stream ↔ t.Alike u := by
  constructor
  · intro same
    have release := aligned.release same
    rw [stream_eq, stream_eq, release, List.append_cancel_left_eq] at same
    obtain ⟨level, rest⟩ := List.append_inj same (by simp [Bytes.length_littleEndian])
    obtain ⟨arguments, classpath⟩ := classpath_injective plainT.arguments plainU.arguments
      plainT.classpath plainU.classpath rest
    refine ⟨release, UInt32.toNat_inj.mp ?_, arguments, classpath⟩
    exact Bytes.littleEndian_injective t.settings.optLevel.toNat_lt u.settings.optLevel.toNat_lt level
  · rintro ⟨release, level, arguments, classpath⟩
    rw [stream_eq, stream_eq, release, level, arguments, classpath]

end Toolchain

/-- What a pipeline opens is what the cache is opened with for the toolchain as it is. -/
theorem Workshop.openBench_toolchain {w : Workshop} {u : Toolchain} {files files' : FileTree}
    {b : Bench}
    (identified : w.site.compiler.identity files = (files', u.version ++ u.settings.bytes))
    (classpath : w.site.classpath = u.classpath) (opened : (w.openBench files).2 = .ok b) :
    (Cache.openAt files' w.here w.site.layout.cacheIndex (w.digest u.stream)).2 = .ok b.cache := by
  have environment : environmentDigest w.digest (u.version ++ u.settings.bytes) w.site.classpath =
      w.digest u.stream := by rw [classpath]; rfl
  simp only [openBench, identified, environment] at opened
  rcases isOpen : Cache.openAt files' w.here w.site.layout.cacheIndex (w.digest u.stream) with
    ⟨after, fault | c⟩
  · rw [isOpen] at opened
    cases opened
  · rw [isOpen] at opened
    cases opened
    rfl

/-- Toolchains that are told apart have different digest inputs, and a pipeline that is opened for one
of them takes over nothing of the index of the other. -/
theorem Workshop.drift_discards (launch : Launcher) {w : Workshop} {t u : Toolchain}
    {files files' : FileTree} {i : Index} {b : Bench}
    (compiler : w.site.compiler = u.settings.compiler launch w.here)
    (identified : (u.settings.compiler launch w.here).identity files =
      (files', u.version ++ u.settings.bytes))
    (classpath : w.site.classpath = u.classpath)
    (recorded : Index.load? files' w.here w.site.layout.cacheIndex = some i)
    (under : i.environment = w.digest t.stream)
    (uncollided : w.digest t.stream = w.digest u.stream → t.stream = u.stream)
    (aligned : t.Aligned u) (plainT : t.Plain) (plainU : u.Plain)
    (opened : (w.openBench files).2 = .ok b) :
    (t.stream = u.stream ↔ t.Alike u) ∧
      (t.Alike u → Cache.TakenOver w.site.layout.cacheIndex i b.cache) ∧
      (¬ t.Alike u → b.cache = ⟨w.site.layout.cacheIndex, w.digest u.stream, [], []⟩) := by
  have streams := Toolchain.stream_eq_iff aligned plainT plainU
  have isOpen := openBench_toolchain (compiler ▸ identified) classpath opened
  have opening := Cache.opening w.here w.site.layout.cacheIndex (w.digest u.stream) files'
  obtain ⟨content, read, describes⟩ := Index.load?_eq_some_iff.mp recorded
  refine ⟨streams, fun alike => ?_, fun unlike => ?_⟩
  · obtain ⟨-, c, isCache, taken⟩ := opening.same content i read describes
      (under.trans (congrArg w.digest (streams.mpr alike)))
    cases isOpen.symm.trans isCache
    exact taken
  · refine (opening.other content i b.cache read describes (fun same => unlike ?_) isOpen).1
    exact streams.mp (uncollided (under.symm.trans same))

namespace Rehearsal

/-- A program that prints a version and compiles nothing. -/
def versioned : Launcher := fun files _ => (files, .ok ⟨.code 0, Bytes.ofString "1", []⟩)

/-- A toolchain of that version with the given arguments. -/
def linking (arguments : List String) : Toolchain :=
  ⟨Bytes.ofString "1", { extraArguments := arguments }, []⟩

/-- A pipeline with that toolchain. -/
def linker (arguments : List String) : Workshop where
  site := ⟨rooted, [], (linking arguments).settings.compiler versioned ["tmp", "job"], ["tmp", "job"]⟩
  generator := generator ["tmp", "job"] none none
  digest := spelledOut

/-- The cache of that pipeline when it has built one executable. -/
def linked (arguments : List String) : Cache :=
  ⟨⟨"/i"⟩, spelledOut (linking arguments).stream,
    [⟨⟨"/tmp/job/m"⟩, ⟨"/c/p/T"⟩, "p", ⟨"00"⟩⟩], []⟩

/-- The files with the index of that cache. -/
def linkedFiles (arguments : List String) : FileTree :=
  ⟨(["i"], .file (Bytes.ofChars (linked arguments).index.write) .plain) :: fresh.entries⟩

theorem load?_linked : Index.load? (linkedFiles ["-la", "-lb"]) ["tmp", "job"] ⟨"/i"⟩ =
    some (linked ["-la", "-lb"]).index :=
  Cache.load?_of_document (c := linked ["-la", "-lb"]) (by decide +kernel)

theorem linked_inOrder (arguments : List String) : (linked arguments).InOrder :=
  ⟨List.pairwise_singleton _ _, .nil⟩

/-- A pipeline opens what the cache opens with its digest input. -/
theorem openBench_linker (arguments : List String) (files : FileTree) :
    (linker arguments).openBench files =
      match Cache.openAt files ["tmp", "job"] ⟨"/i"⟩ (spelledOut (linking arguments).stream) with
      | (files, .ok cache) => (files, .ok ⟨files, cache⟩)
      | (files, .error fault) => (files, .error (.cache fault)) := rfl

/-- An argument is exchanged for another: the pipeline that is opened then has an empty cache. -/
theorem drift_discards_rehearsed :
    ∃ b, ((linker ["-lc"]).openBench (linkedFiles ["-la", "-lb"])).2 = .ok b ∧
      (linking ["-la", "-lb"]).stream ≠ (linking ["-lc"]).stream ∧
      b.cache = ⟨⟨"/i"⟩, spelledOut (linking ["-lc"]).stream, [], []⟩ := by
  have cleared := Cache.openAt_of_other load?_linked
    (show _ ≠ spelledOut (linking ["-lc"]).stream by decide +kernel)
  obtain ⟨b, opened⟩ : ∃ b, ((linker ["-lc"]).openBench (linkedFiles ["-la", "-lb"])).2 = .ok b := by
    refine exists_of_isSome ?_
    rw [openBench_linker, cleared]
    decide +kernel
  have unlike : ¬ (linking ["-la", "-lb"]).Alike (linking ["-lc"]) :=
    fun alike => absurd alike.arguments (by decide +kernel)
  obtain ⟨streams, -, empty⟩ := Workshop.drift_discards versioned (w := linker ["-lc"])
    (t := linking ["-la", "-lb"]) (u := linking ["-lc"]) rfl rfl rfl load?_linked rfl
    (fun same => absurd same (by decide +kernel)) (.inl rfl) ⟨by decide +kernel, by simp [linking]⟩
    ⟨by decide +kernel, by simp [linking]⟩ opened
  exact ⟨b, opened, fun same => unlike (streams.mp same), empty unlike⟩

/-- Two arguments are joined to one: the digest is taken over the same bytes, and the pipeline that is
opened then has what was built with the two. A version that ends where the edition began does the
same. -/
theorem drift_unnoticed :
    (linking ["-la", "-lb"]).settings ≠ (linking ["-la-lb"]).settings ∧
      (linking ["-la", "-lb"]).stream = (linking ["-la-lb"]).stream ∧
      (linker ["-la-lb"]).openBench (linkedFiles ["-la", "-lb"]) =
        (linkedFiles ["-la", "-lb"], .ok ⟨linkedFiles ["-la", "-lb"], linked ["-la", "-lb"]⟩) ∧
      Toolchain.stream ⟨Bytes.ofString "1", { edition := "2021" }, []⟩ =
        Toolchain.stream ⟨Bytes.ofString "12", { edition := "021" }, []⟩ := by
  have streams : (linking ["-la", "-lb"]).stream = (linking ["-la-lb"]).stream := by decide +kernel
  refine ⟨by decide +kernel, streams, ?_, by decide +kernel⟩
  have kept := Cache.openAt_of_load? (linked_inOrder ["-la", "-lb"]) load?_linked
  rw [openBench_linker, ← streams]
  simp only [linked] at kept
  rw [kept]
  rfl

end Rehearsal

end SimWorkbench
