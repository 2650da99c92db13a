import SimWorkbench.Proofs.Build.Filed
import SimWorkbench.Proofs.Build.Rehearsal
import SimWorkbench.Proofs.Control.Preparing
import SimWorkbench.Proofs.Control.Sessions

/-!
# Executables from the build to the run

The layout puts an executable below the directory of executables, the cache knows it by its absolute
path, the controller takes the directory off that path, and the arena puts it in front again. However
the directory is spelled, these lead back to the executable that the build left.
-/
namespace SimWorkbench

namespace Grounds

variable {g : Grounds} {digest : Digest} {k : Compilation} {u : SourceUnit} {d : Descriptor}

/-- The name under which the executable of an entry is looked for is that of its unit. -/
theorem Filed.name (filed : g.Filed digest k u d)
    (absolute : g.layout.classesDir.isAbsolute = true) :
    g.layout.classesDir.below? d.artifact = some ⟨u.package ++ "/" ++ u.typeName⟩ := by
  obtain ⟨package, typeName⟩ := filed.declared.words
  have steps : (g.layout.artifactFile u.package u.typeName).steps =
      g.layout.classesDir.steps ++ [u.package, u.typeName] := by
    rw [Layout.artifactFile, Path.steps_child typeName.isName, Path.steps_child package.isName,
      List.append_assoc]
    rfl
  have isAbsolute : (g.layout.artifactFile u.package u.typeName).isAbsolute = true := by
    rw [Layout.artifactFile, Path.isAbsolute_child typeName.isName,
      Path.isAbsolute_child package.isName, absolute]
  have name : Path.ofSegments ([u.package, u.typeName].map String.toList) =
      ⟨u.package ++ "/" ++ u.typeName⟩ := by
    rw [Path.ofSegments, Path.mk.injEq, ← String.toList_inj]
    simp [List.intercalate]
  rw [filed.artifact, filed.output, ← name]
  exact Path.below?_normalised g.proper absolute isAbsolute steps (by simp)
    (Path.open_child typeName.isName)

/-- In every run over a project whose executables are in an absolute directory, however it is spelled:
an executable that a request was answered with, from the cache or from the compiler, is found by every
idle controller with the same directory whose scratch directory can be used. It is found under the
name of the unit that was compiled, and the copy that is loaded holds the bytes that the fingerprint
of the answer was taken over. -/
theorem artifact_prepared {α : Type} {kind : ArtifactKind α} {w : Workshop} {c : Cache}
    {log : List Compilation} {files first : FileTree} {model : Path} {force : Bool} {how : Provenance}
    {settings : RunSettings} {hasListener : Bool} {rootPaths : List Path} {scratchDir : Path}
    {naming : Naming} {r : Controller α}
    (absolute : g.layout.classesDir.isAbsolute = true)
    (temporaryApart : g.layout.Apart g.here (g.layout.temporary.location g.here))
    (history : g.History (g.Regular digest) (fun _ _ => True) files (some (w, c)) log)
    (answer : (w.ensure ⟨files, c⟩ model force).result = .ok (d, how))
    (reliable : how = .cached → g.Reliable digest log files d)
    (reaches : Controller.Reaches kind g.here (fun _ _ => True)
      (.fresh settings hasListener (.fresh rootPaths g.layout.classesDir scratchDir naming) first) r)
    (inactive : r.isActive = false)
    (unchanged : r.files = (w.ensure ⟨files, c⟩ model force).bench.files)
    (usable : r.arena.Usable g.here r.files) :
    (∀ e, (r.perform kind g.here (.prepare d)).2 ≠ .failed (.resolution e)) ∧
      ∃ k ∈ (if how = .cached then log else w.calls ⟨files, c⟩ model force), ∃ u content loaded places,
        g.Filed digest k u d ∧ k.after.read g.here d.artifact = .ok content ∧
        (r.resolving kind g.here d).control = .loading d false r.nextRun loaded places ∧
        loaded.name = ⟨u.package ++ "/" ++ u.typeName⟩ ∧
        (r.resolving kind g.here d).files.read g.here loaded.executable = .ok content := by
  obtain ⟨k, isCall, u, content, filed, isFile, now, stored⟩ :=
    present_of_answer absolute temporaryApart history answer reliable
  rw [← unchanged] at isFile now
  obtain ⟨loaded, places, loading, name, copied⟩ := Controller.loading_of_prepare kind
    (Controller.tended_of_reaches g.proper reaches) g.proper inactive usable filed.declared
    (filed.name absolute) isFile now
  exact ⟨Controller.prepare_ne_of_loading loading,
    k, isCall, u, content, loaded, places, filed, stored, loading, name, copied⟩

end Grounds

namespace Rehearsal

/-- A project whose executables are in a directory that is spelled loosely. -/
def looseProject : Premises :=
  { premises ["tmp", "job"] { rooted with classesDir := ⟨"//./c/"⟩ } project.proper
      (by decide +kernel) with digest := spelledOut }

def loosePipeline : Workshop :=
  { workshop ["tmp", "job"] { rooted with classesDir := ⟨"//./c/"⟩ } [1] with digest := spelledOut }

theorem admits_loose : looseProject.Admits loosePipeline := by
  have admitted : Premises.Admits _ _ :=
    @admits ["tmp", "job"] { rooted with classesDir := ⟨"//./c/"⟩ } (by decide +kernel)
      (by decide +kernel) [1]
  exact ⟨⟨admitted.here, admitted.layout, admitted.identityKeeps⟩, rfl, admitted.generates,
    admitted.generatorKeeps, admitted.compilerWrites⟩

/-- The first request for the model. -/
def delivered : Workshop.Ended := loosePipeline.ensure ⟨fresh, blank⟩ ⟨"m"⟩ false

def delivery : Descriptor :=
  ⟨⟨"/tmp/job/m"⟩, ⟨"//c/p/T"⟩, "p",
    Fingerprint.now spelledOut delivered.bench.files ["tmp", "job"] [⟨"/tmp/job/m"⟩, ⟨"//c/p/T"⟩]⟩

/-- A controller that makes its copies in a directory that has to be made. -/
def receiver : Controller Artifact :=
  .fresh {} true (.fresh [] ⟨"//./c/"⟩ ⟨"d/x"⟩) delivered.bench.files

/-- The controller when it has prepared the executable. -/
def received : Controller Artifact :=
  (receiver.after? twice ["tmp", "job"]
    (.call (.prepare delivery) :: List.replicate 8 .control)).getD receiver

theorem reaches_received :
    Controller.Reaches twice ["tmp", "job"] (fun _ _ => True) receiver received := by
  have happened : (receiver.after? twice ["tmp", "job"]
      (.call (.prepare delivery) :: List.replicate 8 .control)).isSome = true := by decide +kernel
  obtain ⟨r, isState⟩ := Option.isSome_iff_exists.mp happened
  have same : received = r := by rw [received, isState, Option.getD_some]
  exact same ▸ Controller.reaches_of_after? (fun _ _ _ => trivial) isState

theorem delivered_opened : (loosePipeline.openBench fresh).1 = fresh ∧
    (loosePipeline.openBench fresh).2.toOption = some ⟨fresh, blank⟩ := by decide +kernel

/-- The second request for the model. -/
def redelivered : Workshop.Ended :=
  loosePipeline.ensure ⟨received.files, delivered.bench.cache⟩ ⟨"m"⟩ false

/-- The copy that was made changes nothing for the second request, which is answered from the cache. -/
theorem redelivered_reads :
    (received.files.get? ["i"] = delivered.bench.files.get? ["i"] ∧
      redelivered.result.toOption = some (delivery, .cached) ∧
      received.files = redelivered.bench.files ∧
      received.isActive = false ∧ received.arena.Roomy ["tmp", "job"] received.files) ∧
    (received.files.get? ["c", "p", "T"]).map Entry.isFile = some true ∧
    Fingerprint.Fitting received.files ["tmp", "job"] [delivery.source, delivery.artifact] ∧
    ∀ k ∈ loosePipeline.calls ⟨fresh, blank⟩ ⟨"m"⟩ false,
      Fingerprint.readings k.after ["tmp", "job"] [delivery.source, delivery.artifact] =
          Fingerprint.readings received.files ["tmp", "job"] [delivery.source, delivery.artifact] ∧
        Fingerprint.Fitting k.after ["tmp", "job"] [delivery.source, delivery.artifact] ∧
        (k.after.read ["tmp", "job"] delivery.source).toOption.isSome = true := by
  decide +kernel

/-- The files that the fingerprint of the executable was taken over are as they were. -/
theorem delivery_reliable :
    looseProject.Reliable spelledOut (loosePipeline.calls ⟨fresh, blank⟩ ⟨"m"⟩ false) received.files
      delivery := by
  obtain ⟨-, isFile, fits, calls⟩ := redelivered_reads
  refine ⟨fun k isCall _ => congrArg Fingerprint.stream (calls k isCall).1, fits,
    fun k isCall => (calls k isCall).2.1,
    fun k isCall _ _ => exists_of_isSome (calls k isCall).2.2, fun device isDevice => ?_⟩
  rw [show delivery.artifact.location looseProject.here = ["c", "p", "T"] by decide +kernel] at isDevice
  rw [isDevice] at isFile
  cases isFile

/-- An executable that was prepared once is found again when the cache answers with it. -/
theorem artifact_prepared_rehearsed :
    looseProject.History (looseProject.Regular spelledOut) (fun _ _ => True) received.files
        (some (loosePipeline, delivered.bench.cache))
        (loosePipeline.calls ⟨fresh, blank⟩ ⟨"m"⟩ false) ∧
      redelivered.result = .ok (delivery, .cached) ∧
      (∀ e, (received.perform twice ["tmp", "job"] (.prepare delivery)).2 ≠
        .failed (.resolution e)) ∧
      ∃ k ∈ loosePipeline.calls ⟨fresh, blank⟩ ⟨"m"⟩ false, ∃ u content loaded places,
        looseProject.Filed spelledOut k u delivery ∧
        k.after.read ["tmp", "job"] delivery.artifact = .ok content ∧
        (received.resolving twice ["tmp", "job"] delivery).control =
          .loading delivery false received.nextRun loaded places ∧
        loaded.name = ⟨u.package ++ "/" ++ u.typeName⟩ ∧
        (received.resolving twice ["tmp", "job"] delivery).files.read ["tmp", "job"]
          loaded.executable = .ok content := by
  obtain ⟨⟨index, cached, unchanged, inactive, roomy⟩, -⟩ := redelivered_reads
  have result : redelivered.result = .ok (delivery, .cached) := ok_of_toOption cached
  have opening : looseProject.History (looseProject.Regular spelledOut) (fun _ _ => True) fresh
      (some (loosePipeline, blank)) [] :=
    .begins (by decide +kernel) admits_loose.regular delivered_opened
  have left : FileTree.NothingNewAt delivered.bench.files received.files looseProject.index := by
    rw [show looseProject.index = ["i"] by decide +kernel]
    exact fun e now => .inr (index ▸ now)
  have ensured :=
    @Grounds.History.ensured looseProject.toGrounds _ _ _ _ _ _ ⟨"m"⟩ opening trivial false
  rw [← delivered, List.nil_append] at ensured
  have history := ensured.edited left
  rw [redelivered] at result unchanged
  have counted : received.arena.naming = .counting :=
    reaches_received.invariant (P := fun c => c.arena.naming = .counting) rfl
      fun same _ happens => happens.sameDirs.naming.trans same
  have delivers := Grounds.artifact_prepared (r := received) rfl
    (Layout.Outside.apart (by decide +kernel)) history result
    (fun _ => delivery_reliable) reaches_received inactive unchanged (roomy.usable counted)
  rw [if_pos rfl] at delivers
  exact ⟨history, result, delivers⟩

/-- A compiler that leaves an empty executable. -/
def emptying (here : Location) : Compiler where
  identity files := (files, [1])
  compile files job :=
    match files.write here job.output [] with
    | .ok files => (files, compileSuccess)
    | .error e => (files, e.message)

def hollowPipeline : Workshop :=
  { loosePipeline with site := { loosePipeline.site with compiler := emptying ["tmp", "job"] } }

theorem regular_hollow : looseProject.Regular spelledOut hollowPipeline where
  here := rfl
  layout := rfl
  identityKeeps _ := .refl _ _
  digest := rfl
  generatorLeaves := admits_loose.regular.generatorLeaves
  compilerLeaves files job apart := by
    simp only [hollowPipeline, emptying]
    split
    · rename_i wrote
      obtain ⟨-, -, ⟨-, rfl⟩ | ⟨mode, rfl⟩⟩ := FileTree.write_ok wrote
      · exact fun e now => .inr now
      · exact fun e now => .inr ((FileTree.get?_insert_ne apart.symm).symm.trans now)
    · exact fun e now => .inr now

/-- The first request for the model, with that compiler. -/
def hollow : Workshop.Ended := hollowPipeline.ensure ⟨fresh, blank⟩ ⟨"m"⟩ false

/-- A null device takes the place of the executable. -/
def muted : FileTree := hollow.bench.files.insert ["c", "p", "T"] (.device .null)

def hollowEntry : Descriptor :=
  ⟨⟨"/tmp/job/m"⟩, ⟨"//c/p/T"⟩, "p",
    Fingerprint.now spelledOut hollow.bench.files ["tmp", "job"] [⟨"/tmp/job/m"⟩, ⟨"//c/p/T"⟩]⟩

/-- A null device reads like the empty executable in whose place it was put, so that the cache answers
with it; but it is no file that could be prepared. -/
theorem device_unprepared :
    looseProject.History (looseProject.Regular spelledOut) (fun _ _ => True) muted
        (some (hollowPipeline, hollow.bench.cache)) (hollowPipeline.calls ⟨fresh, blank⟩ ⟨"m"⟩ false) ∧
      (hollowPipeline.ensure ⟨muted, hollow.bench.cache⟩ ⟨"m"⟩ false).result =
        .ok (hollowEntry, .cached) ∧
      (hollowPipeline.ensure ⟨muted, hollow.bench.cache⟩ ⟨"m"⟩ false).bench.files = muted ∧
      receiver.arena.Usable ["tmp", "job"] muted ∧
      (({ receiver with files := muted }).perform twice ["tmp", "job"] (.prepare hollowEntry)).2 =
        .failed (.resolution (.notFound ⟨"p/T"⟩ .stage)) := by
  have answers : (hollowPipeline.ensure ⟨muted, hollow.bench.cache⟩ ⟨"m"⟩ false).result.toOption =
        some (hollowEntry, .cached) ∧
      (hollowPipeline.ensure ⟨muted, hollow.bench.cache⟩ ⟨"m"⟩ false).bench.files = muted ∧
      receiver.arena.Roomy ["tmp", "job"] muted ∧
      (({ receiver with files := muted }).perform twice ["tmp", "job"] (.prepare hollowEntry)).2 =
        .failed (.resolution (.notFound ⟨"p/T"⟩ .stage)) := by decide +kernel
  obtain ⟨cached, unchanged, roomy, unprepared⟩ := answers
  have opened : (hollowPipeline.openBench fresh).1 = fresh ∧
      (hollowPipeline.openBench fresh).2.toOption = some ⟨fresh, blank⟩ := by decide +kernel
  have opening : looseProject.History (looseProject.Regular spelledOut) (fun _ _ => True) fresh
      (some (hollowPipeline, blank)) [] := .begins (by decide +kernel) regular_hollow opened
  have left : FileTree.NothingNewAt hollow.bench.files muted looseProject.index := by
    rw [show looseProject.index = ["i"] by decide +kernel]
    exact fun e now => .inr ((FileTree.get?_insert_ne (by decide)).symm.trans now)
  have ensured :=
    @Grounds.History.ensured looseProject.toGrounds _ _ _ _ _ _ ⟨"m"⟩ opening trivial false
  rw [← hollow, List.nil_append] at ensured
  exact ⟨ensured.edited left, ok_of_toOption cached, unchanged, roomy.usable rfl, unprepared⟩

end Rehearsal
end SimWorkbench
