import SimWorkbench.Proofs.Build.Calls
import SimWorkbench.Proofs.Build.Neighbours
import SimWorkbench.Proofs.Path.Absolute

/-!
# Models that are settled

After a call of the compiler a model is settled: either its entry is up to date, or a miss is
remembered for the model as it is. A settled model stays settled as long as its bytes stay, whatever
is asked about other models, and every further request for it is answered without a call.
-/
namespace SimWorkbench

open FileTree (KeepsDirectories GrowsAt)

/-- Two readings of the same files give the same fingerprint. -/
theorem Fingerprint.now_congr {digest : Digest} {files files' : FileTree} {here : Location}
    {paths paths' : List Path}
    (same : Fingerprint.readings files here paths = Fingerprint.readings files' here paths') :
    Fingerprint.now digest files here paths = Fingerprint.now digest files' here paths' := by
  rw [Fingerprint.now, Fingerprint.now, same]

namespace Grounds

/-- A pipeline of the project that is orderly, and in which nothing is generated from a model that
cannot be read. So it is if what is generated depends on the bytes of the model alone. -/
structure Attentive (g : Grounds) (w : Workshop) : Prop extends g.Orderly w where
  readsModel : ∀ files model source, (w.generator files model).2 = .ok source →
    ∃ bytes, files.read g.here model = .ok bytes

/-- Whether a path is the absolute path of a file that is read by some path. -/
def Seen (g : Grounds) (files : FileTree) (path : Path) : Prop :=
  ∃ p content, path = p.normalised g.here.path ∧ files.read g.here p = .ok content

/-- Whether the cache answers for a model with an entry, and goes on to do so until one of its files
changes. -/
structure Built (g : Grounds) (w : Workshop) (model : Path) (b : Bench) (d : Descriptor) : Prop where
  found : b.cache.entry? g.here model = some d
  current : Cache.outdated w.digest b.files g.here d = false
  source : g.Seen b.files d.source
  executable : g.Seen b.files d.artifact

/-- Whether the cache remembers that a model, spelled `p`, was rejected as it is. -/
structure Refused (g : Grounds) (w : Workshop) (model p : Path) (b : Bench) : Prop where
  missing : b.cache.entry? g.here model = none
  missed : ∃ m, b.cache.miss? g.here model = some m ∧
    m.fingerprint = Fingerprint.now w.digest b.files g.here [p.normalised g.here.path]
  same : Cache.key g.here p = Cache.key g.here model
  readable : ∃ content, b.files.read g.here p = .ok content

/-- Whether nothing happened that a settled model depends on. -/
structure Undisturbed (g : Grounds) (model : Path) (b b' : Bench) : Prop where
  entry : b'.cache.entry? g.here model = b.cache.entry? g.here model
  miss : b'.cache.miss? g.here model = b.cache.miss? g.here model
  directories : KeepsDirectories b.files b'.files
  bytes : b'.files.bytesAt? (model.location g.here) = b.files.bytesAt? (model.location g.here)
  executable : ∀ d, b.cache.entry? g.here model = some d →
    b'.files.bytesAt? (d.artifact.location g.here) = b.files.bytesAt? (d.artifact.location g.here)

variable {g : Grounds} {w : Workshop} {model p q : Path} {b b' : Bench} {c : Cache}
  {environment text : String} {files files' : FileTree} {u : SourceUnit} {d : Descriptor}

/-- Paths that the cache takes for one lead to the same place. -/
theorem location_of_key (g : Grounds) (same : Cache.key g.here p = Cache.key g.here q) :
    p.location g.here = q.location g.here := by
  rw [← Path.location_normalised p g.proper, ← Path.location_normalised q g.proper]
  exact FileTree.location_of_same same g.here

theorem read_kept {content : Bytes} (kept : KeepsDirectories files files')
    (same : files'.bytesAt? (p.location g.here) = files.bytesAt? (p.location g.here))
    (readable : files.read g.here p = .ok content) : files'.read g.here p = .ok content := by
  obtain ⟨spelled, reached, bytes⟩ := FileTree.read_iff.mp readable
  exact FileTree.read_iff.mpr ⟨spelled, reached.mono kept, same.trans bytes⟩

/-- What was seen is seen again, and its absolute path is read as it was, where its bytes stay. -/
theorem Seen.kept {path : Path} (seen : g.Seen files path) (reachable : files.Reachable g.here)
    (kept : KeepsDirectories files files')
    (same : files'.bytesAt? (path.location g.here) = files.bytesAt? (path.location g.here)) :
    g.Seen files' path ∧
      (files'.read g.here path).toOption = (files.read g.here path).toOption := by
  obtain ⟨p, content, rfl, readable⟩ := seen
  have reached := FileTree.reached_normalised g.proper reachable readable
  refine ⟨⟨p, content, rfl, read_kept kept ?_ readable⟩,
    FileTree.toOption_read_congr Iff.rfl (reached.mono kept) reached same⟩
  rwa [Path.location_normalised p g.proper] at same

theorem Built.location (built : g.Built w model b d) :
    d.source.location g.here = model.location g.here := by
  rw [← Path.location_normalised model g.proper]
  exact FileTree.location_of_same (Cache.mem_of_found built.found).2 g.here

theorem Built.kept (built : g.Built w model b d) (reachable : b.files.Reachable g.here)
    (undisturbed : g.Undisturbed model b b') : g.Built w model b' d := by
  obtain ⟨source, sourceRead⟩ := built.source.kept reachable undisturbed.directories
    (by rw [built.location]; exact undisturbed.bytes)
  obtain ⟨executable, executableRead⟩ := built.executable.kept reachable undisturbed.directories
    (undisturbed.executable d built.found)
  have same : Fingerprint.readings b'.files g.here [d.source, d.artifact] =
      Fingerprint.readings b.files g.here [d.source, d.artifact] := by
    simp only [Fingerprint.readings, List.map_cons, List.map_nil, sourceRead, executableRead]
  refine ⟨undisturbed.entry.trans built.found, ?_, source, executable⟩
  rw [Cache.outdated, Fingerprint.now_congr same]
  exact built.current

theorem Refused.kept (refused : g.Refused w model p b) (reachable : b.files.Reachable g.here)
    (undisturbed : g.Undisturbed model b b') : g.Refused w model p b' := by
  obtain ⟨content, readable⟩ := refused.readable
  obtain ⟨m, found, fingerprint⟩ := refused.missed
  have bytes : b'.files.bytesAt? (p.location g.here) = b.files.bytesAt? (p.location g.here) := by
    rw [g.location_of_key refused.same]
    exact undisturbed.bytes
  have seen : g.Seen b.files (p.normalised g.here.path) := ⟨p, content, rfl, readable⟩
  obtain ⟨-, sameRead⟩ := seen.kept reachable undisturbed.directories
    (by rwa [Path.location_normalised p g.proper])
  have same : Fingerprint.readings b'.files g.here [p.normalised g.here.path] =
      Fingerprint.readings b.files g.here [p.normalised g.here.path] := by
    simp only [Fingerprint.readings, List.map_cons, List.map_nil, sameRead]
  refine ⟨undisturbed.entry.trans refused.missing,
    ⟨m, undisturbed.miss.trans found, ?_⟩, refused.same, content,
    read_kept undisturbed.directories bytes readable⟩
  rw [fingerprint, Fingerprint.now_congr same]

/-- Requests about other models do not disturb a settled one. -/
theorem Spares.undisturbed {other : Path} (spares : g.Spares other b b')
    (owned : g.Owned b.cache.entries b.cache.misses)
    (temporaryApart : g.layout.Apart g.here (g.layout.temporary.location g.here))
    (placed : g.Placed model) (different : Cache.key g.here model ≠ Cache.key g.here other) :
    g.Undisturbed model b b' where
  entry := spares.entries _ different
  miss := spares.misses _ different
  directories := spares.directories
  bytes := (spares.files _ placed.sheltered).bytesAt?
  executable d found := by
    obtain ⟨member, key⟩ := Cache.mem_of_found found
    exact (spares.files _
      (owned.sheltered temporaryApart member (key ▸ different))).bytesAt?

/-- A model with an entry that is up to date is answered with it, and nothing else happens. -/
theorem Built.ensure (built : g.Built w model b d) (here : w.here = g.here)
    (same : Cache.key g.here q = Cache.key g.here model) :
    w.ensure b q false = ⟨b, .ok (d, .cached), []⟩ := by
  refine w.ensure_of_step (Workshop.lookup_of_current ?_ (here ▸ built.current))
  rw [here, Cache.entry?, same]
  exact built.found

/-- A model that was rejected is a known miss under every spelling that is read like the one it was
rejected under. -/
theorem Refused.known (refused : g.Refused w model p b) (here : w.here = g.here)
    (same : Cache.key g.here q = Cache.key g.here model)
    (alike : (b.files.read g.here (q.normalised g.here.path)).toOption =
      (b.files.read g.here (p.normalised g.here.path)).toOption) :
    w.ensure b q false = ⟨b, .error (.knownMiss q), []⟩ := by
  have missing : b.cache.entry? w.here q = none := by
    rw [here, Cache.entry?, same]
    exact refused.missing
  obtain ⟨m, found, fingerprint⟩ := refused.missed
  have readings : Fingerprint.readings b.files g.here [p.normalised g.here.path] =
      Fingerprint.readings b.files g.here [q.normalised g.here.path] := by
    simp only [Fingerprint.readings, List.map_cons, List.map_nil, alike]
  have missed : b.cache.isMiss w.digest b.files w.here q = true := by
    rw [Cache.isMiss, Cache.miss?, here, same]
    rw [Cache.miss?] at found
    simp only [found, fingerprint, decide_eq_true_eq]
    exact Fingerprint.now_congr readings
  have next := @Workshop.lookup_of_unanswered w b q
    (by simp [missing])
  rw [Workshop.refreshed_of_none missing, if_pos missed] at next
  exact w.ensure_of_step next

/-- Every spelling under which a rejected model is read is a known miss. -/
theorem Refused.ensure (refused : g.Refused w model p b) (here : w.here = g.here)
    (reachable : b.files.Reachable g.here) (same : Cache.key g.here q = Cache.key g.here model)
    {content : Bytes} (readable : b.files.read g.here q = .ok content) :
    w.ensure b q false = ⟨b, .error (.knownMiss q), []⟩ := by
  obtain ⟨content', readable'⟩ := refused.readable
  have one : (q.normalised g.here.path).sortKey = (p.normalised g.here.path).sortKey :=
    same.trans refused.same.symm
  refine refused.known here same (FileTree.toOption_read_congr
    (FileTree.canNameFile_normalised_iff g.proper reachable readable reachable readable' one)
    (FileTree.reached_normalised g.proper reachable readable)
    (FileTree.reached_normalised g.proper reachable readable') ?_)
  rw [FileTree.location_of_same one]

/-- A request for a model that has no entry and cannot be read calls no compiler. -/
theorem ensure_unreadable (attentive : g.Attentive w) (missing : b.cache.entry? g.here q = none)
    (unreadable : ∀ content, b.files.read g.here q ≠ .ok content) :
    (w.ensure b q false).jobs = [] ∧ g.Undisturbed model b (w.ensure b q false).bench ∧
      ((w.ensure b q false).result = .error (.knownMiss q) ∨
        ∃ failure, (w.ensure b q false).result = .error (.generation failure)) := by
  have here : w.here = g.here := attentive.here
  have missing' : b.cache.entry? w.here q = none := by rwa [here]
  have next := @Workshop.lookup_of_unanswered w b q (by simp [missing'])
  rw [Workshop.refreshed_of_none missing'] at next
  by_cases missed : b.cache.isMiss w.digest b.files w.here q = true
  · rw [if_pos missed] at next
    rw [w.ensure_of_step next]
    exact ⟨rfl, ⟨rfl, rfl, .refl _, rfl, fun _ _ => rfl⟩, .inl rfl⟩
  · rw [if_neg missed] at next
    have silent := attentive.generatorSilent b.files q
    cases produced : (w.generator b.files q).2 with
    | ok source =>
      obtain ⟨content, readable⟩ := attentive.readsModel b.files q source produced
      exact absurd readable (unreadable content)
    | error failure =>
      have failed : w.step b q .generate =
          (⟨(w.generator b.files q).1, b.cache⟩, .finished (.error (.generation failure))) := by
        simp only [Workshop.step, Workshop.produce, produced]
      rw [w.ensure_of_generate next failed]
      have bytes : ∀ l, (w.generator b.files q).1.bytesAt? l = b.files.bytesAt? l := by
        intro l
        rw [FileTree.bytesAt?, silent l]
        rfl
      exact ⟨rfl, ⟨rfl, rfl, fun l directory => (silent l).trans directory, bytes _,
        fun _ _ => bytes _⟩, .inr ⟨failure, rfl⟩⟩

end Grounds
end SimWorkbench
