import SimWorkbench.Cache.Basic
import SimWorkbench.Proofs.Cache.IndexDocument
import SimWorkbench.Proofs.FileTree.Effect
import SimWorkbench.Proofs.Text.Utf8

/-!
# What saving the cache does to the files

A cache that could be saved is found again in its index. Besides the index, its temporary and new
directories above them, the files of a transaction that meets no refusal change only where an
executable is discarded.
-/
namespace SimWorkbench

namespace Cache

variable {t t' : FileTree} {here l : Location} {c : Cache}

theorem grows_of_makeDirs (parents : List Path) (t : FileTree) (here : Location) :
    FileTree.Grows t (Effect.performAll t here (parents.map .makeDirs)).1 := by
  intro l
  refine (Effect.performAll_frame _ t here).2 l fun e member => ?_
  obtain ⟨p, -, rfl⟩ := List.mem_map.mp member
  simp [Effect.touches]

/-- A cache that was saved without a refusal can be read in its index, if no device swallowed it. -/
theorem load?_saving (noDevice : ∀ d, t.get? (c.temporary.location here) ≠ some (.device d))
    (saved : Effect.performAll t here c.saving = (t', none)) :
    Index.load? t' here c.indexPath = some c.index := by
  obtain ⟨made, makeDirs, rest⟩ := Effect.performAll_append_ok saved
  have grows := grows_of_makeDirs c.indexPath.parent?.toList t here
  rw [makeDirs] at grows
  have noDevice' : ∀ d, made.get? (c.temporary.location here) ≠ some (.device d) := by
    intro d device
    rcases grows (c.temporary.location here) with same | ⟨-, directory⟩
    · exact noDevice d (same ▸ device)
    · simp [directory] at device
  simp only [Effect.performAll, Effect.perform] at rest
  cases wrote : made.write here c.temporary (Bytes.ofChars c.index.write) with
  | error cause => simp [wrote] at rest
  | ok written =>
    simp only [wrote] at rest
    cases moved : written.rename here c.temporary c.indexPath with
    | error cause => simp [moved] at rest
    | ok final =>
      simp only [moved, Prod.mk.injEq, and_true] at rest
      subst rest
      have document := FileTree.replace_ok noDevice' wrote moved
      simp only [Index.load?, FileTree.readText, document, bind, Except.bind,
        Text.Utf8.toString?_ofChars, String.toList_ofList, Index.read?_write]

/-- Saving touches the index and its temporary. -/
theorem not_touched_saving {e : Effect} (member : e ∈ c.saving)
    (notIndex : l ≠ c.indexPath.location here) (notTemporary : l ≠ c.temporary.location here) :
    l ∉ e.touches here := by
  simp only [saving, List.mem_append, List.mem_map, List.mem_cons, List.not_mem_nil,
    or_false] at member
  rcases member with ⟨p, -, rfl⟩ | rfl | rfl
  · simp [Effect.touches]
  · simpa [Effect.touches] using notTemporary
  · simpa [Effect.touches] using ⟨notTemporary, notIndex⟩

/-- Whether a file stands at a location. -/
def HasFile (t : FileTree) (l : Location) : Prop := ∃ e, t.get? l = some e ∧ e ≠ .directory

theorem hasFile_of_growsAt (h : FileTree.GrowsAt t t' l) : HasFile t' l ↔ HasFile t l := by
  rcases h with same | ⟨free, made⟩
  · simp only [HasFile, same]
  · simp [HasFile, free, made]

/-- What a transaction leaves behind that discards executables, saves a cache and meets no
refusal. -/
structure Settled (t t' : FileTree) (here : Location) (c : Cache) (discarded : List Path) : Prop where
  load : Index.load? t' here c.indexPath = some c.index
  files : ∀ l, l ≠ c.indexPath.location here → l ≠ c.temporary.location here →
    (HasFile t' l ↔ HasFile t l ∧ ¬ Effect.Discards t here discarded l)
  /-- Only files are discarded. -/
  wasFile : ∀ l, Effect.Discards t here discarded l → HasFile t l

theorem Transaction.run_ok {x : Transaction} {old : Cache}
    (done : x.run old t here = (t', c, none)) :
    c = x.cache ∧ Effect.performAll t here (x.before ++ x.after) = (t', none) := by
  rw [Effect.performAll_append]
  unfold Transaction.run at done
  rcases first : Effect.performAll t here x.before with ⟨middle, _ | fault⟩
  · rw [first] at done
    rcases rest : Effect.performAll middle here x.after with ⟨final, fault⟩
    simp only [rest, Prod.mk.injEq] at done
    obtain ⟨rfl, rfl, rfl⟩ := done
    exact ⟨rfl, rest⟩
  · rw [first] at done
    cases done

/-- All transactions of the cache discard executables and save the cache they change to. -/
theorem settled_of_run {x : Transaction} {old : Cache} {discarded : List Path}
    (noDevice : ∀ d, t.get? (x.cache.temporary.location here) ≠ some (.device d))
    (effects : x.before ++ x.after = discarded.map .discard ++ x.cache.saving)
    (done : x.run old t here = (t', c, none)) : c = x.cache ∧ Settled t t' here c discarded := by
  obtain ⟨rfl, performed⟩ := Transaction.run_ok done
  rw [effects] at performed
  obtain ⟨bare, discards, saving⟩ := Effect.performAll_append_ok performed
  obtain ⟨gone, kept⟩ := Effect.performAll_discards discards
  have noDevice' : ∀ d, bare.get? (x.cache.temporary.location here) ≠ some (.device d) := by
    intro d device
    by_cases removed : Effect.Discards t here discarded (x.cache.temporary.location here)
    · simp [(gone _ removed).2.2] at device
    · exact noDevice d (kept _ removed ▸ device)
  refine ⟨rfl, load?_saving noDevice' saving, fun l notIndex notTemporary => ?_, fun l removed => ?_⟩
  · have grows := (Effect.performAll_frame x.cache.saving bare here).2 l
      (fun e member => not_touched_saving member notIndex notTemporary)
    rw [saving] at grows
    rw [hasFile_of_growsAt grows]
    by_cases removed : Effect.Discards t here discarded l
    · simp [HasFile, (gone l removed).2.2, removed]
    · simp [HasFile, kept l removed, removed]
  · obtain ⟨p, -, e, located⟩ := id removed
    have found := FileTree.locate_get? located
    refine ⟨e, found, ?_⟩
    rintro rfl
    exact (gone l removed).2.1 found

end Cache
end SimWorkbench
