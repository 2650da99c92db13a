import SimWorkbench.Proofs.Cache.Saving

/-!
# What the index holds after a transaction

A transaction may be refused at any of its effects. Whatever happens, the file of the index holds
the document it held before, the document of the new cache, or no document.
-/
namespace SimWorkbench

namespace FileTree

variable {t t' t'' : FileTree} {l : Location}

/-- Whether nothing new stands at a location but a directory. -/
def NothingNewAt (t t' : FileTree) (l : Location) : Prop :=
  ∀ e, t'.get? l = some e → e = .directory ∨ t.get? l = some e

theorem NothingNewAt.refl (t : FileTree) (l : Location) : NothingNewAt t t l := fun _ => .inr

theorem NothingNewAt.trans (first : NothingNewAt t t' l) (second : NothingNewAt t' t'' l) :
    NothingNewAt t t'' l := by
  intro e found
  rcases second e found with directory | found'
  · exact .inl directory
  · exact first e found'

theorem GrowsAt.nothingNewAt (h : GrowsAt t t' l) : NothingNewAt t t' l := by
  intro e found
  rcases h with same | ⟨-, made⟩
  · exact .inr (same ▸ found)
  · rw [made, Option.some.injEq] at found
    exact .inl found.symm

end FileTree

/-- Discards bring nothing new, whether they are refused or not. -/
theorem Effect.nothingNewAt_discards {t : FileTree} {here : Location} (paths : List Path)
    (l : Location) :
    FileTree.NothingNewAt t (performAll t here (paths.map .discard)).1 l := by
  induction paths generalizing t with
  | nil =>
    rw [List.map_nil, performAll]
    exact .refl t l
  | cons p paths ih =>
    have first : FileTree.NothingNewAt t (perform t here (.discard p)).1 l := by
      rcases performed : perform t here (.discard p) with ⟨after, _ | cause⟩
      · rcases perform_discard performed with ⟨names, -, -, -, rfl⟩ | ⟨-, rfl⟩
        · intro e found
          by_cases same : l = p.location here
          · rw [same, FileTree.get?_erase_self names.notRoot] at found
            cases found
          · rw [FileTree.get?_erase_ne same] at found
            exact .inr found
        · exact .refl _ l
      · have unchanged : after = t := by
          simp only [perform] at performed
          split at performed
          · cases performed
          · cases removed : t.remove here p <;> rw [removed] at performed <;> cases performed
            rfl
        rw [unchanged]
        exact .refl t l
    rw [List.map_cons, performAll]
    rcases performed : perform t here (.discard p) with ⟨after, _ | cause⟩
    · rw [performed] at first
      exact first.trans ih
    · rw [performed] at first
      exact first

namespace Index

variable {t t' : FileTree} {here l : Location} {i : Index}

/-- Whether the file at a location holds the document of an index. -/
def StoredAt (t : FileTree) (l : Location) (i : Index) : Prop :=
  ∃ e content text, t.get? l = some e ∧ e.content? = some content ∧
    Text.Utf8.toString? content = some text ∧ read? text.toList = some i

theorem storedAt_of_load? {path : Path} (loaded : load? t here path = some i) :
    StoredAt t (path.location here) i := by
  unfold load? FileTree.readText at loaded
  cases content : t.read here path with
  | error cause => simp [content, bind, Except.bind] at loaded
  | ok bytes =>
    obtain ⟨l, e, located, readable⟩ := FileTree.read_ok_iff.mp content
    cases decoded : Text.Utf8.toString? bytes with
    | none => simp [content, decoded, bind, Except.bind] at loaded
    | some text =>
      simp only [content, decoded, bind, Except.bind] at loaded
      have found := FileTree.locate_get? located
      rw [FileTree.locate_location located] at found
      exact ⟨e, bytes, text, found, readable, decoded, loaded⟩

theorem StoredAt.before (stored : StoredAt t' l i) (h : FileTree.NothingNewAt t t' l) :
    StoredAt t l i := by
  obtain ⟨e, content, text, found, readable, decoded, document⟩ := stored
  rcases h e found with rfl | found'
  · cases readable
  · exact ⟨e, content, text, found', readable, decoded, document⟩

/-- A file that was written with the document of an index, or a device, holds no other one. -/
theorem eq_of_written {e : Entry} {j : Index} {content : Bytes} {text : String}
    (written : (∃ d, e = .device d) ∨ ∃ mode, e = .file (Bytes.ofChars j.write) mode)
    (readable : e.content? = some content) (decoded : Text.Utf8.toString? content = some text)
    (document : read? text.toList = some i) : i = j := by
  rcases written with ⟨d, rfl⟩ | ⟨mode, rfl⟩
  · cases readable
    have empty : Text.Utf8.toString? [] = some "" := by decide +kernel
    rw [empty] at decoded
    cases decoded
    have none : read? "".toList = none := by decide +kernel
    rw [none] at document
    cases document
  · cases readable
    rw [Text.Utf8.toString?_ofChars] at decoded
    cases decoded
    rw [String.toList_ofList, read?_write] at document
    exact (Option.some.inj document).symm

end Index

namespace Cache

variable {t t' : FileTree} {here : Location} {c : Cache} {i : Index}

/-- However far the saving of a cache comes, the index then holds the old document or the one of
the cache. -/
theorem storedAt_saving
    (stored : Index.StoredAt (Effect.performAll t here c.saving).1 (c.indexPath.location here) i) :
    Index.StoredAt t (c.indexPath.location here) i ∨ i = c.index := by
  have grows := grows_of_makeDirs c.indexPath.parent?.toList t here
  rw [saving, Effect.performAll_append] at stored
  rcases makeDirs : Effect.performAll t here (c.indexPath.parent?.toList.map .makeDirs) with
    ⟨made, _ | fault⟩
  swap
  · rw [makeDirs] at stored grows
    exact .inl (stored.before (grows _).nothingNewAt)
  rw [makeDirs] at grows
  simp only [makeDirs, Effect.performAll, Effect.perform] at stored
  cases wrote : made.write here c.temporary (Bytes.ofChars c.index.write) with
  | error cause =>
    simp only [wrote] at stored
    exact .inl (stored.before (grows _).nothingNewAt)
  | ok written =>
    have atTemporary : ∀ e, written.get? (c.temporary.location here) = some e →
        (∃ d, e = .device d) ∨ ∃ mode, e = .file (Bytes.ofChars c.index.write) mode := by
      intro e found
      obtain ⟨names, -, ⟨⟨d, device⟩, rfl⟩ | ⟨mode, rfl⟩⟩ := FileTree.write_ok wrote
      · rw [device, Option.some.injEq] at found
        exact .inl ⟨d, found.symm⟩
      · rw [FileTree.get?_insert_self _ _ names.notRoot, Option.some.injEq] at found
        exact .inr ⟨mode, found.symm⟩
    have elsewhere : ∀ l, l ≠ c.temporary.location here → written.get? l = made.get? l := by
      intro l other
      obtain ⟨-, -, ⟨-, rfl⟩ | ⟨mode, rfl⟩⟩ := FileTree.write_ok wrote
      · rfl
      · exact FileTree.get?_insert_ne other
    simp only [wrote] at stored
    cases moved : written.rename here c.temporary c.indexPath with
    | error cause =>
      simp only [moved] at stored
      obtain ⟨e, content, text, found, readable, decoded, document⟩ := id stored
      by_cases same : c.indexPath.location here = c.temporary.location here
      · exact .inr (Index.eq_of_written (atTemporary e (same ▸ found)) readable decoded document)
      · refine .inl (Index.StoredAt.before ⟨e, content, text, ?_, readable, decoded, document⟩
          (grows _).nothingNewAt)
        rwa [← elsewhere _ same]
    | ok final =>
      simp only [moved] at stored
      obtain ⟨names, -, e', found', -, rfl⟩ := FileTree.rename_ok moved
      obtain ⟨e, content, text, found, readable, decoded, document⟩ := stored
      rw [FileTree.get?_insert_self _ _ names.notRoot, Option.some.injEq] at found
      subst found
      exact .inr (Index.eq_of_written (atTemporary e' found') readable decoded document)

/-- What a transaction does to the files are its effects in order. -/
theorem files_run (x : Transaction) (old : Cache) (t : FileTree) (here : Location) :
    (x.run old t here).1 = (Effect.performAll t here (x.before ++ x.after)).1 := by
  rw [Effect.performAll_append]
  unfold Transaction.run
  rcases Effect.performAll t here x.before with ⟨middle, _ | fault⟩ <;> rfl

theorem cache_run (x : Transaction) (old : Cache) (t : FileTree) (here : Location) :
    (x.run old t here).2.1 = old ∨ (x.run old t here).2.1 = x.cache := by
  unfold Transaction.run
  rcases Effect.performAll t here x.before with ⟨middle, _ | fault⟩
  · exact .inr rfl
  · exact .inl rfl

theorem answer_eq {α : Type} (x : Transaction) (old : Cache) (t : FileTree) (here : Location)
    (value : α) :
    (x.answer old t here value).files = (x.run old t here).1 ∧
      (x.answer old t here value).cache = (x.run old t here).2.1 := by
  unfold Transaction.answer
  rcases x.run old t here with ⟨files, c, _ | fault⟩ <;> exact ⟨rfl, rfl⟩

/-- However far a transaction comes that discards executables and saves its cache, the index then
holds the old document or the one of that cache. -/
theorem storedAt_run {x : Transaction} {old : Cache} {discarded : List Path}
    (effects : x.before ++ x.after = discarded.map .discard ++ x.cache.saving)
    (stored : Index.StoredAt (x.run old t here).1 (x.cache.indexPath.location here) i) :
    Index.StoredAt t (x.cache.indexPath.location here) i ∨ i = x.cache.index := by
  rw [files_run, effects, Effect.performAll_append] at stored
  have discards : FileTree.NothingNewAt t (Effect.performAll t here (discarded.map .discard)).1
      (x.cache.indexPath.location here) := Effect.nothingNewAt_discards discarded _
  rcases bare : Effect.performAll t here (discarded.map .discard) with ⟨middle, _ | fault⟩
  · rw [bare] at stored discards
    rcases storedAt_saving stored with before | same
    · exact .inl (before.before discards)
    · exact .inr same
  · rw [bare] at stored discards
    exact .inl (stored.before discards)

end Cache
end SimWorkbench
