import SimWorkbench.Proofs.Cache.Agreement
import SimWorkbench.Proofs.Cache.Staleness
import SimWorkbench.Proofs.Path.Absolute

/-!
# A cache whose process is killed

The process can be killed between two effects of a request and within one. A file that was being
written then holds a beginning of its content, some of the directories that were being made are
there; renaming and removing happen as a whole. The index is touched by one effect alone, the
renaming at the end, so that it gives the records from before the request or those from after it.
-/
namespace SimWorkbench

namespace Path

variable {p : Path} {here : Location}

/-- A path and what is appended to its spelling part in the last segment. -/
theorem location_extended (p : Path) (here : Location) (extension : String)
    (noSlash : '/' ∉ extension.toList) (notEmpty : extension.toList ≠ []) :
    ∃ base final, p.location here = (Path.mk final).names.foldl Location.enter base ∧
      (Path.mk (p.text ++ extension)).location here = Location.enter base (final ++ extension) ∧
      '/' ∉ final.toList := by
  have named : ∀ final : String, '/' ∉ final.toList →
      (Path.mk (final ++ extension)).names = [final ++ extension] ∧
        (Path.mk (final ++ extension)).isAbsolute = false := by
    intro final simple
    apply names_of_noSlash
    · simp [simple, noSlash]
    · intro empty
      have letters := congrArg String.toList empty
      rw [String.toList_append] at letters
      exact notEmpty (List.append_eq_nil_iff.mp letters).2
  by_cases slash : '/' ∈ p.text.toList
  · obtain ⟨after, before, split, simple⟩ :=
      List.eq_append_cons_of_mem (List.mem_reverse.mpr slash)
    have text : p.text.toList = before.reverse ++ '/' :: after.reverse := by
      rw [← List.reverse_reverse p.text.toList, split]
      simp
    have extended : (Path.mk (p.text ++ extension)).text.toList =
        before.reverse ++ '/' :: (after.reverse ++ extension.toList) := by
      simp [text]
    have absolute : (Path.mk (p.text ++ extension)).isAbsolute = p.isAbsolute := by
      simp only [isAbsolute, extended, text]
      cases before.reverse <;> rfl
    have last : Path.mk (String.ofList (after.reverse ++ extension.toList)) =
        ⟨String.ofList after.reverse ++ extension⟩ := by
      rw [mk.injEq, ← String.toList_inj]
      simp
    refine ⟨(Path.mk (String.ofList before.reverse)).names.foldl Location.enter (p.start here),
      String.ofList after.reverse, ?_, ?_, by simpa using simple⟩
    · rw [location, names_of_slash text, List.foldl_append]
    · rw [location, names_of_slash extended, List.foldl_append, start, absolute, last,
        (named _ (by simpa using simple)).1]
      rfl
  · have relative : p.isAbsolute = false := by
      cases text : p.text.toList with
      | nil => simp [isAbsolute, text]
      | cons c rest =>
        have : c ≠ '/' := by
          rintro rfl
          simp [text] at slash
        simp [isAbsolute, text, this]
    refine ⟨here, p.text, ?_, ?_, slash⟩
    · rw [location, start, relative]
      rfl
    · rw [location, start, (named _ slash).1, (named _ slash).2]
      rfl

/-- A name with an extension is not found where the bare name is. -/
theorem location_extended_ne (p : Path) (here : Location) {extension : String}
    (noSlash : '/' ∉ extension.toList) (long : 2 < extension.length) :
    (Path.mk (p.text ++ extension)).location here ≠ p.location here := by
  have notEmpty : extension.toList ≠ [] := by
    intro empty
    rw [← String.length_toList, empty] at long
    cases long
  obtain ⟨base, final, bare, extended, simple⟩ := location_extended p here extension noSlash notEmpty
  have name : Location.enter base (final ++ extension) = base ++ [final ++ extension] := by
    have different : ∀ dots : String, dots.length ≤ 2 → final ++ extension ≠ dots := by
      rintro dots short rfl
      rw [String.length_append] at short
      omega
    rw [Location.enter, if_neg (different _ (by decide)), if_neg (different _ (by decide))]
  rw [bare, extended, name]
  by_cases empty : final = ""
  · subst empty
    rw [names_of_empty (by simp)]
    intro same
    simpa using congrArg List.length same
  · rw [(names_of_noSlash simple empty).1, List.foldl_cons, List.foldl_nil, Location.enter]
    intro same
    have length := congrArg List.length same
    split at same
    · simp_all
    · split at same
      · simp_all
        omega
      · simp only [List.append_cancel_left_eq, List.cons.injEq, and_true] at same
        have := congrArg String.length same
        rw [String.length_append] at this
        omega

end Path

namespace Effect

/-- What the files can be when an effect was begun. -/
inductive Torn (here : Location) : FileTree → Effect → FileTree → Prop where
  /-- It was performed or refused. -/
  | whole (t : FileTree) (e : Effect) : Torn here t e (e.perform t here).1
  /-- A beginning of the content was written. -/
  | write {t t' : FileTree} {p : Path} {content : Bytes} (n : Nat)
      (written : t.write here p (content.take n) = .ok t') : Torn here t (.write p content) t'
  /-- Directories were made down to one on the way. -/
  | makeDirs (t : FileTree) {p above : Path} (onTheWay : above ∈ p.ancestors) :
      Torn here t (.makeDirs p) (t.makeDirs here above).1

/-- What the files can be when the process was killed during a sequence of effects. -/
inductive Killed (here : Location) : FileTree → List Effect → FileTree → Prop where
  | before (t : FileTree) (effects : List Effect) : Killed here t effects t
  | within {t t' : FileTree} {e : Effect} (rest : List Effect) (torn : Torn here t e t') :
      Killed here t (e :: rest) t'
  | later {t t' t'' : FileTree} {e : Effect} {rest : List Effect}
      (done : e.perform t here = (t', none)) (killed : Killed here t' rest t'') :
      Killed here t (e :: rest) t''

variable {t t' : FileTree} {here : Location}

theorem Torn.frame {e : Effect} (torn : Torn here t e t') :
    FileTree.KeepsDirectories t t' ∧ ∀ l, l ∉ e.touches here → FileTree.GrowsAt t t' l := by
  cases torn with
  | whole => exact perform_frame t here e
  | @write _ p content n written =>
    have frame := perform_frame t here (.write p (content.take n))
    simp only [perform, written] at frame
    exact frame
  | @makeDirs p above onTheWay =>
    have grows := FileTree.makeDirs_grows t here above
    exact ⟨grows.keepsDirectories, fun l _ => grows l⟩

/-- A sequence of effects that was begun has changed files at the locations of its paths alone. -/
theorem Killed.frame {effects : List Effect} (killed : Killed here t effects t') :
    FileTree.KeepsDirectories t t' ∧
      ∀ l, (∀ e ∈ effects, l ∉ e.touches here) → FileTree.GrowsAt t t' l := by
  induction killed with
  | before t effects => exact ⟨.refl t, fun l _ => .inl rfl⟩
  | within rest torn =>
    obtain ⟨kept, grows⟩ := torn.frame
    exact ⟨kept, fun l apart => grows l (apart _ (by simp))⟩
  | @later t t' t'' e rest done killed ih =>
    obtain ⟨kept, grows⟩ := perform_frame t here e
    rw [done] at kept grows
    obtain ⟨keptRest, growsRest⟩ := ih
    refine ⟨kept.trans keptRest, fun l apart => ?_⟩
    exact (grows l (apart e (by simp))).trans
      (growsRest l fun other member => apart other (by simp [member]))

/-- Who is killed during two sequences was killed during the first or had finished it. -/
theorem Killed.append {first rest : List Effect} (killed : Killed here t (first ++ rest) t') :
    Killed here t first t' ∨
      ∃ middle, performAll t here first = (middle, none) ∧ Killed here middle rest t' := by
  induction first generalizing t with
  | nil => exact .inr ⟨t, by rw [performAll], killed⟩
  | cons e first ih =>
    cases killed with
    | before => exact .inl (.before _ _)
    | within _ torn => exact .inl (.within _ torn)
    | later done killed =>
      rcases ih killed with inFirst | ⟨middle, finished, inRest⟩
      · exact .inl (.later done inFirst)
      · exact .inr ⟨middle, by rw [performAll, done]; exact finished, inRest⟩

end Effect

namespace Cache

variable {digest : Digest} {here : Location} {files files' : FileTree} {c : Cache}
  {request : Request} {x : Change}

/-- The effects of a request. -/
def effectsOf (digest : Digest) (here : Location) (files : FileTree) (c : Cache)
    (request : Request) : List Effect :=
  ((change? digest here files c request).map Change.effects).getD []

/-- Whether the index holds the records of the cache; where there is no index, there are none. -/
def Matches (here : Location) (files : FileTree) (c : Cache) : Prop :=
  (∃ i, Index.load? files here c.indexPath = some i ∧ i.environment = c.environment ∧
      ofIndex c.indexPath c.environment i = c) ∨
    Index.load? files here c.indexPath = none ∧ c = c.emptied

/-- Whether the directories on the way to the index are there if an index lies at its end. -/
def InPlace (here : Location) (files : FileTree) (c : Cache) : Prop :=
  ∀ i, Index.StoredAt files (c.indexPath.location here) i → files.Reached here c.indexPath

theorem temporary_ne_index (c : Cache) (here : Location) :
    c.temporary.location here ≠ c.indexPath.location here :=
  Path.location_extended_ne c.indexPath here (by decide) (by decide)

/-- A cache whose document lies in its index matches it. -/
theorem Matches.of_document (inOrder : c.InOrder)
    (document : files.read here c.indexPath = .ok (Bytes.ofChars c.index.write)) :
    Matches here files c ∧
      Cache.openAt files here c.indexPath c.environment = (files, .ok c) := by
  have loaded := load?_of_document document
  have opened := openAt_of_load? inOrder loaded
  refine ⟨.inl ⟨c.index, loaded, rfl, ?_⟩, opened⟩
  simp only [openAt, loaded] at opened
  rw [if_pos (show c.index.environment = c.environment from rfl)] at opened
  exact Except.ok.inj (congrArg Prod.snd opened)

/-- A cache that matches its index is opened again as long as the file there is kept. -/
theorem Matches.reopened (same : Matches here files c) (inPlace : InPlace here files c)
    (directories : FileTree.KeepsDirectories files files')
    (grows : FileTree.GrowsAt files files' (c.indexPath.location here)) :
    Cache.openAt files' here c.indexPath c.environment = (files', .ok c) := by
  rcases same with ⟨i, loaded, built, isCache⟩ | ⟨absent, empty⟩
  · have loaded' := Index.load?_mono directories grows loaded
    simp only [openAt, loaded', if_pos built, isCache]
  · have absent' : Index.load? files' here c.indexPath = none := by
      by_contra present
      obtain ⟨i, loaded⟩ := Option.ne_none_iff_exists'.mp present
      -- the document was there before, and so was the way to it
      have reached := inPlace i ((Index.storedAt_of_load? loaded).before grows.nothingNewAt)
      have readable : (files'.read here c.indexPath).toOption =
          (files.read here c.indexPath).toOption :=
        FileTree.toOption_read_congr Iff.rfl (reached.mono directories) reached grows.bytesAt?
      rw [load?_congr readable, absent] at loaded
      cases loaded
    simp only [openAt, absent']
    rw [empty]
    rfl

/-- In every run from no index the cache matches its index. -/
theorem Run.matches {indexPath : Path} {environment : String} {files₀ : FileTree} {deeds : List Deed}
    (absent : Index.load? files₀ here indexPath = none)
    (run : Run digest here indexPath environment files₀ deeds files c) : Matches here files c := by
  obtain ⟨tracks, -⟩ := run.tracks absent
  obtain rfl := tracks.path
  obtain rfl := tracks.built
  rcases tracks.saved with saved | ⟨absent, empty⟩
  · refine .inl ⟨c.index, saved, rfl, ?_⟩
    rw [ofIndex, index, Keyed.ofList_ordered tracks.entries.ordered,
      Keyed.ofList_ordered tracks.misses.ordered]
  · exact .inr ⟨absent, empty⟩

/-- All effects of a change but the last one, by which the index is replaced. -/
def Change.preparing (x : Change) : List Effect :=
  x.deletions ++ (x.cache.indexPath.parent?.toList.map .makeDirs ++
    [.write x.cache.temporary (Bytes.ofChars x.cache.index.write)])

theorem Change.effects_eq (x : Change) :
    x.effects = x.preparing ++ [.rename x.cache.temporary x.cache.indexPath] := by
  simp [effects, preparing, saving]

/-- What prepares a new index leaves the old one alone, if no executable is the index. -/
theorem Change.preparing_apart
    (apart : ∀ p ∈ x.discarded, p.location here ≠ x.cache.indexPath.location here) :
    ∀ e ∈ x.preparing, x.cache.indexPath.location here ∉ e.touches here := by
  intro e member
  simp only [preparing, deletions, List.mem_append, List.mem_map, List.mem_singleton] at member
  rcases member with ⟨p, isDiscarded, rfl⟩ | ⟨p, -, rfl⟩ | rfl
  · simpa [Effect.touches] using (apart p isDiscarded).symm
  · simp [Effect.touches]
  · simpa [Effect.touches] using (temporary_ne_index x.cache here).symm

/-- A change that was killed has kept the index or is through. -/
theorem Change.killed_cases
    (apart : ∀ p ∈ x.discarded, p.location here ≠ x.cache.indexPath.location here)
    (killed : Effect.Killed here files x.effects files') :
    (FileTree.KeepsDirectories files files' ∧
        FileTree.GrowsAt files files' (x.cache.indexPath.location here)) ∨
      Effect.performAll files here x.effects = (files', none) := by
  rw [effects_eq] at killed ⊢
  rcases killed.append with preparing | ⟨middle, prepared, killed⟩
  · obtain ⟨kept, grows⟩ := preparing.frame
    exact .inl ⟨kept, grows _ (preparing_apart apart)⟩
  · obtain ⟨kept, grows⟩ := Effect.performAll_frame x.preparing files here
    rw [prepared] at kept grows
    have unreplaced := grows _ (preparing_apart apart)
    have outcome : files' = middle ∨
        (Effect.rename x.cache.temporary x.cache.indexPath).perform middle here =
          (files', none) := by
      cases killed with
      | before => exact .inl rfl
      | within _ torn =>
        cases torn with
        | whole =>
          simp only [Effect.perform]
          cases middle.rename here x.cache.temporary x.cache.indexPath with
          | error cause => exact .inl rfl
          | ok final => exact .inr rfl
      | later done killed =>
        cases killed with
        | before => exact .inr done
    rcases outcome with rfl | done
    · exact .inl ⟨kept, unreplaced⟩
    · right
      rw [Effect.performAll_append, prepared]
      simp only [Effect.performAll, done]

/-- What a request discards are executables of entries. -/
theorem discarded_of_change (changed : change? digest here files c request = some x) :
    ∀ p ∈ x.discarded, ∃ d ∈ c.entries, p = d.artifact := by
  intro p member
  cases request with
  | lookup source =>
    simp only [change?] at changed
    split at changed
    · cases changed
    · rename_i d found
      split at changed <;> cases changed
      exact ⟨d, (mem_of_found found).1, by simpa using member⟩
  | invalidate source =>
    simp only [change?] at changed
    split at changed
    · rename_i d found
      cases changed
      exact ⟨d, (mem_of_found found).1, by simpa using member⟩
    · split at changed <;> cases changed
      cases member
  | store | recordMiss =>
    cases changed
    cases member
  | clear =>
    cases changed
    obtain ⟨d, isEntry, rfl⟩ := List.mem_map.mp member
    exact ⟨d, isEntry, rfl⟩
  | isStale | isMiss | list => cases changed

/-- A cache that matches its index is in order. -/
theorem Matches.inOrder (same : Matches here files c) : c.InOrder := by
  rcases same with ⟨i, -, -, isCache⟩ | ⟨-, empty⟩
  · rw [← isCache]
    exact .ofIndex _ _ i
  · rw [empty]
    exact .empty _ _

/-- After a kill the index gives the records from before the request or from after it. -/
theorem reopened_of_killed (same : Matches here files c) (inPlace : InPlace here files c)
    (writable : Writable here c.indexPath files)
    (apart : ∀ d ∈ c.entries, d.artifact.location here ≠ c.indexPath.location here)
    (killed : Effect.Killed here files (effectsOf digest here files c request) files') :
    ∃ c', (c' = c ∨ c' = (serve digest here files c request).cache) ∧
      Cache.openAt files' here c.indexPath c.environment = (files', .ok c') := by
  unfold effectsOf at killed
  cases changed : change? digest here files c request with
  | none =>
    rw [changed] at killed
    cases killed with
    | before => exact ⟨c, .inl rfl, same.reopened inPlace (.refl _) (.inl rfl)⟩
  | some x =>
    obtain ⟨path, built, order⟩ := change?_spec changed
    have apart' : ∀ p ∈ x.discarded, p.location here ≠ x.cache.indexPath.location here := by
      intro p member
      obtain ⟨d, isEntry, rfl⟩ := discarded_of_change changed p member
      rw [path]
      exact apart d isEntry
    rw [changed] at killed
    rcases Change.killed_cases apart' killed with ⟨kept, grows⟩ | performed
    · rw [path] at grows
      exact ⟨c, .inl rfl, same.reopened inPlace kept grows⟩
    · obtain ⟨bare, deleted, -⟩ := Effect.performAll_append_ok performed
      refine ⟨x.cache, .inr ?_, ?_⟩
      · rw [(serve_of_change changed).2, Change.live, if_neg (by simp [Change.Hindered, deleted])]
      · rw [← path, ← built]
        exact openAt_of_performed (order same.inOrder) (path ▸ writable) performed

/-- What the digest was taken over when an entry was stored, and what it would be taken over now. -/
structure Distinguished (digest : Digest) (here : Location) (past now : FileTree) (d : Descriptor) :
    Prop where
  /-- The digest tells the two apart. -/
  uncollided : digest (Fingerprint.stream (Fingerprint.readings past here [d.source, d.artifact])) =
      digest (Fingerprint.stream (Fingerprint.readings now here [d.source, d.artifact])) →
    Fingerprint.stream (Fingerprint.readings past here [d.source, d.artifact]) =
      Fingerprint.stream (Fingerprint.readings now here [d.source, d.artifact])
  didFit : Fingerprint.Fitting past here [d.source, d.artifact]
  fits : Fingerprint.Fitting now here [d.source, d.artifact]

/-- An entry that was stored with both files readable is out of date when its executable is gone. -/
theorem outdated_of_gone {past now : FileTree} {source artifact : Path} {package : String}
    {d : Descriptor} {content executable : Bytes}
    (stored : d = entryOf digest past here source artifact package)
    (hadSource : past.read here d.source = .ok content)
    (hadArtifact : past.read here d.artifact = .ok executable)
    (gone : (now.read here d.artifact).toOption = none)
    (distinguished : Distinguished digest here past now d) :
    outdated digest now here d = true := by
  have taken : d.fingerprint = Fingerprint.now digest past here [d.source, d.artifact] := by
    rw [stored]
    rfl
  have comparable := Fingerprint.Comparable.of_fitting distinguished.uncollided
    distinguished.didFit distinguished.fits
  rw [outdated_iff_changed taken hadSource hadArtifact comparable]
  right
  intro same
  rw [same] at gone
  cases gone

/-- Wherever a request is killed, its index opens with the records from before or from after it, and
an entry that was stored with both files readable is not found while its executable is gone. -/
theorem killed_reopens (same : Matches here files c) (inPlace : InPlace here files c)
    (writable : Writable here c.indexPath files)
    (apart : ∀ d ∈ c.entries, d.artifact.location here ≠ c.indexPath.location here)
    (killed : Effect.Killed here files (effectsOf digest here files c request) files') :
    ∃ c', (c' = c ∨ c' = (serve digest here files c request).cache) ∧
      Cache.openAt files' here c.indexPath c.environment = (files', .ok c') ∧
      ∀ d ∈ c'.entries, ∀ past source artifact package content executable later,
        d = entryOf digest past here source artifact package →
        past.read here d.source = .ok content → past.read here d.artifact = .ok executable →
        (FileTree.read later here d.artifact).toOption = none →
        Distinguished digest here past later d →
        outdated digest later here d = true ∧
          ∀ model, (c'.lookup digest later here model).answer ≠ some d := by
  obtain ⟨c', either, opened⟩ := reopened_of_killed same inPlace writable apart killed
  refine ⟨c', either, opened, ?_⟩
  intro d _ past source artifact package content executable later stored hadSource hadArtifact gone
    distinguished
  have stale := outdated_of_gone stored hadSource hadArtifact gone distinguished
  refine ⟨stale, fun model found => ?_⟩
  cases known : c'.entry? here model with
  | none => simp [lookup, known] at found
  | some e =>
    by_cases isStale : outdated digest later here e = true
    · simp [lookup, known, isStale] at found
    · simp only [lookup, known, if_neg isStale, Option.some.injEq] at found
      exact isStale (found ▸ stale)

/-- A cache with one entry. -/
def stockedCache : Cache := ⟨⟨"/i"⟩, "x", [entryOf Bytes.toHex stocked [] ⟨"/m.xml"⟩ ⟨"/a"⟩ "p"], []⟩

/-- The document that keeps it. -/
def stockedDocument : Bytes := Bytes.ofChars stockedCache.index.write

/-- The document that is written when the entry is invalidated. -/
def strippedDocument : Bytes := Bytes.ofChars (stockedCache.withoutEntry [] ⟨"/m.xml"⟩).index.write

/-- The files when the entry was saved, its executable was deleted, and five bytes of the next
document were written. -/
def interrupted : FileTree :=
  ⟨[(["i.tmp"], .file (strippedDocument.take 5) .plain), (["i"], .file stockedDocument .plain),
    (["m.xml"], .file [1] .plain)]⟩

/-- An invalidation that is killed while it writes the new document: the index gives the old entry,
and no lookup finds it. -/
theorem killed_reopens_interrupted :
    ∃ d ∈ stockedCache.entries,
      Cache.openAt interrupted [] ⟨"/i"⟩ "x" = (interrupted, .ok stockedCache) ∧
      outdated Bytes.toHex interrupted [] d = true ∧
      ∀ model, (stockedCache.lookup Bytes.toHex interrupted [] model).answer ≠ some d := by
  have inOrder : stockedCache.InOrder := ⟨List.pairwise_singleton _ _, .nil⟩
  let saved : FileTree := stocked.insert ["i"] (.file stockedDocument .plain)
  let bare : FileTree := saved.erase ["a"]
  have killed : Effect.Killed [] saved
      (effectsOf Bytes.toHex [] saved stockedCache (.invalidate ⟨"/m.xml"⟩)) interrupted := by
    have effects : effectsOf Bytes.toHex [] saved stockedCache (.invalidate ⟨"/m.xml"⟩) =
        [.discard ⟨"/a"⟩, .makeDirs ⟨"/"⟩, .write ⟨"/i.tmp"⟩ strippedDocument,
          .rename ⟨"/i.tmp"⟩ ⟨"/i"⟩] := by decide +kernel
    have deleted : (Effect.discard ⟨"/a"⟩).perform saved [] = (bare, none) := by decide +kernel
    have made : (Effect.makeDirs ⟨"/"⟩).perform bare [] = (bare, none) := by decide +kernel
    rw [effects]
    refine .later deleted (.later made (.within _ (.write 5 ?_)))
    decide +kernel
  obtain ⟨matched, -⟩ := @Matches.of_document [] saved _ inOrder (by decide +kernel)
  obtain ⟨c', -, opened, gone⟩ := killed_reopens matched
    (fun _ _ => ⟨rfl, [], "i", [], by decide +kernel, rfl⟩)
    (fun d => by rw [show saved.get? _ = none by decide +kernel]; simp)
    (by decide +kernel) killed
  obtain ⟨-, now⟩ := @Matches.of_document [] interrupted _ inOrder (by decide +kernel)
  obtain rfl : c' = stockedCache := Except.ok.inj (congrArg Prod.snd (opened.symm.trans now))
  refine ⟨_, List.mem_singleton_self _, now, ?_⟩
  exact gone _ (List.mem_singleton_self _) stocked ⟨"/m.xml"⟩ ⟨"/a"⟩ "p" [1] [2] interrupted rfl
    (by decide +kernel) (by decide +kernel) (by decide +kernel)
    ⟨by decide +kernel, by decide +kernel, by decide +kernel⟩

/-- Whether, in a run from the given files, a kill during a request can leave an index that opens
with the misses from neither before nor after it. -/
def Mixes (files₀ : FileTree) (indexPath : Path) (request : Request) : Prop :=
  ∃ deeds files c files' c', Run Bytes.toHex [] indexPath "x" files₀ deeds files c ∧
    Matches [] files c ∧
    Effect.Killed [] files (effectsOf Bytes.toHex [] files c request) files' ∧
    Cache.openAt files' [] indexPath "x" = (files', .ok c') ∧
    c'.misses ≠ c.misses ∧ c'.misses ≠ (serve Bytes.toHex [] files c request).cache.misses

/-- Two models. -/
def models : FileTree := ⟨[(["m.xml"], .file [1] .plain), (["n.xml"], .file [2] .plain)]⟩

/-- The miss of one of them is recorded in an empty cache. -/
def afterMiss : Answered Answer :=
  serve Bytes.toHex [] models ⟨⟨"/i"⟩, "x", [], []⟩ (.recordMiss ⟨"/n.xml"⟩)

/-- The index itself is stored as the executable of the other one. -/
def afterStore : Answered Answer :=
  serve Bytes.toHex [] afterMiss.files afterMiss.cache (.store ⟨"/m.xml"⟩ ⟨"/i"⟩ "p")

/-- A cache that knows the miss. -/
def missCache (indexPath : Path) : Cache :=
  ⟨indexPath, "x", [], [missOf Bytes.toHex models [] ⟨"/n.xml"⟩]⟩

/-- The file that keeps it, with another entry beside it. -/
def missFiles (beside : List (Location × Entry)) : FileTree :=
  ⟨(["i"], .file (Bytes.ofChars (missCache ⟨"/i"⟩).index.write) .plain) :: beside⟩

/-- Where the executable of an entry is the index, a kill after its deletion loses all records. -/
theorem mixes_self : Mixes models ⟨"/i"⟩ (.invalidate ⟨"/m.xml"⟩) := by
  have absent : Index.load? models [] ⟨"/i"⟩ = none := by decide +kernel
  have opened : Run Bytes.toHex [] ⟨"/i"⟩ "x" models [] models ⟨⟨"/i"⟩, "x", [], []⟩ :=
    .opened (by decide +kernel)
  have missed := opened.request (.recordMiss ⟨"/n.xml"⟩)
    (fun d => by rw [show models.get? _ = none by decide +kernel]; simp)
    (show afterMiss.answer.isRefused = false by decide +kernel)
  have stored := missed.request (.store ⟨"/m.xml"⟩ ⟨"/i"⟩ "p")
    (fun d => by
      change afterMiss.files.get? _ ≠ _
      rw [show afterMiss.files.get? _ = none by decide +kernel]
      simp)
    (show afterStore.answer.isRefused = false by decide +kernel)
  have effects : effectsOf Bytes.toHex [] afterStore.files afterStore.cache (.invalidate ⟨"/m.xml"⟩) =
      .discard ⟨"/i"⟩ :: (afterStore.cache.withoutEntry [] ⟨"/m.xml"⟩).saving := by
    decide +kernel
  have deleted : ((Effect.discard ⟨"/i"⟩).perform afterStore.files []).1 =
      afterStore.files.erase ["i"] := by decide +kernel
  refine ⟨_, afterStore.files, afterStore.cache, afterStore.files.erase ["i"],
    ⟨⟨"/i"⟩, "x", [], []⟩, stored, stored.matches absent, ?_, ?_, ?_, ?_⟩
  · rw [effects, ← deleted]
    exact .within _ (.whole _ _)
  · decide +kernel
  · decide +kernel
  · decide +kernel

/-- Where an index cannot be reached because a directory on the way is missing, a kill after that
directory was made uncovers its records. -/
theorem mixes_uncovered : Mixes (missFiles []) ⟨"/a/../i"⟩ (.recordMiss ⟨"/m.xml"⟩) := by
  have made : ((Effect.makeDirs ⟨"/a/.."⟩).perform (missFiles []) []).1 =
      (missFiles []).insert ["a"] .directory := by decide +kernel
  obtain ⟨-, opened⟩ := @Matches.of_document [] ((missFiles []).insert ["a"] .directory)
    (missCache ⟨"/a/../i"⟩) ⟨.nil, List.pairwise_singleton _ _⟩ (by decide +kernel)
  refine ⟨[], missFiles [], ⟨⟨"/a/../i"⟩, "x", [], []⟩, (missFiles []).insert ["a"] .directory,
    missCache ⟨"/a/../i"⟩, .opened (by decide +kernel), .inr ⟨by decide +kernel, rfl⟩, ?_, opened,
    by decide +kernel, by decide +kernel⟩
  rw [← made]
  exact .within _ (.whole _ _)

/-- Where a device lies under the name of the temporary, it takes the place of the index. -/
theorem mixes_device :
    Mixes (missFiles [(["i.tmp"], .device .null)]) ⟨"/i"⟩ (.recordMiss ⟨"/m.xml"⟩) := by
  set files := missFiles [(["i.tmp"], .device .null)]
  obtain ⟨matched, opened⟩ := @Matches.of_document [] files (missCache ⟨"/i"⟩)
    ⟨.nil, List.pairwise_singleton _ _⟩ (by decide +kernel)
  let document : Bytes := Bytes.ofChars
    ((missCache ⟨"/i"⟩).withMiss (missOf Bytes.toHex files [] ⟨"/m.xml"⟩)).index.write
  have effects : effectsOf Bytes.toHex [] files (missCache ⟨"/i"⟩) (.recordMiss ⟨"/m.xml"⟩) =
      [.makeDirs ⟨"/"⟩, .write ⟨"/i.tmp"⟩ document, .rename ⟨"/i.tmp"⟩ ⟨"/i"⟩] := by
    decide +kernel
  have swallowed : (Effect.write ⟨"/i.tmp"⟩ document).perform files [] = (files, none) := by
    decide +kernel
  have made : (Effect.makeDirs ⟨"/"⟩).perform files [] = (files, none) := by decide +kernel
  have renamed : ((Effect.rename ⟨"/i.tmp"⟩ ⟨"/i"⟩).perform files []).1 =
      ⟨[(["i"], .device .null)]⟩ := by decide +kernel
  refine ⟨[], files, missCache ⟨"/i"⟩, ⟨[(["i"], .device .null)]⟩, ⟨⟨"/i"⟩, "x", [], []⟩,
    .opened opened, matched, ?_, by decide +kernel, by decide +kernel, by decide +kernel⟩
  rw [effects, ← renamed]
  exact .later made (.later swallowed (.within _ (.whole _ _)))

/-- A kill can lose or mix up records: when an executable of the cache is the index itself, when a
directory on the way uncovers an index, and when a device lies under the name of the temporary. -/
theorem mixes_when_unprotected :
    Mixes models ⟨"/i"⟩ (.invalidate ⟨"/m.xml"⟩) ∧
      Mixes (missFiles []) ⟨"/a/../i"⟩ (.recordMiss ⟨"/m.xml"⟩) ∧
      Mixes (missFiles [(["i.tmp"], .device .null)]) ⟨"/i"⟩ (.recordMiss ⟨"/m.xml"⟩) :=
  ⟨mixes_self, mixes_uncovered, mixes_device⟩

end Cache
end SimWorkbench
