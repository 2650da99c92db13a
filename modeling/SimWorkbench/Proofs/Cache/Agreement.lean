import SimWorkbench.Proofs.Cache.Change

/-!
# When cache and index agree

A cache agrees with its index when a fresh open of the index would give it. As long as the index can
be written, every request keeps them agreed, even if an executable cannot be deleted while the cache
is cleared. The exception are requests that take out one entry: it leaves the memory before its
executable is deleted, and a refusal there ends the request before the index is written.
-/
namespace SimWorkbench

/-- A document that was in the index is still there where files are kept. -/
theorem Index.load?_mono {t t' : FileTree} {here : Location} {path : Path} {i : Index}
    (kept : FileTree.KeepsDirectories t t') (grows : FileTree.GrowsAt t t' (path.location here))
    (loaded : load? t here path = some i) : load? t' here path = some i := by
  unfold load? FileTree.readText at loaded ⊢
  cases content : t.read here path with
  | error cause => simp [content, bind, Except.bind] at loaded
  | ok bytes =>
    rw [content] at loaded
    rw [FileTree.read_mono kept grows content]
    exact loaded

namespace Cache

variable {digest : Digest} {here : Location} {files files' : FileTree} {c : Cache}
  {request : Request} {x : Change}

/-- Whether a fresh open of the index, in the same environment, lists what the cache lists. -/
def Agreed (here : Location) (files : FileTree) (c : Cache) : Prop :=
  (openAt files here c.indexPath c.environment).2 = .ok c

/-- Whether the index can be written when it comes to that. -/
def Change.Saves (x : Change) (here : Location) (files : FileTree) : Prop :=
  ∀ bare, Effect.performAll files here x.deletions = (bare, none) →
    (Effect.performAll bare here x.cache.saving).2 = none

/-- Whether a request takes out an entry whose executable cannot be deleted. -/
def Strands (digest : Digest) (here : Location) (files : FileTree) (c : Cache)
    (request : Request) : Prop :=
  ∃ source d, c.entry? here source = some d ∧
    (request = .invalidate source ∨
      request = .lookup source ∧ outdated digest files here d = true) ∧
    (Effect.perform files here (.discard d.artifact)).2 ≠ none

/-- A cache that agrees with its index was loaded from it or knows nothing. -/
theorem Agreed.loaded_or_empty (agreed : Agreed here files c) :
    (∃ i, Index.load? files here c.indexPath = some i ∧ i.environment = c.environment) ∨
      c = c.emptied := by
  unfold Agreed openAt at agreed
  cases loaded : Index.load? files here c.indexPath with
  | none =>
    rw [loaded] at agreed
    exact .inr (Except.ok.inj agreed).symm
  | some i =>
    by_cases same : i.environment = c.environment
    · exact .inl ⟨i, rfl, same⟩
    · simp only [loaded, if_neg same] at agreed
      unfold Cache.clear Transaction.answer at agreed
      rcases ran : (ofIndex c.indexPath c.environment i).clearing.run
        (ofIndex c.indexPath c.environment i) files here with ⟨after, c', _ | fault⟩
      · simp only [ran] at agreed
        obtain ⟨isCache, -⟩ := Transaction.run_ok ran
        cases agreed
        exact .inr isCache
      · simp only [ran] at agreed
        cases agreed

/-- A cache with records agrees with its index as long as files there are kept. -/
theorem Agreed.kept (agreed : Agreed here files c) (records : c ≠ c.emptied)
    (directories : FileTree.KeepsDirectories files files')
    (grows : FileTree.GrowsAt files files' (c.indexPath.location here)) :
    Agreed here files' c := by
  rcases agreed.loaded_or_empty with ⟨i, loaded, same⟩ | empty
  · have loaded' := Index.load?_mono directories grows loaded
    unfold Agreed openAt at agreed ⊢
    simp only [loaded, if_pos same] at agreed
    simp only [loaded', if_pos same]
    exact agreed
  · exact absurd empty records

/-- A cache with records that agrees with its index is opened again as it is. -/
theorem Agreed.opened (agreed : Agreed here files c) (records : c ≠ c.emptied) :
    openAt files here c.indexPath c.environment = (files, .ok c) := by
  rcases agreed.loaded_or_empty with ⟨i, loaded, same⟩ | empty
  · unfold Agreed openAt at agreed
    unfold openAt
    simp only [loaded, if_pos same] at agreed ⊢
    rw [agreed]
  · exact absurd empty records

/-- What is opened is of the environment it is opened in. -/
theorem environment_of_openAt {path : Path} {environment : String}
    (opened : (openAt files here path environment).2 = .ok c) : c.environment = environment := by
  have lasting : Law.Lasting fun _ _ _ => True :=
    ⟨fun _ => trivial, fun _ _ => trivial, fun _ _ => trivial, fun _ => trivial⟩
  have index : Law.OfIndex (fun _ _ _ => True) here path files := fun _ _ => trivial
  exact ((index.openAt lasting environment).2 c opened).built

/-- A change that discards nothing is not hindered. -/
theorem not_hindered {c' : Cache} {waits : Bool} :
    ¬ (Change.mk [] c' waits).Hindered here files := by
  unfold Change.Hindered Change.deletions
  rw [List.map_nil, Effect.performAll]
  exact not_not_intro rfl

theorem single_hindered {artifact : Path} {c' : Cache} {waits : Bool} :
    (Change.mk [artifact] c' waits).Hindered here files ↔
      (Effect.perform files here (.discard artifact)).2 ≠ none := by
  unfold Change.Hindered Change.deletions
  rw [List.map_cons, List.map_nil, Effect.performAll]
  rcases Effect.perform files here (.discard artifact) with ⟨after, _ | cause⟩ <;>
    simp [Effect.performAll]

/-- A change whose lists do not wait is hindered exactly where its request strands an entry. -/
theorem strands_iff (changed : change? digest here files c request = some x) :
    Strands digest here files c request ↔ x.waits = false ∧ x.Hindered here files := by
  constructor
  · rintro ⟨source, d, found, rfl | ⟨rfl, stale⟩, refused⟩
    · simp only [change?, found, Option.some.injEq] at changed
      subst changed
      exact ⟨rfl, single_hindered.mpr refused⟩
    · simp only [change?, found, stale, if_true, Option.some.injEq] at changed
      subst changed
      exact ⟨rfl, single_hindered.mpr refused⟩
  · rintro ⟨eager, hindered⟩
    cases request with
    | lookup source =>
      simp only [change?] at changed
      split at changed
      · cases changed
      · rename_i d found
        split at changed <;> cases changed
        rename_i stale
        exact ⟨source, d, found, .inr ⟨rfl, stale⟩, single_hindered.mp hindered⟩
    | invalidate source =>
      simp only [change?] at changed
      split at changed
      · rename_i d found
        cases changed
        exact ⟨source, d, found, .inl rfl, single_hindered.mp hindered⟩
      · split at changed <;> cases changed
        exact absurd hindered not_hindered
    | store | recordMiss =>
      cases changed
      exact absurd hindered not_hindered
    | clear =>
      cases changed
      cases eager
    | isStale | isMiss | list => cases changed

/-- A request that strands an entry changes the lists in memory alone. -/
theorem Strands.left (strands : Strands digest here files c request) :
    (serve digest here files c request).files = files ∧
      (serve digest here files c request).cache.indexPath = c.indexPath ∧
      (serve digest here files c request).cache.environment = c.environment ∧
      (serve digest here files c request).cache ≠ c := by
  obtain ⟨source, d, found, asked, refused⟩ := strands
  have differs : ∀ c' : Cache, Cache.entry? c' here source = none → c' ≠ c := by
    rintro c' missing rfl
    rw [missing] at found
    cases found
  have unswept : ∀ c' : Cache, c'.swept here [d.artifact] files = files := by
    intro c'
    have same := Effect.perform_discard_refused refused
    rw [swept, List.map_cons, List.cons_append, Effect.performAll]
    rcases performed : Effect.perform files here (.discard d.artifact) with ⟨after, _ | cause⟩
    · exact absurd (by rw [performed]) refused
    · rw [performed] at same
      exact same
  rcases asked with rfl | ⟨rfl, stale⟩
  · obtain ⟨left, kept⟩ := invalidate_of_found files found
    simp only [serve, settle, left, kept]
    exact ⟨unswept _, rfl, rfl, differs _ (by simp [withoutEntry, Cache.entry?, Keyed.get?_drop])⟩
  · simp only [serve, lookup_of_outdated found stale]
    exact ⟨unswept _, rfl, rfl, differs _ (by simp [withoutEntry, Cache.entry?, Keyed.get?_drop])⟩

/-- A request that strands an entry leaves cache and index in disagreement. -/
theorem Strands.disagree (strands : Strands digest here files c request)
    (agreed : Agreed here files c) :
    ¬ Agreed here (serve digest here files c request).files
      (serve digest here files c request).cache := by
  intro after
  obtain ⟨left, path, built, differs⟩ := strands.left
  unfold Agreed at after
  rw [left, path, built] at after
  exact differs (Except.ok.inj (after.symm.trans agreed))

/-- Where a cache is cleared and cannot delete all executables, its index is kept. -/
theorem Agreed.clear_hindered (agreed : Agreed here files c)
    (apart : ∀ d ∈ c.entries, d.artifact.location here ≠ c.indexPath.location here)
    (hindered : (Change.mk (c.entries.map Descriptor.artifact) c.emptied true).Hindered here files) :
    Agreed here (serve digest here files c .clear).files (serve digest here files c .clear).cache := by
  obtain ⟨left, kept⟩ := @serve_of_change digest here files c .clear _ rfl
  set x : Change := ⟨c.entries.map Descriptor.artifact, c.emptied, true⟩
  have records : c ≠ c.emptied := by
    intro empty
    have none : c.entries = [] := congrArg Cache.entries empty
    apply hindered
    simp [x, Change.deletions, none, Effect.performAll]
  have stopped : Effect.performAll files here x.effects =
      Effect.performAll files here x.deletions := by
    rw [Change.effects, Effect.performAll_append]
    rcases deleted : Effect.performAll files here x.deletions with ⟨bare, _ | fault⟩
    · exact absurd (by rw [deleted]) hindered
    · rfl
  obtain ⟨directories, grows⟩ := Effect.performAll_frame x.deletions files here
  have atIndex : ∀ e ∈ x.deletions, c.indexPath.location here ∉ e.touches here := by
    intro e member
    obtain ⟨p, isArtifact, rfl⟩ := List.mem_map.mp member
    obtain ⟨d, isEntry, rfl⟩ := List.mem_map.mp isArtifact
    simpa [Effect.touches] using (apart d isEntry).symm
  rw [left, kept, Change.live, if_pos ⟨rfl, hindered⟩, stopped]
  exact agreed.kept records directories (grows _ atIndex)

/-- As long as the index can be written, a request leaves cache and index agreed exactly if it does
not take out an entry whose executable cannot be deleted. When the cache is cleared, no executable
may be the index itself. -/
theorem agreed_serve_iff (agreed : Agreed here files c) (writable : Writable here c.indexPath files)
    (saves : ∀ x, change? digest here files c request = some x → x.Saves here files)
    (apart : request = .clear →
      ∀ d ∈ c.entries, d.artifact.location here ≠ c.indexPath.location here) :
    Agreed here (serve digest here files c request).files
        (serve digest here files c request).cache ↔
      ¬ Strands digest here files c request := by
  constructor
  · intro after strands
    exact strands.disagree agreed after
  · intro notStranded
    cases changed : change? digest here files c request with
    | none =>
      obtain ⟨left, kept⟩ := serve_of_unchanged changed
      rw [left, kept]
      exact agreed
    | some x =>
      obtain ⟨left, kept⟩ := serve_of_change changed
      obtain ⟨path, built, order⟩ := change?_spec changed
      by_cases hindered : x.Hindered here files
      · -- only clearing waits for its deletions
        have waits : x.waits = true := by
          by_contra eager
          exact notStranded ((strands_iff changed).mpr ⟨by simpa using eager, hindered⟩)
        cases request with
        | clear =>
          cases changed
          exact agreed.clear_hindered (apart rfl) hindered
        | lookup source =>
          simp only [change?] at changed
          split at changed
          · cases changed
          · split at changed <;> cases changed
            cases waits
        | invalidate source =>
          simp only [change?] at changed
          split at changed
          · cases changed
            cases waits
          · split at changed <;> cases changed
            cases waits
        | store | recordMiss =>
          cases changed
          cases waits
        | isStale | isMiss | list => cases changed
      · rcases deleted : Effect.performAll files here x.deletions with ⟨bare, _ | fault⟩
        · have saved := saves x changed bare deleted
          rcases done : Effect.performAll bare here x.cache.saving with ⟨final, _ | fault⟩
          · have performed : Effect.performAll files here x.effects = (final, none) := by
              rw [Change.effects, Effect.performAll_append, deleted]
              exact done
            rw [left, kept, Change.live, if_neg (by simp [hindered]), performed]
            unfold Agreed
            rw [openAt_of_performed (order (.of_openAt agreed)) (path ▸ writable) performed]
          · rw [done] at saved
            cases saved
        · exact absurd (by simp [Change.Hindered, deleted]) hindered

/-- An entry for a model whose executable is a directory. -/
def blocked : Cache := ⟨⟨"/i"⟩, "x", [⟨⟨"/m.xml"⟩, ⟨"/d"⟩, "p", ⟨""⟩⟩], []⟩

/-- The files of a project that saved such an entry. -/
def blockedFiles : FileTree :=
  ⟨[(["i"], .file (Bytes.ofChars blocked.index.write) .plain), (["m.xml"], .file [1] .plain),
    (["d"], .directory)]⟩

theorem blocked_writable : Writable [] blocked.indexPath blockedFiles := by
  intro d
  rw [show blockedFiles.get? _ = none by decide +kernel]
  simp

theorem blocked_agreed : Agreed [] blockedFiles blocked := by
  have inOrder : blocked.InOrder := ⟨List.pairwise_singleton _ _, .nil⟩
  have loaded := @load?_of_document [] blockedFiles blocked (by decide +kernel)
  unfold Agreed
  rw [openAt_of_load? inOrder loaded]

/-- A cache that cannot delete its executable is cleared, and still agrees with its index. -/
theorem agreed_serve_blocked :
    Agreed [] (serve Bytes.toHex [] blockedFiles blocked .clear).files
        (serve Bytes.toHex [] blockedFiles blocked .clear).cache ↔
      ¬ Strands Bytes.toHex [] blockedFiles blocked .clear := by
  refine agreed_serve_iff blocked_agreed blocked_writable ?_ ?_
  · intro x changed bare deleted
    cases changed
    have refused : (Effect.performAll blockedFiles []
        (Change.deletions ⟨[⟨"/d"⟩], blocked.emptied, true⟩)).2 ≠ none := by decide +kernel
    exact absurd (congrArg Prod.snd deleted) refused
  · decide +kernel

/-- A lookup that finds an outdated entry, or an invalidation, takes the entry out of memory alone
when a directory stands in the place of its executable; the index, which can be written, still lists
it. -/
theorem agreement_lost :
    Agreed [] blockedFiles blocked ∧ Writable [] blocked.indexPath blockedFiles ∧
      (Effect.performAll blockedFiles [] (blocked.withoutEntry [] ⟨"/m.xml"⟩).saving).2 = none ∧
      ∀ request ∈ [Request.lookup ⟨"/m.xml"⟩, .invalidate ⟨"/m.xml"⟩],
        (serve Bytes.toHex [] blockedFiles blocked request).cache.entries = [] ∧
        ¬ Agreed [] (serve Bytes.toHex [] blockedFiles blocked request).files
          (serve Bytes.toHex [] blockedFiles blocked request).cache := by
  have found : blocked.entry? [] ⟨"/m.xml"⟩ = some ⟨⟨"/m.xml"⟩, ⟨"/d"⟩, "p", ⟨""⟩⟩ := by
    decide +kernel
  have stale : outdated Bytes.toHex blockedFiles [] ⟨⟨"/m.xml"⟩, ⟨"/d"⟩, "p", ⟨""⟩⟩ = true := by
    decide +kernel
  have refused : (Effect.perform blockedFiles [] (.discard ⟨"/d"⟩)).2 ≠ none := by decide +kernel
  refine ⟨blocked_agreed, blocked_writable, by decide +kernel, ?_⟩
  intro request asked
  simp only [List.mem_cons, List.not_mem_nil, or_false] at asked
  rcases asked with rfl | rfl
  · refine ⟨by decide +kernel, Strands.disagree ?_ blocked_agreed⟩
    exact ⟨_, _, found, .inr ⟨rfl, stale⟩, refused⟩
  · refine ⟨by decide +kernel, Strands.disagree ?_ blocked_agreed⟩
    exact ⟨_, _, found, .inl rfl, refused⟩

end Cache
end SimWorkbench
