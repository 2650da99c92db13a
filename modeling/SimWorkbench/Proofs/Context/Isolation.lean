import Mathlib.Logic.Relation
import SimWorkbench.Proofs.Context.Lodging

/-!
# Isolation of private copies

Several arenas put their copies below one scratch directory. Whatever they do, and whatever happens
to files elsewhere, the copy of a run context stays as it was made, apart from all others, until the
context or its arena is given up; then nothing of it is left.
-/
namespace SimWorkbench

/-- Whether a run context has a copy, and it is in its place. -/
structure ContextNode.Holds (n : ContextNode) (files : FileTree) (here : Location) (p : Path)
    (s final : String) (e : Entry) : Prop where
  snapshot : n.snapshot = some (p.child s)
  loaded : ∃ loaded, n.loaded = some loaded ∧ loaded.executable = (p.child s).child final
  isFinal : Path.IsName final
  holds : files.Holds here p s final e

/-- Whether a location is that of a context's copy, its directory or what is there. -/
def ContextNode.Covers (n : ContextNode) (here m : Location) : Prop :=
  ∃ d, n.snapshot = some d ∧ d.location here <+: m

/-- Whether a run context has no copy, or it is in its place. -/
def ContextNode.Kept (n : ContextNode) (files : FileTree) (here : Location) (p : Path) : Prop :=
  n.loaded = none ∧ n.snapshot = none ∨ ∃ s final e, n.Holds files here p s final e

namespace Path

theorem child_inj {p : Path} {s s' : String} (isName : IsName s) (isName' : IsName s') :
    p.child s = p.child s' ↔ s = s' := by
  refine ⟨fun same => ?_, fun same => same ▸ rfl⟩
  have names := names_child (p := p) isName
  rw [same, names_child isName'] at names
  simpa using names.symm

/-- Different names below a path are not above each other. -/
theorem not_below {p : Path} {here m : Location} {s s' : String} (other : s ≠ s')
    (below : p.location here ++ [s] <+: m) : ¬ p.location here ++ [s'] <+: m := by
  intro below'
  have same := List.prefix_or_prefix_of_prefix below below'
  rcases same with isPrefix | isPrefix
  · have := isPrefix.eq_of_length (by simp)
    simp at this
    exact other this
  · have := isPrefix.eq_of_length (by simp)
    simp at this
    exact other this.symm

end Path

namespace FileTree

variable {t t' : FileTree} {here : Location} {p : Path} {s final : String} {e : Entry}

theorem Holds.leads (holds : t.Holds here p s final e) : t.Leads here p :=
  ((locate_child_iff holds.isName).mp holds.directory).2.2.1

theorem Holds.get? (holds : t.Holds here p s final e) :
    t.get? (p.location here ++ [s]) = some .directory :=
  locate_get? holds.directory

/-- The directory of a copy is removed, and nothing else is. -/
theorem Holds.removed (holds : t.Holds here p s final e) :
    ∃ t', t.removeTree here (p.child s) = (t', none) ∧ t'.Leads here p ∧
      ∀ m, t'.get? m = if p.location here ++ [s] <+: m then none else t.get? m := by
  obtain ⟨t', removed, rest⟩ := removeTree_child holds.isName holds.directory holds.avoids
  exact ⟨t', removed, holds.leads.of_avoids holds.avoids fun m outside => by rw [rest, if_neg outside],
    rest⟩

end FileTree

namespace Arena

variable {a a' : Arena} {files files' : FileTree} {here : Location} {s final : String} {e : Entry}

/-- A call keeps every copy in its place but that of a run context that it takes away. -/
theorem Changes.keeps (changes : Changes here a files files' a') (forest : a.Forest)
    (proper : ∀ name ∈ here, Path.IsName name)
    (kept : ∀ n ∈ a.runs, n.Kept files here (a.scratchPath here))
    (holds : files.Holds here (a.scratchPath here) s final e) (isFinal : Path.IsName final)
    (other : ∀ n ∈ a.runs, n ∉ a'.runs → n.loaded ≠ none →
      n.snapshot ≠ some ((a.scratchPath here).child s)) :
    files'.Holds here (a.scratchPath here) s final e := by
  cases changes with
  | stays | makes => exact holds
  | fails =>
    rw [FileTree.makeDirs_of_leads (leads_scratchDir proper holds.leads)]
    exact holds
  | loads loads =>
    refine holds.kept isFinal loads.copies.leads fun m below => ?_
    refine (loads.rest proper holds.leads).2 m (Path.not_below ?_ below)
    rintro rfl
    exact loads.free holds.get?
  | @disposes n member =>
    have gone : n ∉ (a.without n).runs := by
      obtain ⟨isMember, isRun⟩ := mem_runs.mp member
      rw [forest.runs_without isMember isRun]
      simp
    rcases kept n member with ⟨-, none⟩ | ⟨s', final', e', own⟩
    · rw [withoutCopy, none]
      exact holds
    · obtain ⟨t', removed, leads, rest⟩ := own.holds.removed
      rw [withoutCopy, own.snapshot]
      simp only [removed]
      refine holds.kept isFinal leads fun m below => ?_
      rw [rest, if_neg (Path.not_below ?_ below)]
      rintro rfl
      obtain ⟨loaded, isLoaded, -⟩ := own.loaded
      exact other n member gone (by simp [isLoaded]) own.snapshot

/-- Whether a run context has just got a copy, and is the only one that has. -/
structure Settles (here : Location) (a : Arena) (files files' : FileTree) (a' : Arena)
    (n : ContextNode) : Prop where
  holds : ∃ s final e, n.Holds files' here (a.scratchPath here) s final e ∧
    files.get? ((a.scratchPath here).location here ++ [s]) ≠ some .directory
  alone : ∀ m ∈ a'.runs, m ∈ a.runs ∨ m = n

/-- Of the run contexts, only the one that was loaded into is changed. -/
theorem Loads.runs {loaded : LoadedArtifact} {old : ContextNode}
    (loads : a.Loads files here old.id loaded old s final e files') (forest : a.Forest) :
    ∀ m ∈ (a.holding loaded ((a.scratchPath here).child s)).runs, m ∈ a.runs ∨
      m = { old with paths := old.paths ++ [(a.scratchPath here).child s], loaded := some loaded,
                     snapshot := some ((a.scratchPath here).child s) } := by
  intro m member
  obtain ⟨isMember, isRun⟩ := mem_runs.mp member
  obtain ⟨m, hm, rfl⟩ := List.mem_map.mp isMember
  by_cases isOwn : m.id = loaded.context
  · obtain rfl := forest.eq_of_id hm (mem_of_node? loads.found).1 (isOwn.trans loads.context)
    rw [if_pos (by simpa using isOwn)]
    exact .inr rfl
  · rw [if_neg (by simpa using isOwn)] at isRun ⊢
    exact .inl (mem_runs.mpr ⟨hm, isRun⟩)

/-- A run context that has a copy is not changed as long as it is there. -/
theorem Changes.unchanged (changes : Changes here a files files' a') (forest : a.Forest)
    {m n : ContextNode} (member : m ∈ a.runs) (loaded : m.loaded ≠ none) (isThere : n ∈ a'.runs)
    (same : n.id = m.id) : n = m := by
  have isMember := (mem_runs.mp member).1
  have old : n ∈ a.runs → n = m := fun was => forest.eq_of_id (mem_runs.mp was).1 isMember same
  cases changes with
  | stays runs => exact old (runs ▸ isThere)
  | makes runs isNew =>
    rw [runs, List.mem_append, List.mem_singleton] at isThere
    rcases isThere with was | rfl
    · exact old was
    · have issued := forest.issued m isMember
      rw [← same] at issued
      omega
  | fails => exact old isThere
  | loads loads =>
    rcases loads.runs forest n isThere with was | rfl
    · exact old was
    · have isOwn := forest.eq_of_id (mem_of_node? loads.found).1 isMember same
      exact absurd (isOwn ▸ loads.empty) loaded
  | disposes isRun =>
    obtain ⟨isNode, isRun⟩ := mem_runs.mp isRun
    rw [forest.runs_without isNode isRun] at isThere
    exact old (List.mem_filter.mp isThere).1

/-- What a call makes of the run contexts: those of before, new ones without a copy, and one that has
just got a copy of its own. -/
theorem Changes.runs (changes : Changes here a files files' a') (forest : a.Forest) :
    ∀ n ∈ a'.runs, n ∈ a.runs ∨ (n.loaded = none ∧ n.snapshot = none) ∨
      Settles here a files files' a' n := by
  intro n member
  cases changes with
  | stays runs => exact .inl (runs ▸ member)
  | makes runs isNew empty =>
    rw [runs, List.mem_append, List.mem_singleton] at member
    rcases member with member | rfl
    · exact .inl member
    · exact .inr (.inl empty)
  | fails => exact .inl member
  | @loads loaded old s final e _ loads =>
    rcases loads.runs forest n member with was | rfl
    · exact .inl was
    · exact .inr (.inr ⟨⟨s, final, e, ⟨rfl, ⟨loaded, rfl, loads.executable⟩, loads.isFinal,
        loads.copies.holds⟩, loads.free⟩, loads.runs forest⟩)
  | @disposes gone isMember =>
    obtain ⟨isNode, isRun⟩ := mem_runs.mp isMember
    rw [forest.runs_without isNode isRun] at member
    exact .inl (List.mem_filter.mp member).1

/-- Whether only run contexts have copies. -/
def Bare (a : Arena) : Prop :=
  ∀ n ∈ a.nodes, n.layer ≠ .run → n.loaded = none ∧ n.snapshot = none

theorem Bare.fresh (rootPaths : List Path) (classesDir scratchDir : Path) (naming : Naming) :
    (Arena.fresh rootPaths classesDir scratchDir naming).Bare := by
  simp [Bare, Arena.fresh]

theorem Bare.sublist (bare : a.Bare) (sublist : a'.nodes.Sublist a.nodes) : a'.Bare :=
  fun n member => bare n (sublist.subset member)

theorem Bare.add (bare : a.Bare) (parent : Option ContextId) (layer : Layer) (paths : List Path) :
    (a.add parent layer paths).1.Bare := by
  intro n member notRun
  rcases List.mem_append.mp member with old | new
  · exact bare n old notRun
  · rw [List.mem_singleton.mp new]
    exact ⟨rfl, rfl⟩

theorem Bare.modify {c : ContextId} {f : ContextNode → ContextNode} (bare : a.Bare)
    (kept : ∀ n ∈ a.nodes, n.id = c → (f n).layer ≠ .run →
      n.layer ≠ .run ∧ (f n).loaded = n.loaded ∧ (f n).snapshot = n.snapshot) :
    (a.modify c f).Bare := by
  intro n member notRun
  obtain ⟨m, isMember, rfl⟩ := List.mem_map.mp member
  by_cases isOwn : m.id = c
  · rw [if_pos (by simpa using isOwn)] at notRun ⊢
    obtain ⟨notRun, loaded, snapshot⟩ := kept m isMember isOwn notRun
    rw [loaded, snapshot]
    exact bare m isMember notRun
  · rw [if_neg (by simpa using isOwn)] at notRun ⊢
    exact bare m isMember notRun

theorem sublist_discard (a : Arena) (c : ContextId) : (a.discard c).nodes.Sublist a.nodes :=
  List.filter_sublist

theorem sublist_collect (a : Arena) (c : ContextId) : (a.collect c).nodes.Sublist a.nodes := by
  unfold collect
  split
  · exact .refl _
  · split
    · exact .refl _
    · exact a.sublist_discard c

theorem sublist_without (a : Arena) (n : ContextNode) : (a.without n).nodes.Sublist a.nodes := by
  have rest : (if (a.discard n.id).current = n.id then
      { a.discard n.id with current := (a.discard n.id).currentStage.getD rootId }
      else a.discard n.id).nodes.Sublist a.nodes := by
    split <;> exact a.sublist_discard n.id
  unfold without
  cases n.parent with
  | none => exact rest
  | some s => exact (sublist_collect _ s).trans rest

theorem Bare.stage (bare : a.Bare) : a.stage.1.Bare := by
  unfold Arena.stage
  split
  · exact bare
  · exact bare.add (some rootId) .stage [a.classesDir]

theorem Bare.perform (bare : a.Bare) (forest : a.Forest) (files : FileTree) (here : Location)
    (call : ArenaCall) : (a.perform files here call).2.1.Bare := by
  cases call with
  | stage => exact bare.stage
  | resetStage =>
    simp only [Arena.perform, resetStage]
    split
    · exact bare
    · exact bare.sublist (sublist_collect _ _)
  | createRun => exact bare.stage.add _ _ _
  | load run name =>
    rcases a.load_cases files here run name with ⟨_, refused⟩ | ⟨_, _, _, -, refused⟩ |
      ⟨places, _, _, _, _, loadable, -, -, loaded⟩
    · simpa only [Arena.perform, refused] using bare
    · simpa only [Arena.perform, refused] using bare
    · simp only [Arena.perform, loaded]
      obtain ⟨n, found, isRun, -⟩ := node_of_loadable loadable
      obtain ⟨isMember, isContext⟩ := mem_of_node? found
      refine bare.modify fun m member same notRun => absurd ?_ notRun
      rw [forest.eq_of_id member isMember (Eq.trans same isContext.symm)]
      exact isRun
  | addPath path =>
    refine bare.modify fun n _ _ notRun => ?_
    split at notRun <;> rename_i has <;> simp [has, notRun]
  | enter c =>
    rcases a.enter_cases c with ⟨-, refused⟩ | entered
    · simpa only [Arena.perform, refused] using bare
    · simp only [Arena.perform, entered]
      exact bare
  | restoreStage => exact bare.stage
  | resolve c name => exact bare
  | dispose c =>
    rcases a.dispose_cases files here c with ⟨-, refused⟩ | ⟨n, -, -, refused⟩ | ⟨n, -, -, gone⟩
    · simpa only [Arena.perform, refused] using bare
    · simpa only [Arena.perform, refused] using bare
    · simp only [Arena.perform, gone]
      exact bare.sublist (a.sublist_without n)

/-! ### Giving an arena up -/

/-- The files without the copies of some contexts. -/
def withoutCopies (files : FileTree) (here : Location) (nodes : List ContextNode) : FileTree :=
  nodes.foldl (fun files n => withoutCopy files here n) files

/-- What one tree has of another when some of its locations are cleared. -/
structure Cleared (covered : Location → Prop) (files files' : FileTree) : Prop where
  gone : ∀ m, covered m → files'.get? m = none
  rest : ∀ m, ¬ covered m → files'.get? m = files.get? m

/-- The copies of several contexts are removed, and nothing else is. -/
theorem cleared_withoutCopies {p : Path} {nodes : List ContextNode}
    (kept : ∀ n ∈ nodes, n.snapshot = none ∨ ∃ s final e, n.Holds files here p s final e)
    (apart : nodes.Pairwise fun m n => m.snapshot = n.snapshot → m.snapshot = none) :
    (files.Leads here p → (withoutCopies files here nodes).Leads here p) ∧
      Cleared (fun m => ∃ n ∈ nodes, n.Covers here m) files (withoutCopies files here nodes) := by
  induction nodes generalizing files with
  | nil => exact ⟨id, by simp, fun _ _ => rfl⟩
  | cons n nodes ih =>
    obtain ⟨others, apart⟩ := List.pairwise_cons.mp apart
    have next : withoutCopies files here (n :: nodes) =
        withoutCopies (withoutCopy files here n) here nodes := rfl
    rw [next]
    rcases kept n List.mem_cons_self with none | ⟨s, final, e, own⟩
    · have same : withoutCopy files here n = files := by rw [withoutCopy, none]
      have nothing : ∀ m, ¬ n.Covers here m := by
        rintro m ⟨d, isSnapshot, -⟩
        rw [none] at isSnapshot
        cases isSnapshot
      obtain ⟨leads, gone, rest⟩ := ih (fun m member => kept m (List.mem_cons_of_mem _ member)) apart
      rw [same]
      refine ⟨leads, fun m covered => gone m ?_, fun m free => rest m ?_⟩
      · simpa [nothing m] using covered
      · simpa [nothing m] using free
    · obtain ⟨t, removed, leads, rest⟩ := own.holds.removed
      have same : withoutCopy files here n = t := by
        rw [withoutCopy, own.snapshot]
        simp only [removed]
      have covers : ∀ m, n.Covers here m ↔ p.location here ++ [s] <+: m := by
        intro m
        simp [ContextNode.Covers, own.snapshot, Path.location_child own.holds.isName]
      have kept' : ∀ m ∈ nodes, m.snapshot = none ∨ ∃ s final e, m.Holds t here p s final e := by
        intro m member
        rcases kept m (List.mem_cons_of_mem _ member) with none | ⟨s', final', e', held⟩
        · exact .inl none
        · refine .inr ⟨s', final', e', held.snapshot, held.loaded, held.isFinal,
            held.holds.kept held.isFinal leads fun l below => ?_⟩
          rw [rest, if_neg (Path.not_below ?_ below)]
          rintro rfl
          have none := others m member (own.snapshot.trans held.snapshot.symm)
          rw [own.snapshot] at none
          cases none
      obtain ⟨leads', gone', rest'⟩ := ih kept' apart
      rw [same]
      refine ⟨fun _ => leads' leads, fun m covered => ?_, fun m free => ?_⟩
      · by_cases later : ∃ n ∈ nodes, n.Covers here m
        · exact gone' m later
        · have first : n.Covers here m := by simpa [later] using covered
          rw [rest' m later, rest, if_pos ((covers m).mp first)]
      · have outside : ¬ n.Covers here m := fun covered => free ⟨n, List.mem_cons_self, covered⟩
        rw [rest' m fun ⟨n', member, covered⟩ => free ⟨n', List.mem_cons_of_mem _ member, covered⟩,
          rest, if_neg fun below => outside ((covers m).mpr below)]

end Arena

/-! ### Arenas with one scratch directory -/

/-- Arenas in the order in which they were made, none where one was given up, and the files. -/
structure SharedScratch where
  arenas : List (Option Arena)
  files : FileTree

namespace SharedScratch

/-- Whether files are changed outside of the directory that a path leads to, and not on the way that
the path takes. -/
structure Elsewhere (here : Location) (p : Path) (t t' : FileTree) : Prop where
  inside : ∀ m, p.location here <+: m → t'.get? m = t.get? m
  leads : t.Leads here p → t'.Leads here p

/-- The arena with a number. -/
def Has (w : SharedScratch) (i : Nat) (a : Arena) : Prop := w.arenas[i]? = some (some a)

/-- What can happen. -/
inductive Step (here : Location) (scratch : Path) (w : SharedScratch) : SharedScratch → Prop where
  | opens {rootPaths : List Path} {classesDir : Path} {naming : Naming} :
    Step here scratch w ⟨w.arenas ++ [some (.fresh rootPaths classesDir scratch naming)], w.files⟩
  | calls {i : Nat} {a : Arena} (isThere : w.Has i a) (rooted : w.files.Rooted here)
    (call : ArenaCall) :
    Step here scratch w ⟨w.arenas.set i (some (a.perform w.files here call).2.1),
      (a.perform w.files here call).1⟩
  | drops {i : Nat} {a : Arena} (isThere : w.Has i a) :
    Step here scratch w ⟨w.arenas.set i none, a.drop w.files here⟩
  | elsewhere {files : FileTree}
    (elsewhere : Elsewhere here (here.path.join scratch) w.files files) :
    Step here scratch w ⟨w.arenas, files⟩

/-- Whether a run context belongs to the arena with a number. -/
def Resident (w : SharedScratch) (i : Nat) (n : ContextNode) : Prop := ∃ a, w.Has i a ∧ n ∈ a.runs

/-- What holds between two steps. -/
structure Housed (here : Location) (scratch : Path) (w : SharedScratch) : Prop where
  arenas : ∀ i a, w.Has i a → a.Forest ∧ a.Bare ∧ a.scratchDir = scratch
  kept : ∀ i n, w.Resident i n → n.Kept w.files here (here.path.join scratch)
  apart : ∀ i m j n, w.Resident i m → w.Resident j n → m.snapshot = n.snapshot →
    m.snapshot ≠ none → i = j ∧ m = n

variable {w w' : SharedScratch} {here : Location} {scratch : Path} {i : Nat} {a : Arena}
  {n : ContextNode}

theorem has_set {b : Option Arena} {j : Nat} {a' : Arena} (isThere : w.Has i a) {files : FileTree} :
    Has ⟨w.arenas.set i b, files⟩ j a' ↔ j = i ∧ b = some a' ∨ j ≠ i ∧ w.Has j a' := by
  obtain ⟨inside, -⟩ := List.getElem?_eq_some_iff.mp isThere
  by_cases same : j = i
  · subst same
    simp [Has, inside]
  · simp [Has, List.getElem?_set_ne (Ne.symm same), same]

theorem Housed.keptRuns (housed : w.Housed here scratch) (isThere : w.Has i a) :
    ∀ n ∈ a.runs, n.Kept w.files here (a.scratchPath here) := by
  intro n member
  rw [Arena.scratchPath, (housed.arenas i a isThere).2.2]
  exact housed.kept i n ⟨a, isThere, member⟩

theorem Housed.resident_of_mem (housed : w.Housed here scratch) (isThere : w.Has i a)
    (member : n ∈ a.nodes) (copied : n.loaded ≠ none ∨ n.snapshot ≠ none) : w.Resident i n := by
  refine ⟨a, isThere, Arena.mem_runs.mpr ⟨member, ?_⟩⟩
  by_contra notRun
  obtain ⟨empty, none⟩ := (housed.arenas i a isThere).2.1 n member notRun
  exact copied.elim (absurd empty) (absurd none)

/-- When an arena is given up, its copies are removed, and nothing else is. -/
theorem Housed.cleared (housed : w.Housed here scratch) (isThere : w.Has i a) :
    (w.files.Leads here (here.path.join scratch) →
      (a.drop w.files here).Leads here (here.path.join scratch)) ∧
      Arena.Cleared (fun m => ∃ n ∈ a.nodes, n.Covers here m) w.files (a.drop w.files here) := by
  refine Arena.cleared_withoutCopies (fun n member => ?_) ?_
  · by_cases copied : n.snapshot = none
    · exact .inl copied
    · exact (housed.kept i n (housed.resident_of_mem isThere member (.inr copied))).imp And.right id
  · refine (housed.arenas i a isThere).1.ordered.imp_of_mem fun hm hn less same => ?_
    by_contra copied
    obtain ⟨-, rfl⟩ := housed.apart i _ i _ (housed.resident_of_mem isThere hm (.inr copied))
      (housed.resident_of_mem isThere hn (.inr (same ▸ copied))) same copied
    exact Nat.lt_irrefl _ less

/-- A copy stays in its place as long as its context is there. -/
theorem Step.keeps (step : Step here scratch w w') (housed : w.Housed here scratch)
    (proper : ∀ name ∈ here, Path.IsName name) {s final : String} {e : Entry}
    (was : w.Resident i n) (isThere : w'.Resident i n)
    (holds : n.Holds w.files here (here.path.join scratch) s final e) :
    n.Holds w'.files here (here.path.join scratch) s final e := by
  suffices stays : w'.files.Holds here (here.path.join scratch) s final e from
    ⟨holds.snapshot, holds.loaded, holds.isFinal, stays⟩
  cases step with
  | opens => exact holds.holds
  | @calls j b hasArena rooted call =>
    obtain ⟨forest, -, sameScratch⟩ := housed.arenas j b hasArena
    have changes := forest.changes proper rooted call
    have path : b.scratchPath here = here.path.join scratch := by rw [Arena.scratchPath, sameScratch]
    have keeps := changes.keeps (s := s) (e := e) forest proper (housed.keptRuns hasArena)
      (path ▸ holds.holds) holds.isFinal
    rw [path] at keeps
    refine keeps fun m member gone _ sameCopy => ?_
    obtain ⟨rfl, rfl⟩ := housed.apart j m i n ⟨b, hasArena, member⟩ was
      (sameCopy.trans holds.snapshot.symm) (by rw [sameCopy]; simp)
    obtain ⟨a', hasNow, isMember⟩ := isThere
    rcases (has_set hasArena).mp hasNow with ⟨-, same⟩ | ⟨other, -⟩
    · cases same
      exact gone isMember
    · exact other rfl
  | @drops j b hasArena =>
    have other : i ≠ j := by
      obtain ⟨a', hasNow, -⟩ := isThere
      rcases (has_set hasArena).mp hasNow with ⟨-, none⟩ | ⟨other, -⟩
      · cases none
      · exact other
    obtain ⟨leads, cleared⟩ := housed.cleared hasArena
    refine holds.holds.kept holds.isFinal (leads holds.holds.leads) fun m below => cleared.rest m ?_
    rintro ⟨n', member, d, isCopy, covered⟩
    have resident := housed.resident_of_mem hasArena member (.inr (by simp [isCopy]))
    rcases housed.kept j n' resident with ⟨-, none⟩ | ⟨s', final', e', own⟩
    · simp [isCopy] at none
    · obtain rfl : d = _ := Option.some.inj (isCopy.symm.trans own.snapshot)
      rw [Path.location_child own.holds.isName] at covered
      have same : s' = s := by
        by_contra differ
        exact Path.not_below differ covered below
      subst same
      exact other (housed.apart i n j n' was resident (holds.snapshot.trans isCopy.symm)
        (by simp [holds.snapshot])).1
  | elsewhere elsewhere =>
    exact holds.holds.kept holds.isFinal (elsewhere.leads holds.holds.leads) fun m below =>
      elsewhere.inside m ((List.prefix_append _ _).trans below)

/-- Whether a run context has just got a copy, and is the only one that has. -/
structure Settles (here : Location) (scratch : Path) (w w' : SharedScratch) (i : Nat)
    (n : ContextNode) : Prop where
  holds : ∃ s final e, n.Holds w'.files here (here.path.join scratch) s final e ∧
    w.files.get? ((here.path.join scratch).location here ++ [s]) ≠ some .directory
  alone : ∀ j m, w'.Resident j m → w.Resident j m ∨ j = i ∧ m = n

theorem Step.cases_of_has (step : Step here scratch w w') (isThere : w'.Has i a) :
    (w.arenas.length ≤ i ∧
        ∃ rootPaths classesDir naming, a = .fresh rootPaths classesDir scratch naming) ∨
      w.Has i a ∨
      ∃ b call, w.Has i b ∧ w.files.Rooted here ∧ a = (b.perform w.files here call).2.1 ∧
        w'.files = (b.perform w.files here call).1 ∧ ∀ j c, w'.Has j c → j ≠ i → w.Has j c := by
  cases step with
  | @opens rootPaths classesDir naming =>
    by_cases old : i < w.arenas.length
    · exact .inr (.inl (by simpa [Has, List.getElem?_append_left old] using isThere))
    · rw [Has, List.getElem?_append_right (Nat.le_of_not_lt old)] at isThere
      have isNew := List.mem_of_getElem? isThere
      exact .inl ⟨Nat.le_of_not_lt old, rootPaths, classesDir, naming, by simpa using isNew⟩
  | @calls j b hasArena rooted call =>
    rcases (has_set hasArena).mp isThere with ⟨rfl, same⟩ | ⟨-, has⟩
    · cases same
      refine .inr (.inr ⟨b, call, hasArena, rooted, rfl, rfl, fun j c has other => ?_⟩)
      rcases (has_set hasArena).mp has with ⟨same, -⟩ | ⟨-, has⟩
      · exact absurd same other
      · exact has
    · exact .inr (.inl has)
  | @drops j b hasArena =>
    rcases (has_set hasArena).mp isThere with ⟨-, none⟩ | ⟨-, has⟩
    · cases none
    · exact .inr (.inl has)
  | elsewhere => exact .inr (.inl isThere)

/-- Where the run contexts come from: they were there, they are new and have no copy, or they have
just got one of their own. -/
theorem Step.residents (step : Step here scratch w w') (housed : w.Housed here scratch)
    (proper : ∀ name ∈ here, Path.IsName name) (isThere : w'.Resident i n) :
    w.Resident i n ∨ (n.loaded = none ∧ n.snapshot = none) ∨ Settles here scratch w w' i n := by
  obtain ⟨a, hasNow, member⟩ := isThere
  rcases step.cases_of_has hasNow with
    ⟨-, _, _, _, rfl⟩ | has | ⟨b, call, has, rooted, rfl, files, others⟩
  · simp [Arena.runs, Arena.fresh] at member
  · exact .inl ⟨a, has, member⟩
  · obtain ⟨forest, -, sameScratch⟩ := housed.arenas i b has
    have path : b.scratchPath here = here.path.join scratch := by rw [Arena.scratchPath, sameScratch]
    rcases (forest.changes proper rooted call).runs forest n member with was | empty | settles
    · exact .inl ⟨b, has, was⟩
    · exact .inr (.inl empty)
    · refine .inr (.inr ⟨by simpa only [files, path] using settles.holds, fun j m resident => ?_⟩)
      obtain ⟨c, hasC, isMember⟩ := resident
      by_cases same : j = i
      · subst same
        cases hasNow.symm.trans hasC
        rcases settles.alone m isMember with was | rfl
        · exact .inl ⟨b, has, was⟩
        · exact .inr ⟨rfl, rfl⟩
      · exact .inl ⟨c, others j c hasC same, isMember⟩

theorem Housed.step (housed : w.Housed here scratch) (proper : ∀ name ∈ here, Path.IsName name)
    (step : Step here scratch w w') : w'.Housed here scratch where
  arenas i a isThere := by
    rcases step.cases_of_has isThere with ⟨-, _, _, _, rfl⟩ | has | ⟨b, call, has, -, rfl, -⟩
    · exact ⟨.fresh .., Arena.Bare.fresh _ _ _ _, rfl⟩
    · exact housed.arenas i a has
    · obtain ⟨forest, bare, same⟩ := housed.arenas i b has
      exact ⟨forest.perform _ _ _, bare.perform forest _ _ _,
        (b.scratchDir_perform _ _ _).trans same⟩
  kept i n isThere := by
    rcases step.residents housed proper isThere with was | empty | settles
    · rcases housed.kept i n was with empty | ⟨s, final, e, holds⟩
      · exact .inl empty
      · exact .inr ⟨s, final, e, step.keeps housed proper was isThere holds⟩
    · exact .inl empty
    · obtain ⟨s, final, e, holds, -⟩ := settles.holds
      exact .inr ⟨s, final, e, holds⟩
  apart i m j n isM isN same copied := by
    -- A copy that was just made has another name than those that were there.
    have apart : ∀ {i m j n}, Settles here scratch w w' i m → w'.Resident j n →
        n.snapshot = m.snapshot → j = i ∧ n = m := by
      intro i m j n settles isN same
      rcases settles.alone j n isN with was | own
      · obtain ⟨s, final, e, holds, free⟩ := settles.holds
        rcases housed.kept j n was with ⟨-, none⟩ | ⟨s', final', e', old⟩
        · rw [same, holds.snapshot] at none
          cases none
        · have child := old.snapshot.symm.trans (same.trans holds.snapshot)
          obtain rfl := (Path.child_inj old.holds.isName holds.holds.isName).mp (Option.some.inj child)
          exact absurd old.holds.get? free
      · exact own
    rcases step.residents housed proper isM with wasM | ⟨-, none⟩ | settles
    · rcases step.residents housed proper isN with wasN | ⟨-, none⟩ | settles
      · exact housed.apart i m j n wasM wasN same copied
      · exact absurd (same.trans none) copied
      · exact apart settles isM same
    · exact absurd none copied
    · obtain ⟨h, h'⟩ := apart settles isN same.symm
      exact ⟨h.symm, h'.symm⟩

/-! ### As long as a context is there -/

theorem Step.length_le (step : Step here scratch w w') : w.arenas.length ≤ w'.arenas.length := by
  cases step <;> simp

/-- What is known of a context that got a copy: it is unchanged if it is there, and if it is not there
it does not come back. -/
structure Lasts (here : Location) (scratch : Path) (i : Nat) (n : ContextNode) (s final : String)
    (e : Entry) (w : SharedScratch) : Prop where
  opened : i < w.arenas.length
  issued : ∀ a, w.Has i a → n.id.number < a.next
  unchanged : ∀ a m, w.Has i a → a.node? n.id = some m → m = n
  holds : w.Resident i n → n.Holds w.files here (here.path.join scratch) s final e

theorem Lasts.step {s final : String} {e : Entry} (lasts : Lasts here scratch i n s final e w)
    (housed : w.Housed here scratch) (proper : ∀ name ∈ here, Path.IsName name)
    (loaded : n.loaded ≠ none) (isRun : n.layer = .run) (step : Step here scratch w w') :
    Lasts here scratch i n s final e w' := by
  have was : ∀ a, w.Has i a → ∀ m, a.node? n.id = some m → w.Resident i n ∧ m = n := by
    intro a has m found
    obtain rfl := lasts.unchanged a m has found
    exact ⟨⟨a, has, Arena.mem_runs.mpr ⟨(Arena.mem_of_node? found).1, isRun⟩⟩, rfl⟩
  -- What is there now was there before.
  have comes : ∀ a', w'.Has i a' → n.id.number < a'.next ∧
      ∀ m, a'.node? n.id = some m → w.Resident i n ∧ m = n := by
    intro a' has'
    rcases step.cases_of_has has' with ⟨isNew, -⟩ | has | ⟨a, call, has, rooted, rfl, -, -⟩
    · exact absurd lasts.opened (Nat.not_lt.mpr isNew)
    · exact ⟨lasts.issued a' has, was a' has⟩
    · have follows := a.follows_perform w.files here call
      have forest := (housed.arenas i a has).1
      refine ⟨Nat.lt_of_lt_of_le (lasts.issued a has) follows.next, fun m found => ?_⟩
      obtain ⟨isMember, same⟩ := Arena.mem_of_node? found
      rcases follows.known m isMember with ⟨m', isOld, same', layered⟩ | isNew
      · have found' := forest.toGrown.node?_of_mem isOld
        rw [same', same] at found'
        obtain ⟨resident, rfl⟩ := was a has m' found'
        refine ⟨resident, ?_⟩
        exact (forest.changes proper rooted call).unchanged forest
          (Arena.mem_runs.mpr ⟨isOld, isRun⟩) loaded
          (Arena.mem_runs.mpr ⟨isMember, layered.symm.trans isRun⟩) same
      · have issued := lasts.issued a has
        rw [same] at isNew
        omega
  refine ⟨Nat.lt_of_lt_of_le lasts.opened step.length_le, fun a has => (comes a has).1,
    fun a m has found => ((comes a has).2 m found).2, fun isThere => ?_⟩
  obtain ⟨a, has, member⟩ := isThere
  obtain ⟨forest, -⟩ := (housed.step proper step).arenas i a has
  obtain ⟨resident, -⟩ := (comes a has).2 n (forest.toGrown.node?_of_mem (Arena.mem_runs.mp member).1)
  exact step.keeps housed proper resident ⟨a, has, member⟩ (lasts.holds resident)

/-- What happens, one step after the other. -/
abbrev Reaches (here : Location) (scratch : Path) : SharedScratch → SharedScratch → Prop :=
  Relation.ReflTransGen (Step here scratch)

theorem Reaches.housed (reaches : Reaches here scratch w w') (housed : w.Housed here scratch)
    (proper : ∀ name ∈ here, Path.IsName name) : w'.Housed here scratch := by
  induction reaches with
  | refl => exact housed
  | tail _ step ih => exact ih.step proper step

theorem Reaches.lasts {s final : String} {e : Entry} (reaches : Reaches here scratch w w')
    (lasts : Lasts here scratch i n s final e w) (housed : w.Housed here scratch)
    (proper : ∀ name ∈ here, Path.IsName name) (loaded : n.loaded ≠ none) (isRun : n.layer = .run) :
    Lasts here scratch i n s final e w' := by
  induction reaches with
  | refl => exact lasts
  | tail past step ih => exact ih.step (Reaches.housed past housed proper) proper loaded isRun step

/-! ### Isolation -/

theorem Housed.scratchPath (housed : w.Housed here scratch) (has : w.Has i a) :
    a.scratchPath here = here.path.join scratch := by
  rw [Arena.scratchPath, (housed.arenas i a has).2.2]

theorem Housed.holds (housed : w.Housed here scratch) (has : w.Has i a) (member : n ∈ a.nodes)
    (loaded : n.loaded ≠ none) : w.Resident i n ∧
      ∃ s final e, n.Holds w.files here (here.path.join scratch) s final e := by
  have resident := housed.resident_of_mem has member (.inl loaded)
  exact ⟨resident, (housed.kept i n resident).resolve_left fun empty => loaded empty.1⟩

/-- The state after an arena has tried to load an artifact. -/
def afterLoad (w : SharedScratch) (here : Location) (i : Nat) (a : Arena) (c : ContextId)
    (name : Path) : SharedScratch :=
  ⟨w.arenas.set i (some (a.load w.files here c name).2.1), (a.load w.files here c name).1⟩

/-- What is loaded lasts from then on. -/
theorem Housed.lasts {loaded : LoadedArtifact} {s final : String} {e : Entry} {files : FileTree}
    {c : ContextId} {name : Path} (housed : w.Housed here scratch) (isThere : w.Has i a)
    (loads : a.Loads w.files here n.id loaded n s final e files)
    (after : w.afterLoad here i a c name =
      ⟨w.arenas.set i (some (a.holding loaded ((a.scratchPath here).child s))), files⟩) :
    Lasts here scratch i { n with
      paths := n.paths ++ [(a.scratchPath here).child s], loaded := some loaded,
      snapshot := some ((a.scratchPath here).child s) } s final e (w.afterLoad here i a c name) := by
  obtain ⟨forest, -, sameScratch⟩ := housed.arenas i a isThere
  have path : a.scratchPath here = here.path.join scratch := by rw [Arena.scratchPath, sameScratch]
  obtain ⟨inside, -⟩ := List.getElem?_eq_some_iff.mp isThere
  obtain ⟨isMember, -⟩ := Arena.mem_of_node? loads.found
  have has : ∀ b, Has (w.afterLoad here i a c name) i b →
      b = a.holding loaded ((a.scratchPath here).child s) := by
    intro b hasB
    rw [after] at hasB
    rcases (has_set isThere).mp hasB with ⟨-, same⟩ | ⟨other, -⟩
    · exact (Option.some.inj same).symm
    · exact absurd rfl other
  refine ⟨?_, fun b hasB => ?_, fun b m hasB found => ?_, fun _ => ⟨path ▸ rfl,
    ⟨loaded, rfl, path ▸ loads.executable⟩, loads.isFinal, ?_⟩⟩
  · rw [after]
    simpa using inside
  · rw [has b hasB]
    exact forest.issued n isMember
  · rw [has b hasB] at found
    obtain ⟨isNode, same⟩ := Arena.mem_of_node? found
    obtain ⟨m, hm, rfl⟩ := List.mem_map.mp isNode
    by_cases isOwn : m.id = loaded.context
    · obtain rfl := forest.eq_of_id hm isMember (isOwn.trans loads.context)
      rw [if_pos (by simpa using isOwn)]
    · rw [if_neg (by simpa using isOwn)] at same
      exact absurd (same.trans loads.context.symm) isOwn
  · rw [after, ← path]
    exact loads.copies.holds

/-- As long as the context of an artifact is there, the executable reads as its origin did. -/
theorem Housed.reads {c : ContextId} {name : Path} {loaded : LoadedArtifact}
    (housed : w.Housed here scratch) (proper : ∀ name ∈ here, Path.IsName name) (has : w.Has i a)
    (rooted : w.files.Rooted here) (answer : (a.load w.files here c name).2.2 = .ok loaded) :
    ∃ content, w.files.read here loaded.origin = .ok content ∧
      ∀ w', Reaches here scratch (w.afterLoad here i a c name) w' →
        ∀ b n, w'.Has i b → b.node? c = some n →
          n.loaded = some loaded ∧ w'.files.read here loaded.executable = .ok content := by
  rcases a.load_spec proper rooted c name with ⟨e, failed, -⟩ | ⟨loaded', n, s, final, e, loads, result⟩
  · rw [failed] at answer
    cases answer
  rw [result] at answer
  cases answer
  obtain ⟨isMember, rfl⟩ := Arena.mem_of_node? loads.found
  obtain ⟨content, isContent⟩ : ∃ content, e.content? = some content := by
    cases e with
    | directory => cases loads.isFile
    | _ => exact ⟨_, rfl⟩
  refine ⟨content, FileTree.read_ok_iff.mpr ⟨_, e, loads.origin, isContent⟩, ?_⟩
  intro w' reaches b m has' found
  have after : w.afterLoad here i a n.id name =
      ⟨w.arenas.set i (some (a.holding loaded ((a.scratchPath here).child s))),
        (a.load w.files here n.id name).1⟩ := by
    rw [afterLoad, result]
  have step : Step here scratch w (w.afterLoad here i a n.id name) :=
    .calls has rooted (.load n.id name)
  have lasts := Reaches.lasts reaches (housed.lasts has loads after) (housed.step proper step)
    proper (by simp) loads.isRun
  obtain rfl := lasts.unchanged b m has' found
  have resident : w'.Resident i _ :=
    ⟨b, has', Arena.mem_runs.mpr ⟨(Arena.mem_of_node? found).1, loads.isRun⟩⟩
  have executable := (lasts.holds resident).holds.file
  rw [← housed.scratchPath has, ← loads.executable] at executable
  exact ⟨rfl, FileTree.read_ok_iff.mpr ⟨_, e, executable, isContent⟩⟩

/-- Executables are in the directories of their contexts, which are apart. -/
theorem Housed.directories {j : Nat} {b : Arena} {m : ContextNode} {loaded loaded' : LoadedArtifact}
    (housed : w.Housed here scratch) (hasA : w.Has i a) (hm : m ∈ a.nodes) (hasB : w.Has j b)
    (hn : n ∈ b.nodes) (isLoaded : m.loaded = some loaded) (isLoaded' : n.loaded = some loaded') :
    ∃ d d', m.snapshot = some d ∧ d.location here <+: loaded.executable.location here ∧
      n.snapshot = some d' ∧ ((i, m.id) ≠ (j, n.id) → ¬ d.location here <+: d'.location here) := by
  obtain ⟨residentM, s, final, e, holdsM⟩ := housed.holds hasA hm (by simp [isLoaded])
  obtain ⟨residentN, s', final', e', holdsN⟩ := housed.holds hasB hn (by simp [isLoaded'])
  obtain ⟨other, isOther, executable⟩ := holdsM.loaded
  obtain rfl : loaded = other := Option.some.inj (isLoaded.symm.trans isOther)
  refine ⟨_, _, holdsM.snapshot, ?_, holdsN.snapshot, fun other => ?_⟩
  · rw [executable, Path.location_child holdsM.isFinal]
    exact List.prefix_append _ _
  · rw [Path.location_child holdsM.holds.isName, Path.location_child holdsN.holds.isName]
    intro below
    have same : s = s' := by
      by_contra differ
      exact Path.not_below differ below (List.prefix_refl _)
    subst same
    obtain ⟨rfl, rfl⟩ := housed.apart i m j n residentM residentN
      (holdsM.snapshot.trans holdsN.snapshot.symm) (by simp [holdsM.snapshot])
    exact other rfl

/-- A context is taken away with its directory, and nothing else is. -/
theorem Housed.disposes (housed : w.Housed here scratch) (has : w.Has i a) (member : n ∈ a.nodes)
    (loaded : n.loaded ≠ none) : (a.dispose w.files here n.id).2.2 = .ok () ∧
      Arena.Cleared (n.Covers here) w.files (a.dispose w.files here n.id).1 := by
  obtain ⟨⟨a', has', isRun⟩, s, final, e, holds⟩ := housed.holds has member loaded
  cases has.symm.trans has'
  obtain ⟨t, removed, -, rest⟩ := holds.holds.removed
  have found := (housed.arenas i a has).1.toGrown.node?_of_mem member
  have copy : Arena.withoutCopy w.files here n = t := by
    rw [Arena.withoutCopy, holds.snapshot]
    simp only [removed]
  have covers : ∀ m, n.Covers here m ↔ (here.path.join scratch).location here ++ [s] <+: m := by
    intro m
    simp [ContextNode.Covers, holds.snapshot, Path.location_child holds.holds.isName]
  rcases a.dispose_cases w.files here n.id with ⟨unknown, -⟩ | ⟨n', found', notRun, -⟩ |
    ⟨n', found', -, gone⟩
  · simp [found] at unknown
  · obtain rfl := Option.some.inj (found.symm.trans found')
    exact absurd (Arena.mem_runs.mp isRun).2 notRun
  · obtain rfl := Option.some.inj (found.symm.trans found')
    rw [gone, copy]
    exact ⟨rfl, fun m covered => by rw [rest, if_pos ((covers m).mp covered)],
      fun m free => by rw [rest, if_neg fun below => free ((covers m).mpr below)]⟩

/-- A load that fails makes the way to the scratch directory at most. -/
theorem Housed.fails {c : ContextId} {name : Path} {e : ResolutionError}
    (housed : w.Housed here scratch) (proper : ∀ name ∈ here, Path.IsName name) (has : w.Has i a)
    (rooted : w.files.Rooted here) (failed : (a.load w.files here c name).2.2 = .error e) :
    (a.load w.files here c name).2.1 = a ∧ FileTree.Grows w.files (a.load w.files here c name).1 ∧
      (w.files.Leads here (here.path.join scratch) → (a.load w.files here c name).1 = w.files) ∧
      ∀ m, scratch.Avoids here m → (a.load w.files here c name).1.get? m = w.files.get? m := by
  rcases a.load_spec proper rooted c name with ⟨-, -, same, unchanged | made⟩ |
    ⟨_, _, _, _, _, -, result⟩
  · rw [same, unchanged]
    exact ⟨rfl, FileTree.Grows.refl _, fun _ => rfl, fun _ _ => rfl⟩
  · rw [same, made]
    refine ⟨rfl, FileTree.makeDirs_grows _ _ _, fun leads => ?_, fun m avoids => ?_⟩
    · rw [← housed.scratchPath has] at leads
      exact FileTree.makeDirs_of_leads (Arena.leads_scratchDir proper leads)
    · rw [(housed.arenas i a has).2.2]
      exact FileTree.makeDirs_frame _ avoids
  · rw [result] at failed
    cases failed

/-- What holds of the copies in the scratch directory, whatever has happened. -/
structure Isolated (here : Location) (scratch : Path) (w : SharedScratch) : Prop where
  /-- As long as the context of an artifact is there, the executable reads as its origin did when it
  was loaded. -/
  loads : ∀ i a, w.Has i a → w.files.Rooted here → ∀ c name loaded,
    (a.load w.files here c name).2.2 = .ok loaded →
    ∃ content, w.files.read here loaded.origin = .ok content ∧
      ∀ w', Reaches here scratch (w.afterLoad here i a c name) w' →
        ∀ b n, w'.Has i b → b.node? c = some n →
          n.loaded = some loaded ∧ w'.files.read here loaded.executable = .ok content
  /-- Executables are in the directories of their contexts, which are apart. -/
  apart : ∀ i a m, w.Has i a → m ∈ a.nodes → ∀ j b n, w.Has j b → n ∈ b.nodes →
    ∀ loaded loaded', m.loaded = some loaded → n.loaded = some loaded' → ∃ d d',
      m.snapshot = some d ∧ d.location here <+: loaded.executable.location here ∧
      n.snapshot = some d' ∧ ((i, m.id) ≠ (j, n.id) → ¬ d.location here <+: d'.location here)
  /-- A context is taken away with its directory, and nothing else is. -/
  disposes : ∀ i a n, w.Has i a → n ∈ a.nodes → n.loaded ≠ none →
    (a.dispose w.files here n.id).2.2 = .ok () ∧
      Arena.Cleared (n.Covers here) w.files (a.dispose w.files here n.id).1
  /-- An arena is given up with the directories of its contexts, and nothing else is. -/
  drops : ∀ i a, w.Has i a →
    Arena.Cleared (fun m => ∃ n ∈ a.nodes, n.Covers here m) w.files (a.drop w.files here)
  /-- A load that fails leaves the arena as it is, and changes nothing that the path of the scratch
  directory does not come by; it makes directories at most, and none if the path leads to one. -/
  fails : ∀ i a, w.Has i a → w.files.Rooted here → ∀ c name e,
    (a.load w.files here c name).2.2 = .error e →
    (a.load w.files here c name).2.1 = a ∧
      FileTree.Grows w.files (a.load w.files here c name).1 ∧
      (w.files.Leads here (here.path.join scratch) → (a.load w.files here c name).1 = w.files) ∧
      ∀ m, scratch.Avoids here m → (a.load w.files here c name).1.get? m = w.files.get? m

/-- Whatever arenas with one scratch directory do, and whatever happens to files elsewhere, copies
are isolated from each other. -/
theorem isolation (proper : ∀ name ∈ here, Path.IsName name) {files : FileTree}
    (reaches : Reaches here scratch ⟨[], files⟩ w) : w.Isolated here scratch := by
  have start : Housed here scratch ⟨[], files⟩ := by
    constructor <;> simp [Has, Resident]
  have housed := Reaches.housed reaches start proper
  exact ⟨fun i a has rooted c name loaded => housed.reads proper has rooted,
    fun i a m hasA hm j b n hasB hn loaded loaded' => housed.directories hasA hm hasB hn,
    fun i a n => housed.disposes, fun i a has => (housed.cleared has).2,
    fun i a has rooted c name e => housed.fails proper has rooted⟩

/-! ### A shared directory -/

/-- The state after a call of an arena, if there is one with the number. -/
def act (here : Location) (w : SharedScratch) (x : Nat × ArenaCall) : SharedScratch :=
  match w.arenas[x.1]? with
  | some (some a) => ⟨w.arenas.set x.1 (some (a.perform w.files here x.2).2.1),
      (a.perform w.files here x.2).1⟩
  | _ => w

theorem reaches_act (w : SharedScratch) (scratch : Path) (calls : List (Nat × ArenaCall)) :
    Reaches [] scratch w (calls.foldl (act []) w) := by
  induction calls generalizing w with
  | nil => exact .refl
  | cons x calls ih =>
    refine .trans ?_ (ih _)
    unfold act
    split
    · have rooted : w.files.Rooted [] := fun _ => rfl
      exact .single (.calls ‹_› rooted x.2)
    · exact .refl

/-- An executable, and a directory that the scratch directory is not in. -/
def sharedFiles : FileTree :=
  ⟨[(["a"], .directory), (["b"], .directory), (["c"], .directory),
    (["c", "x"], .file (Bytes.ofString "abc") .program)]⟩

/-- Two arenas that were just made. -/
def opened (scratch : Path) : SharedScratch :=
  ⟨[some (.fresh [] ⟨"/c"⟩ scratch), some (.fresh [] ⟨"/c"⟩ scratch)], sharedFiles⟩

theorem reaches_opened (scratch : Path) : Reaches [] scratch ⟨[], sharedFiles⟩ (opened scratch) :=
  .tail (.single .opens) .opens

/-- The executable is loaded by both, under the same number. -/
def loadedTwice : SharedScratch :=
  [(0, .createRun), (1, .createRun), (0, .load ⟨2⟩ ⟨"x"⟩), (1, .load ⟨2⟩ ⟨"x"⟩)].foldl (act [])
    (opened ⟨"/b"⟩)

/-- Two arenas load one executable. -/
theorem isolation_shared : (loadedTwice.arenas.map fun a => (a.bind (·.loaded? ⟨2⟩)).isSome) =
    [true, true] ∧ loadedTwice.Isolated [] ⟨"/b"⟩ :=
  ⟨by decide +kernel, isolation (by simp) ((reaches_opened _).trans (reaches_act _ _ _))⟩

/-- An arena that knows the scratch directory by a path through another directory, after it has loaded
the executable. -/
def roundabout : FileTree × Arena × Except ResolutionError LoadedArtifact :=
  (Arena.fresh [] ⟨"/c"⟩ ⟨"/a/../b"⟩).createRun.1.load sharedFiles [] ⟨2⟩ ⟨"x"⟩

/-- A path that comes by another directory leads nowhere when that is removed, though it lies outside
of the scratch directory: the executable is not found any more. -/
theorem isolation_roundabout : ∃ files arena loaded,
    roundabout = (files, arena, .ok loaded) ∧ arena.loaded? ⟨2⟩ = some loaded ∧
      files.read [] loaded.executable = .ok (Bytes.ofString "abc") ∧
      (∀ m, ["b"] <+: m → (files.eraseAll ["a"]).get? m = files.get? m) ∧
      (files.eraseAll ["a"]).read [] loaded.executable = .error .notFound := by
  refine ⟨roundabout.1, roundabout.2.1, ⟨⟨2⟩, ⟨"x"⟩, ⟨"/c/x"⟩, ⟨"/a/../b/run-2-000000/x"⟩⟩, ?_,
    by decide +kernel, by decide +kernel, ?_, by decide +kernel⟩
  · have answer : roundabout.2.2 =
        .ok ⟨⟨2⟩, ⟨"x"⟩, ⟨"/c/x"⟩, ⟨"/a/../b/run-2-000000/x"⟩⟩ := by decide +kernel
    rw [← answer]
  · rintro _ ⟨rest, rfl⟩
    exact FileTree.get?_eraseAll _ (by simp)

end SharedScratch
end SimWorkbench
