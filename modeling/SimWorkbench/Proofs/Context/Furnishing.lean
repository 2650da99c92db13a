import Mathlib.Data.List.Perm.Subperm
import SimWorkbench.Proofs.Context.Isolation
import SimWorkbench.Proofs.Path.Below

/-!
# What it takes to load an executable

Every stage shows the directory of executables and nothing else, and every private directory lies in
the scratch directory under a name that is made for it. So where the scratch directory can be used,
an executable that is in its place can be loaded into every new run context.
-/
namespace SimWorkbench

/-! ### Names of private directories -/

namespace Naming

theorem suffix_injective : Function.Injective suffix := by
  have value : ∀ k, Nat.ofDigitChars 10 (suffix k).toList 0 = k := by
    simp [suffix, Nat.ofDigitChars_append, Nat.ofDigitChars_replicate_zero]
  intro m n same
  rw [← value m, ← value n, same]

/-- There are more numbers to try than there are entries, so one of them is free. -/
theorem exists_count (files : FileTree) (dir : Location) (start : String) :
    ∃ tries ≤ files.entries.length, count files dir start = suffix tries := by
  set candidates := (List.range (files.entries.length + 1)).map suffix with isCandidates
  cases found : candidates.find? fun part => (files.get? (dir ++ [start ++ part])).isNone with
  | some part =>
    obtain ⟨tries, isTry, rfl⟩ := List.mem_map.mp (List.mem_of_find?_eq_some found)
    refine ⟨tries, Nat.le_of_lt_succ (List.mem_range.mp isTry), ?_⟩
    simp only [count, ← isCandidates, found, Option.getD_some]
  | none =>
    -- Every candidate would be the name of an entry, and there are fewer entries.
    have taken : candidates.map (fun part => dir ++ [start ++ part]) ⊆ files.entries.map Prod.fst := by
      intro l member
      obtain ⟨part, isCandidate, rfl⟩ := List.mem_map.mp member
      have there := List.find?_eq_none.mp found part isCandidate
      rw [FileTree.get?, if_neg (by simp), Option.isNone_iff_eq_none] at there
      obtain ⟨e, isEntry⟩ := Option.ne_none_iff_exists'.mp there
      obtain ⟨before, after, split, -⟩ := List.lookup_eq_some_iff.mp isEntry
      rw [split]
      simp
    have distinct : (candidates.map fun part => dir ++ [start ++ part]).Nodup := by
      rw [isCandidates, List.map_map]
      exact List.nodup_range.map fun m n same => suffix_injective (by simpa using same)
    have fewer := (List.subperm_of_subset distinct taken).length_le
    simp [isCandidates] at fewer

end Naming

namespace Arena

/-- Whether a name is one that a private directory may have. -/
def IsRunName (s : String) : Prop := Path.IsName s ∧ ∃ rest, s = "run-" ++ rest

theorem isRunName_name (naming : Naming) (files : FileTree) (dir : Location) (number : Nat) :
    IsRunName (naming.name files dir ("run-" ++ toString number ++ "-")) :=
  ⟨isName_name naming files dir number, _, by
    rw [Naming.name, String.append_assoc, String.append_assoc]⟩

end Arena

/-! ### What contexts show -/

/-- Whether a context shows what its layer is to show, and has its copy, if any, in a private
directory below a path. -/
structure ContextNode.Fit (here : Location) (p classesDir : Path) (n : ContextNode) : Prop where
  stage : n.layer = .stage → n.paths = [classesDir]
  copy : ∀ dir, n.snapshot = some dir → ∃ s, dir = p.child s ∧ Arena.IsRunName s ∧
    p.Avoids here (p.location here ++ [s])

namespace Arena

variable {a a' : Arena} {files files' t : FileTree} {here : Location} {c : ContextId}
  {n : ContextNode} {p classesDir : Path} {s : String}

/-- Whether all contexts of an arena are fit. -/
def Furnished (here : Location) (p classesDir : Path) (a : Arena) : Prop :=
  ∀ n ∈ a.nodes, n.Fit here p classesDir

theorem Furnished.fresh (here : Location) (p classesDir : Path) (rootPaths : List Path)
    (scratchDir : Path) (naming : Naming) :
    (Arena.fresh rootPaths classesDir scratchDir naming).Furnished here p classesDir := by
  intro n member
  rw [List.mem_singleton.mp member]
  exact ⟨nofun, nofun⟩

theorem Furnished.sublist (furnished : a.Furnished here p classesDir)
    (sublist : a'.nodes.Sublist a.nodes) : a'.Furnished here p classesDir :=
  fun n member => furnished n (sublist.subset member)

theorem Furnished.add (furnished : a.Furnished here p classesDir) {parent : Option ContextId}
    {layer : Layer} {paths : List Path} (fit : layer = .stage → paths = [classesDir]) :
    (a.add parent layer paths).1.Furnished here p classesDir := by
  intro n member
  rcases List.mem_append.mp member with old | new
  · exact furnished n old
  · rw [List.mem_singleton.mp new]
    exact ⟨fit, nofun⟩

theorem Furnished.modify {f : ContextNode → ContextNode} (furnished : a.Furnished here p classesDir)
    (fit : ∀ n ∈ a.nodes, n.id = c → (f n).Fit here p classesDir) :
    (a.modify c f).Furnished here p classesDir := by
  intro n member
  obtain ⟨m, isMember, rfl⟩ := List.mem_map.mp member
  by_cases isOwn : m.id = c
  · rw [if_pos (by simpa using isOwn)]
    exact fit m isMember isOwn
  · rw [if_neg (by simpa using isOwn)]
    exact furnished m isMember

theorem Furnished.stage (furnished : a.Furnished here p a.classesDir) :
    a.stage.1.Furnished here p a.classesDir := by
  unfold Arena.stage
  split
  · exact furnished
  · exact furnished.add fun _ => rfl

/-- A copy is in a private directory in the scratch directory. -/
theorem takeSnapshot_dir {origin dir executable : Path} (proper : ∀ name ∈ here, Path.IsName name)
    (taken : a.takeSnapshot files here origin c = (files', .ok (dir, executable))) :
    ∃ s, dir = (a.scratchPath here).child s ∧ IsRunName s ∧
      (a.scratchPath here).Avoids here ((a.scratchPath here).location here ++ [s]) := by
  unfold takeSnapshot at taken
  rcases makes : files.makeDirs here a.scratchDir with ⟨t, _ | cause⟩
  swap
  · simp [makes] at taken
  simp only [makes] at taken
  cases scratch : t.locate here (here.path.join a.scratchDir) with
  | error cause => simp [scratch] at taken
  | ok there =>
    simp only [scratch] at taken
    have isRunName := isRunName_name a.naming t there.1 c.number
    generalize a.naming.name t there.1 ("run-" ++ toString c.number ++ "-") = s at taken isRunName
    cases made : t.makeDir here ((here.path.join a.scratchDir).child s) with
    | error cause => simp [made] at taken
    | ok t' =>
      have isDir : dir = (here.path.join a.scratchDir).child s := by
        simp only [made] at taken
        split at taken <;> cases taken
        rfl
      obtain ⟨-, -, leads, free, -⟩ := FileTree.makeDir_child isRunName.1 made
      exact ⟨s, isDir, isRunName,
        leads.avoids (isAbsolute_scratchPath proper) fun taken => nomatch free.symm.trans taken⟩

/-- Every call keeps all contexts fit. -/
theorem Furnished.perform (furnished : a.Furnished here (a.scratchPath here) a.classesDir)
    (forest : a.Forest) (proper : ∀ name ∈ here, Path.IsName name) (files : FileTree)
    (call : ArenaCall) :
    (a.perform files here call).2.1.Furnished here (a.scratchPath here) a.classesDir := by
  cases call with
  | stage => exact furnished.stage
  | resetStage =>
    simp only [Arena.perform, resetStage]
    split
    · exact furnished
    · exact furnished.sublist (sublist_collect _ _)
  | createRun => exact furnished.stage.add (fun isStage => by cases isStage)
  | load run name =>
    rcases a.load_cases files here run name with ⟨_, refused⟩ | ⟨_, _, _, -, refused⟩ |
      ⟨places, _, _, dir, _, loadable, -, taken, loaded⟩
    · simpa only [Arena.perform, refused] using furnished
    · simpa only [Arena.perform, refused] using furnished
    · simp only [Arena.perform, loaded]
      obtain ⟨n, found, isRun, -⟩ := node_of_loadable loadable
      obtain ⟨isMember, isContext⟩ := mem_of_node? found
      refine furnished.modify fun m member same => ⟨fun isStage => ?_, fun dir' isDir => ?_⟩
      · have layer : m.layer = .run :=
          forest.eq_of_id member isMember (Eq.trans same isContext.symm) ▸ isRun
        cases layer.symm.trans isStage
      · cases isDir
        exact takeSnapshot_dir proper taken
  | addPath path =>
    obtain ⟨root, isRoot, isRootId, isRootLayer, -⟩ := forest.root
    refine furnished.modify fun m member same => ?_
    have layer : m.layer = .root :=
      forest.eq_of_id member isRoot (same.trans isRootId.symm) ▸ isRootLayer
    split
    · exact furnished m member
    · refine ⟨fun isStage => ?_, (furnished m member).copy⟩
      cases layer.symm.trans isStage
  | enter c =>
    rcases a.enter_cases c with ⟨-, refused⟩ | entered
    · simpa only [Arena.perform, refused] using furnished
    · simp only [Arena.perform, entered]
      exact furnished
  | restoreStage => exact furnished.stage
  | resolve c name => exact furnished
  | dispose c =>
    rcases a.dispose_cases files here c with ⟨-, refused⟩ | ⟨n, -, -, refused⟩ | ⟨n, -, -, gone⟩
    · simpa only [Arena.perform, refused] using furnished
    · simpa only [Arena.perform, refused] using furnished
    · simp only [Arena.perform, gone]
      exact furnished.sublist (a.sublist_without n)

end Arena

/-! ### Where a directory can be used -/

instance (here : Location) (p : Path) (l : Location) : Decidable (p.Avoids here l) :=
  decidable_of_iff (∀ first ∈ p.names.inits, ¬ l <+: first.foldl Location.enter (p.start here))
    (by simp only [List.mem_inits, Path.Avoids])

theorem Path.size_child_le {p : Path} {name : String} (isName : Path.IsName name) :
    (p.child name).text.utf8ByteSize ≤ p.text.utf8ByteSize + 1 + name.utf8ByteSize := by
  have relative := (names_of_noSlash isName.2.2.2 isName.1).2
  have one : "/".utf8ByteSize = 1 := rfl
  rw [child, join, if_neg (by simp [relative])]
  split <;> simp only [String.utf8ByteSize_append, one] <;> omega

namespace FileTree

variable {t : FileTree} {here : Location} {p : Path} {name : String} {e : Entry}

/-- A path that the system accepts can go on with a name, if there is room for it. -/
theorem Acceptable.child (accepted : Acceptable p) (isName : Path.IsName name)
    (noZero : '\x00' ∉ name.toList) (room : p.text.utf8ByteSize + 1 + name.utf8ByteSize < 4096) :
    Acceptable (p.child name) := by
  obtain ⟨notEmpty, zero, -⟩ := accepted
  have noZero' : '\x00' ∉ p.text.toList := by simpa using zero
  have relative := (Path.names_of_noSlash isName.2.2.2 isName.1).2
  refine ⟨by simpa using (Path.open_child (p := p) isName).1, ?_,
    Nat.lt_of_le_of_lt (Path.size_child_le isName) room⟩
  rw [Path.child, Path.join, if_neg (by simp [relative])]
  split <;> simp [noZero, noZero']

/-- A directory with a free name can be made. -/
theorem makeDir_child_ok (isName : Path.IsName name) (accepted : Acceptable (p.child name))
    (fits : name.utf8ByteSize ≤ 255) (leads : t.Leads here p)
    (free : t.get? (p.location here ++ [name]) = none) :
    t.makeDir here (p.child name) = .ok (t.insert (p.location here ++ [name]) .directory) := by
  have walked : t.walk here (p.child name) = .ok (p.location here, .name name false) :=
    (walk_child_iff isName).mpr ⟨accepted, fits, leads, rfl, rfl⟩
  simp only [makeDir, walked, bind, Except.bind, free]

/-- A file can be copied to a name that is no directory. -/
theorem copy_child_ok {q : Path} {l : Location} (isName : Path.IsName name)
    (located : t.locate here q = .ok (l, e)) (file : e ≠ .directory)
    (accepted : Acceptable (p.child name)) (fits : name.utf8ByteSize ≤ 255)
    (leads : t.Leads here p) (vacant : t.get? (p.location here ++ [name]) ≠ some .directory) :
    ∃ t', t.copy here q (p.child name) = .ok t' := by
  have walked : t.walk here (p.child name) = .ok (p.location here, .name name false) :=
    (walk_child_iff isName).mpr ⟨accepted, fits, leads, rfl, rfl⟩
  cases there : t.get? (p.location here ++ [name]) with
  | none => cases e <;> simp_all [copy, writeTarget, bind, Except.bind]
  | some old => cases old <;> cases e <;> simp_all [copy, writeTarget, bind, Except.bind]

/-- A directory that a path leads to is found. -/
theorem locate_of_leads (accepted : Acceptable p) (leads : t.Leads here p)
    (directory : t.get? (p.location here) = some .directory) :
    t.locate here p = .ok (p.location here, .directory) := by
  obtain ⟨start, walked⟩ := leads
  obtain ⟨dir, last, arrives⟩ : ∃ dir last, t.walk here p = .ok (dir, last) := by
    rcases List.eq_nil_or_concat p.names with none | ⟨before, final, names⟩
    · exact ⟨_, _, walk_ok_iff.mpr ⟨accepted, start, .inl ⟨none, rfl, rfl⟩⟩⟩
    · rw [List.concat_eq_append] at names
      obtain ⟨dir, entered, next⟩ := foldlM_enter_concat (names ▸ walked)
      have fits : final = "." ∨ final = ".." ∨ final.utf8ByteSize ≤ 255 := by
        by_contra long
        push Not at long
        simp [enter, long.1, long.2.1, long.2.2] at next
      exact ⟨dir, _, walk_ok_iff.mpr
        ⟨accepted, start, .inr ⟨before, final, names, entered, fits, rfl⟩⟩⟩
  exact locate_ok_iff.mpr ⟨dir, last, arrives, (walk_location arrives).symm, directory, by simp⟩

/-- A way that was made once is not made again where the path leads to a directory. -/
theorem makeDirs_again {t' : FileTree} (made : (t.makeDirs here p).2 = none)
    (leads : t'.Leads here p) (directory : t'.get? (p.location here) = some .directory) :
    t'.makeDirs here p = (t', none) := by
  by_cases empty : p.text.isEmpty = true
  · simp [makeDirs, makeDirsFrom, empty]
  have done : t.makeDirs here p = ((t.makeDirs here p).1, none) := Prod.ext rfl made
  obtain ⟨l, found⟩ := makeDirs_directory done (by simpa using empty)
  have accepted := (foldlM_names_of_directory found).1
  have located := locate_of_leads accepted leads directory
  have isDirectory : t'.isDirectory here p = true := by
    simp [FileTree.isDirectory, entryAt?, located, Except.toOption, Entry.isDirectory]
  have makes := makeDir_of_entered accepted leads.start leads.walked
  simp [makeDirs, makeDirsFrom, empty, makes, makeLast, isDirectory]

/-- Whether everything in a tree is in a directory. -/
def Closed (t : FileTree) : Prop := ∀ x ∈ t.entries, t.get? x.1.dropLast = some .directory

instance (t : FileTree) : Decidable t.Closed := inferInstanceAs (Decidable (∀ x ∈ t.entries, _))

/-- Nothing is below what is not there. -/
theorem Closed.get?_of_none {l m : Location} {s : String} (closed : t.Closed)
    (free : t.get? (l ++ [s]) = none) : t.get? (l ++ s :: m) = none := by
  induction m using List.reverseRecOn with
  | nil => exact free
  | append_singleton m last ih =>
    cases there : t.get? (l ++ s :: (m ++ [last])) with
    | none => rfl
    | some e =>
      rw [get?, if_neg (by simp)] at there
      obtain ⟨before, after, split, -⟩ := List.lookup_eq_some_iff.mp there
      have above := closed (l ++ s :: (m ++ [last]), e) (by simp [split])
      have parent : (l ++ s :: (m ++ [last])).dropLast = l ++ s :: m := by
        rw [← List.cons_append, ← List.append_assoc, List.dropLast_concat]
      rw [parent, ih] at above
      cases above

theorem size_removeTree_le (t : FileTree) (here : Location) (p : Path) :
    (t.removeTree here p).1.entries.length ≤ t.entries.length := by
  unfold removeTree
  split
  · exact Nat.le_refl _
  · rename_i l e _
    have bare : (t.emptied l).entries.length ≤ t.entries.length := List.length_filter_le _ _
    split
    · exact Nat.le_refl _
    · simp only
      split <;> try exact bare
      exact Nat.le_trans (List.length_filter_le _ _) bare

end FileTree

namespace Arena

variable {a a' : Arena} {files files' : FileTree} {here : Location} {c : ContextId}

/-- Whether an arena can make private directories for the run contexts to come. The scratch directory
is there or can be made, the paths are not too long, and no private directory is on the way to the
executables. That nothing is below what is not there holds of every file tree. -/
structure Usable (a : Arena) (here : Location) (files : FileTree) : Prop where
  made : (files.makeDirs here a.scratchDir).2 = none
  found : (files.makeDirs here a.scratchDir).1.locate here (a.scratchPath here) =
    .ok ((a.scratchPath here).location here, .directory)
  room : (a.scratchPath here).text.utf8ByteSize + 512 < 4096
  names : ∀ number ≤ a.next + 1,
    ∀ t : FileTree, t.entries.length ≤ (files.makeDirs here a.scratchDir).1.entries.length →
      (a.naming.name t ((a.scratchPath here).location here)
        ("run-" ++ toString number ++ "-")).utf8ByteSize ≤ 255
  hollow : ∀ s m,
    (files.makeDirs here a.scratchDir).1.get? ((a.scratchPath here).location here ++ [s]) = none →
      (files.makeDirs here a.scratchDir).1.get? ((a.scratchPath here).location here ++ s :: m) = none
  apart : ∀ s, IsRunName s → a.classesDir.Avoids here ((a.scratchPath here).location here ++ [s])

theorem noZero_name (naming : Naming) (files : FileTree) (dir : Location) (number : Nat) :
    '\x00' ∉ (naming.name files dir ("run-" ++ toString number ++ "-")).toList := by
  have noDigits : '\x00' ∉ Nat.toDigits 10 number := fun member => by
    cases Nat.isDigit_of_mem_toDigits (by decide) (by decide) member
  have noDrawn : '\x00' ∉ (naming.draw files dir ("run-" ++ toString number ++ "-")).toList :=
    fun member => by cases naming.drawn _ _ _ _ member
  simp only [Naming.name, String.toList_append, List.mem_append, not_or]
  exact ⟨⟨⟨by decide, by simpa using noDigits⟩, by decide⟩, noDrawn⟩

/-- Whether a scratch directory that the executables are not in is there or can be made in a closed
tree, with room for names that are counted. -/
def Roomy (a : Arena) (here : Location) (files : FileTree) : Prop :=
  let t := (files.makeDirs here a.scratchDir).1
  (files.makeDirs here a.scratchDir).2 = none ∧
    t.locate here (a.scratchPath here) = .ok ((a.scratchPath here).location here, .directory) ∧
    (a.scratchPath here).text.utf8ByteSize + 512 < 4096 ∧
    (∀ number < a.next + 2, ∀ tries < t.entries.length + 1,
      ("run-" ++ toString number ++ "-" ++ Naming.suffix tries).utf8ByteSize ≤ 255) ∧
    t.Closed ∧ a.classesDir.Avoids here ((a.scratchPath here).location here)

instance (a : Arena) (here : Location) (files : FileTree) : Decidable (a.Roomy here files) :=
  inferInstanceAs (Decidable (_ = _ ∧ _ = _ ∧ _ < _ ∧ _ ∧ FileTree.Closed _ ∧ Path.Avoids ..))

theorem Roomy.usable (roomy : a.Roomy here files) (counted : a.naming = .counting) :
    a.Usable here files := by
  obtain ⟨made, found, room, names, closed, apart⟩ := roomy
  refine ⟨made, found, room, fun number least t fewer => ?_, fun s m => closed.get?_of_none,
    fun s _ first isPrefix below => ?_⟩
  · obtain ⟨tries, few, isCounted⟩ := Naming.exists_count t ((a.scratchPath here).location here)
      ("run-" ++ toString number ++ "-")
    have isDrawn : Naming.counting.draw t ((a.scratchPath here).location here)
        ("run-" ++ toString number ++ "-") = Naming.suffix tries := isCounted
    rw [counted, Naming.name, isDrawn]
    exact names number (Nat.lt_succ_of_le least) tries (Nat.lt_succ_of_le (few.trans fewer))
  · exact apart first isPrefix ((List.prefix_append _ _).trans below)

/-- Where the scratch directory can be used, a file can be copied into a private directory. -/
theorem Usable.takeSnapshot {origin : Path} {final : String} {l : Location} {e : Entry}
    (usable : a.Usable here files) (same : a.SameDirs a') (number : c.number ≤ a.next + 1)
    (named : origin.fileName? = some final) (isFinal : Path.IsName final)
    (noZero : '\x00' ∉ final.toList) (fits : final.utf8ByteSize ≤ 255)
    (located : files.locate here origin = .ok (l, e)) (isFile : e.isFile = true) :
    ∃ files' dir executable,
      a'.takeSnapshot files here origin c = (files', .ok (dir, executable)) := by
  obtain ⟨made, found, room, names, hollow, -⟩ := usable
  have notDirectory : e ≠ .directory := by
    rintro rfl
    cases isFile
  have grown := FileTree.makeDirs_grows files here a.scratchDir
  have makes : files.makeDirs here a.scratchDir = ((files.makeDirs here a.scratchDir).1, none) :=
    Prod.ext rfl made
  generalize (files.makeDirs here a.scratchDir).1 = t at makes found names hollow grown
  obtain ⟨accepted, start, walked⟩ := FileTree.foldlM_names_of_directory found
  have leads : t.Leads here (a.scratchPath here) := ⟨start, walked⟩
  simp only [Arena.takeSnapshot, same.scratchDir, same.naming, makes, named, Option.getD_some]
  rw [show here.path.join a.scratchDir = a.scratchPath here from rfl, found]
  simp only
  generalize a.scratchPath here = p at *
  -- The name that is drawn is free, and there is room for it.
  have isName := isName_name a.naming t (p.location here) c.number
  have free := a.naming.free t (p.location here) ("run-" ++ toString c.number ++ "-")
  have short := names c.number number t (Nat.le_refl _)
  have zero := noZero_name a.naming t (p.location here) c.number
  rw [← Naming.name] at free
  generalize a.naming.name t (p.location here) ("run-" ++ toString c.number ++ "-") = s at *
  have acceptedDir : FileTree.Acceptable (p.child s) := accepted.child isName zero (by omega)
  have acceptedFile : FileTree.Acceptable ((p.child s).child final) := by
    have size := Path.size_child_le (p := p) isName
    exact acceptedDir.child isFinal noZero (by omega)
  rw [FileTree.makeDir_child_ok isName acceptedDir short leads free]
  simp only
  have kept : t.KeepsDirectories (t.insert (p.location here ++ [s]) .directory) :=
    FileTree.keepsDirectories_insert (by simp [free])
  have there : t.get? l = some e := (grown l).file (FileTree.locate_get? located)
  have other : l ≠ p.location here ++ [s] := by
    rintro rfl
    cases free.symm.trans there
  have located' := FileTree.locate_mono (grown.keepsDirectories.trans kept) located
    ((FileTree.get?_insert_ne other).trans there)
  have vacant : (t.insert (p.location here ++ [s]) .directory).get?
      ((p.child s).location here ++ [final]) ≠ some .directory := by
    rw [Path.location_child isName, FileTree.get?_insert_ne (by simp), List.append_assoc]
    intro taken
    cases (hollow s [final] free).symm.trans taken
  obtain ⟨copied, isCopied⟩ := FileTree.copy_child_ok isFinal located' notDirectory acceptedFile fits
    ((FileTree.leads_child_iff isName).mpr ⟨leads.mono kept, short,
      FileTree.get?_insert_self t _ (by simp)⟩) vacant
  rw [isCopied]
  exact ⟨_, _, _, rfl⟩

theorem location_scratchPath (proper : ∀ name ∈ here, Path.IsName name) :
    a.scratchDir.location here = (a.scratchPath here).location here := by
  unfold scratchPath
  cases relative : a.scratchDir.isAbsolute with
  | true => rw [Path.join, if_pos relative]
  | false =>
    rw [Path.location_join relative, Path.location_path proper here, Path.location, Path.start,
      relative, if_neg (by decide)]

theorem Usable.congr (usable : a.Usable here files) (same : a.SameDirs a') (next : a'.next = a.next) :
    a'.Usable here files := by
  have scratch : a'.scratchPath here = a.scratchPath here := by
    rw [scratchPath, same.scratchDir, scratchPath]
  constructor
  · rw [same.scratchDir]
    exact usable.made
  · rw [same.scratchDir, scratch]
    exact usable.found
  · rw [scratch]
    exact usable.room
  · rw [same.scratchDir, scratch, same.naming, next]
    exact usable.names
  · rw [same.scratchDir, scratch]
    exact usable.hollow
  · rw [same.classesDir, scratch]
    exact usable.apart

/-- Where a private directory is removed, the scratch directory can be used as before. -/
theorem Usable.withoutCopy {n : ContextNode} (usable : a.Usable here files)
    (fit : n.Fit here (a.scratchPath here) a.classesDir)
    (proper : ∀ name ∈ here, Path.IsName name) :
    a.Usable here (Arena.withoutCopy files here n) := by
  cases isSnapshot : n.snapshot with
  | none =>
    rw [Arena.withoutCopy, isSnapshot]
    exact usable
  | some dir =>
    obtain ⟨s, rfl, ⟨isName, -⟩, avoids⟩ := fit.copy dir isSnapshot
    have fewer := FileTree.size_removeTree_le files here ((a.scratchPath here).child s)
    simp only [Arena.withoutCopy, isSnapshot]
    cases located : files.locate here ((a.scratchPath here).child s) with
    | error cause =>
      simp only [FileTree.removeTree, located]
      exact usable
    | ok found =>
      obtain ⟨l, e⟩ := found
      by_cases isDirectory : e.isDirectory = true
      swap
      · have refused : (!e.isDirectory) = true := by simpa using isDirectory
        simp only [FileTree.removeTree, located, if_pos refused]
        exact usable
      obtain rfl := Entry.isDirectory_iff.mp isDirectory
      obtain ⟨-, -, leads, rfl, -⟩ := (FileTree.locate_child_iff isName).mp located
      obtain ⟨t, removed, gone⟩ := FileTree.removeTree_child isName located avoids
      rw [removed] at fewer ⊢
      have leads' := leads.of_avoids avoids fun m outside => by rw [gone, if_neg outside]
      have same := FileTree.makeDirs_of_leads (leads_scratchDir proper leads)
      obtain ⟨made, found, room, names, hollow, apart⟩ := usable
      rw [same] at found names hollow
      have directory : t.get? ((a.scratchPath here).location here) = some .directory := by
        have outside : ¬ (a.scratchPath here).location here ++ [s] <+:
            (a.scratchPath here).location here := fun below => by simpa using below.length_le
        rw [gone, if_neg outside]
        exact FileTree.locate_get? found
      have again : t.makeDirs here a.scratchDir = (t, none) :=
        FileTree.makeDirs_again made (leads_scratchDir proper leads')
          ((location_scratchPath proper).symm ▸ directory)
      have accepted := (FileTree.foldlM_names_of_directory found).1
      have noError : (t.makeDirs here a.scratchDir).2 = none := by rw [again]
      have tree : (t.makeDirs here a.scratchDir).1 = t := by rw [again]
      refine ⟨noError, ?_, room, ?_, ?_, apart⟩
      · rw [tree]
        exact FileTree.locate_of_leads accepted leads' directory
      · intro number isNumber t' few
        rw [tree] at few
        exact names number isNumber t' (Nat.le_trans few fewer)
      · intro s' m free
        rw [tree] at free ⊢
        rw [gone] at free ⊢
        split
        · rfl
        · rename_i outside
          have other : ¬ (a.scratchPath here).location here ++ [s] <+:
              (a.scratchPath here).location here ++ [s'] := fun below =>
            outside (below.trans ((List.prefix_append_right_inj _).mpr (by simp)))
          rw [if_neg other] at free
          exact hollow s' m free

/-! ### What is loaded -/

/-- A new run context may load what its stage shows, which is the directory of executables. -/
theorem Furnished.loadable_createRun (furnished : a.Furnished here p a.classesDir)
    (forest : a.Forest) :
    a.createRun.1.loadable a.createRun.2 = .ok [a.classesDir] := by
  obtain ⟨stage, isMember, isId, isStage⟩ := forest.stage.current _ a.currentStage_stage
  have shows := (furnished.stage stage isMember).stage isStage
  have made : a.createRun.1.node? a.createRun.2 =
      some ⟨a.createRun.2, some a.stage.2, .run, [], none, none⟩ :=
    forest.createRun.node?_of_mem (n := ⟨a.createRun.2, some a.stage.2, .run, [], none, none⟩)
      (List.mem_append_right _ (List.mem_singleton_self _))
  have found : a.createRun.1.node? a.stage.2 = some stage :=
    isId ▸ forest.createRun.node?_of_mem (List.mem_append_left _ isMember)
  simp [loadable, live_of_node? made, live_of_node? found, shows, bind, Except.bind, pure, Except.pure]

/-- A name of a private directory is not at the end of a path of other names below the executables. -/
theorem Usable.outside {names : List String} (usable : a.Usable here files) (isRunName : IsRunName s)
    (others : ∀ name ∈ names, ¬ IsRunName name) :
    ¬ (a.scratchPath here).location here ++ [s] <+: a.classesDir.location here ++ names := by
  intro below
  obtain ⟨rest, split⟩ := below
  have above := usable.apart s isRunName a.classesDir.names (List.prefix_refl _)
  rcases List.append_eq_append_iff.mp split with ⟨more, shorter, -⟩ | ⟨more, longer, rfl⟩
  · exact above ⟨more, shorter.symm⟩
  · rcases List.eq_nil_or_concat more with rfl | ⟨before, last, rfl⟩
    · rw [List.append_nil] at longer
      exact above ⟨[], (List.append_nil _).trans longer⟩
    · rw [List.concat_eq_append, ← List.append_assoc] at longer
      obtain ⟨-, same⟩ := List.append_inj' longer rfl
      exact others last (by simp) (List.singleton_inj.mp same ▸ isRunName)

/-- An executable stays where it is when a private directory is removed. -/
theorem Usable.keeps {n : ContextNode} {first second : String} {l : Location} {e : Entry}
    (usable : a.Usable here files) (fit : n.Fit here (a.scratchPath here) a.classesDir)
    (isFirst : Path.IsName first) (isSecond : Path.IsName second)
    (others : ∀ name ∈ [first, second], ¬ IsRunName name)
    (located : files.locate here ((a.classesDir.child first).child second) = .ok (l, e)) :
    (Arena.withoutCopy files here n).locate here ((a.classesDir.child first).child second) =
      .ok (l, e) := by
  cases isSnapshot : n.snapshot with
  | none => rwa [Arena.withoutCopy, isSnapshot]
  | some dir =>
    obtain ⟨s, rfl, isRunName, avoids⟩ := fit.copy dir isSnapshot
    simp only [Arena.withoutCopy, isSnapshot]
    cases there : files.locate here ((a.scratchPath here).child s) with
    | error cause => simpa only [FileTree.removeTree, there] using located
    | ok found =>
      obtain ⟨m, e'⟩ := found
      by_cases isDirectory : e'.isDirectory = true
      swap
      · have refused : (!e'.isDirectory) = true := by simpa using isDirectory
        simpa only [FileTree.removeTree, there, if_pos refused] using located
      obtain rfl := Entry.isDirectory_iff.mp isDirectory
      obtain ⟨-, -, -, rfl, -⟩ := (FileTree.locate_child_iff isRunName.1).mp there
      obtain ⟨t, removed, gone⟩ := FileTree.removeTree_child isRunName.1 there avoids
      rw [removed]
      have same : ∀ m, ¬ (a.scratchPath here).location here ++ [s] <+: m → t.get? m = files.get? m :=
        fun m outside => by rw [gone, if_neg outside]
      obtain ⟨accepted, fits, leads, rfl, isThere⟩ := (FileTree.locate_child_iff isSecond).mp located
      obtain ⟨leads, fits', directory⟩ := (FileTree.leads_child_iff isFirst).mp leads
      have notFirst : ∀ name ∈ [first], ¬ IsRunName name := by simp [others]
      have outside := usable.outside isRunName notFirst
      have outside' := usable.outside isRunName others
      have isLocation : (a.classesDir.child first).location here ++ [second] =
          a.classesDir.location here ++ [first, second] := by
        rw [Path.location_child isFirst, List.append_assoc]
        rfl
      refine (FileTree.locate_child_iff isSecond).mpr ⟨accepted, fits, ?_, rfl, ?_⟩
      · refine (FileTree.leads_child_iff isFirst).mpr ⟨?_, fits', (same _ outside).trans directory⟩
        exact leads.of_avoids (usable.apart s isRunName) same
      · rw [isLocation, same _ outside', ← isLocation, isThere]

/-- Where the scratch directory can be used, a file in a directory of the executables is loaded into a
new run context, and its copy has the same content. -/
theorem Usable.load {first second : String} {content : Bytes}
    (usable : a.Usable here files) (forest : a.Forest)
    (furnished : a.Furnished here (a.scratchPath here) a.classesDir)
    (proper : ∀ name ∈ here, Path.IsName name) (isFirst : Path.IsName first)
    (isSecond : Path.IsName second) (noZero : '\x00' ∉ second.toList)
    (isFile : files.isFile here ((a.classesDir.child first).child second) = true)
    (content? : files.read here ((a.classesDir.child first).child second) = .ok content) :
    ∃ files' a' loaded, a.createRun.1.load files here a.createRun.2 ⟨first ++ "/" ++ second⟩ =
        (files', a', .ok loaded) ∧ loaded.name = ⟨first ++ "/" ++ second⟩ ∧
      files'.read here loaded.executable = .ok content := by
  have same : a.SameDirs a.createRun.1 := a.sameDirs_perform files here .createRun
  obtain ⟨e, located, file⟩ := FileTree.locate_of_isFile isFile
  obtain ⟨-, fits, -⟩ := (FileTree.locate_child_iff isSecond).mp located
  have named : ((a.classesDir.child first).child second).fileName? = some second :=
    Path.fileName?_of_steps (Path.steps_child isSecond) isSecond.2.2.1
  have number : a.createRun.2.number ≤ a.next + 1 := by
    simp only [createRun, add, stage]
    split <;> simp
  obtain ⟨files', dir, executable, taken⟩ :=
    usable.takeSnapshot same number named isSecond noZero fits located file
  obtain ⟨s, isDir, isExecutable, copies⟩ := takeSnapshot_ok proper taken named isSecond located
  have relative : (Path.mk (first ++ "/" ++ second)).isAbsolute = false := by
    obtain ⟨c, rest, letters⟩ := List.exists_cons_of_ne_nil
      (show first.toList ≠ [] by simpa using isFirst.1)
    have notSlash : c ≠ '/' := fun slash => isFirst.2.2.2 (by simp [letters, slash])
    simp [Path.isAbsolute, letters, notSlash]
  have origin : findOrigin files here [a.classesDir] ⟨first ++ "/" ++ second⟩ =
      .ok ((a.classesDir.child first).child second) := by
    rw [Path.child_child isFirst isSecond] at isFile ⊢
    simp [findOrigin, relative, isFile]
  generalize isLoaded : LoadedArtifact.mk a.createRun.2 ⟨first ++ "/" ++ second⟩
    ((a.classesDir.child first).child second) executable = loaded
  have loads : a.createRun.1.load files here a.createRun.2 ⟨first ++ "/" ++ second⟩ =
      (files', a.createRun.1.holding loaded dir, .ok loaded) := by
    simp only [Arena.load, furnished.loadable_createRun forest, origin, taken, isLoaded]
    rw [← isLoaded]
    rfl
  obtain ⟨l, e', located', isContent⟩ := FileTree.read_ok_iff.mp content?
  cases located.symm.trans located'
  have copied := copies.holds.file
  rw [← isDir, ← isExecutable, show executable = loaded.executable by rw [← isLoaded]] at copied
  exact ⟨files', _, loaded, loads, by rw [← isLoaded],
    FileTree.read_ok_iff.mpr ⟨_, e, copied, isContent⟩⟩

end Arena
end SimWorkbench
