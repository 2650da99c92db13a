import SimWorkbench.Proofs.Context.Account
import SimWorkbench.Proofs.FileTree.Parent
import SimWorkbench.Proofs.FileTree.Removal

/-!
# Private copies

A copy is made in a directory with a free name below the scratch directory. It stays as it is for as
long as nothing in its directory is changed and the path of the scratch directory leads there, and it
is removed without a trace.
-/
namespace SimWorkbench

namespace Path

variable {p : Path} {name final : String} {here : Location}

/-- The last step of a path is its file name. -/
theorem fileName?_of_steps {before : List String} (steps : p.steps = before ++ [final])
    (notParent : final ≠ "..") : p.fileName? = some final := by
  have texts : p.named.map Component.text = before ++ [final] := (text_of_named p).trans steps
  rcases List.eq_nil_or_concat p.named with none | ⟨rest, c, named⟩
  · simp [none] at texts
  rw [List.concat_eq_append] at named
  have last : p.components.getLast? = some c := by
    cases absolute : p.isAbsolute with
    | true => rw [components_absolute absolute, named, ← List.cons_append, List.getLast?_concat]
    | false => rw [components_relative absolute, named, ← List.append_assoc, List.getLast?_concat]
  rw [named, List.map_append] at texts
  obtain ⟨-, text⟩ := List.append_inj' texts rfl
  obtain ⟨segment, -⟩ := named_spec p c (by simp [named])
  have isFinal : c.text = final := by simpa using text
  rw [isFinal] at segment
  cases c with
  | root | current => cases segment
  | parent =>
    cases segment
    exact absurd rfl notParent
  | name text =>
    cases segment
    simp only [fileName?, last]

end Path

namespace FileTree

variable {t t' : FileTree} {here l m : Location} {p : Path} {name final : String} {e : Entry}

/-- A path that leads to a directory needs none to be made. -/
theorem makeDirs_of_leads (leads : t.Leads here p) : (t.makeDirs here p).1 = t := by
  by_cases accepted : Acceptable p
  · exact makeDirs_of_exists (makeDir_of_entered accepted leads.start leads.walked)
  · -- A path that is not accepted is refused, and not because something is missing.
    obtain ⟨cause, refused⟩ := walk_unacceptable t here accepted
    unfold makeDirs makeDirsFrom
    split
    · rfl
    · rename_i notEmpty
      have found : cause ≠ .notFound := by
        rintro rfl
        exact accepted (acceptable_of_notFound (by simpa using notEmpty) refused)
      have makes : t.makeDir here p = .error cause := by simp [makeDir, refused, bind, Except.bind]
      have last : (t.makeLast here p).1 = t := by
        simp only [makeLast, makes]
        split <;> rfl
      split
      · rename_i missing _
        rw [makes] at missing
        cases missing
        exact absurd rfl found
      · exact last

/-- Whether the current directory is there only below directories, as in every file tree. -/
def Rooted (t : FileTree) (here : Location) : Prop :=
  t.get? here = some .directory → t.Reachable here

/-- A file has a name. -/
theorem fileName?_of_isFile (rooted : t.Rooted here)
    (isFile : t.isFile here p = true) : ∃ final e, p.fileName? = some final ∧ Path.IsName final ∧
      t.locate here p = .ok (p.location here, e) ∧ e.isFile = true := by
  obtain ⟨e, located, file⟩ := locate_of_isFile isFile
  have notDirectory : e ≠ .directory := by
    rintro rfl
    cases file
  obtain ⟨-, start, ⟨before, final, dir, steps, entered⟩, -, found⟩ :=
    (locate_file_iff notDirectory).mp located
  have above : ∀ m, m <+: p.start here → t.get? m = some .directory := by
    unfold Path.start at start ⊢
    split
    · exact directories_of_root (show ([] : List String).foldlM t.enter [] = .ok [] from rfl)
    · rename_i relative
      rw [if_neg relative] at start
      exact directories_of_root (rooted start)
  have notParent : final ≠ ".." := by
    rintro rfl
    have directory := directories_of_walk above entered dir.dropLast (List.dropLast_prefix dir)
    have location : p.location here = dir.dropLast := by
      rw [location_eq_steps, steps, List.foldl_append, ← foldlM_enter_ok entered]
      rfl
    rw [location, directory] at found
    exact notDirectory (Option.some.inj found).symm
  have member : final ∈ p.steps := by simp [steps]
  obtain ⟨notEmpty, noSlash⟩ := Path.segments_steps p final member
  have notSingle := Path.ne_dot_of_mem_steps member
  exact ⟨final, e, Path.fileName?_of_steps steps notParent, ⟨notEmpty, notSingle, notParent, noSlash⟩,
    located, file⟩

/-! ### A copy in its place -/

/-- Whether a file is in a directory of its own below a path. -/
structure Holds (t : FileTree) (here : Location) (p : Path) (name final : String) (e : Entry) :
    Prop where
  isName : Path.IsName name
  directory : t.locate here (p.child name) = .ok (p.location here ++ [name], .directory)
  file : t.locate here ((p.child name).child final) = .ok (p.location here ++ [name, final], e)
  avoids : p.Avoids here (p.location here ++ [name])

/-- A copy stays as long as its directory does and the path leads there. -/
theorem Holds.kept (holds : t.Holds here p name final e) (isFinal : Path.IsName final)
    (leads : t'.Leads here p)
    (same : ∀ m, p.location here ++ [name] <+: m → t'.get? m = t.get? m) :
    t'.Holds here p name final e := by
  obtain ⟨accepted, fits, -, -, directory⟩ := (locate_child_iff holds.isName).mp holds.directory
  obtain ⟨accepted', fits', -, isThere, file⟩ := (locate_child_iff isFinal).mp holds.file
  have directory' := (same _ (List.prefix_refl _)).trans directory
  refine ⟨holds.isName, ?_, ?_, holds.avoids⟩
  · exact (locate_child_iff holds.isName).mpr ⟨accepted, fits, leads, rfl, directory'⟩
  · refine (locate_child_iff isFinal).mpr ⟨accepted', fits', ?_, isThere, ?_⟩
    · exact (leads_child_iff holds.isName).mpr ⟨leads, fits, directory'⟩
    · rw [same _ ⟨[final], by simp⟩, file]

end FileTree

namespace Arena

variable {a : Arena} {files files' : FileTree} {here : Location} {c : ContextId}

/-- The scratch directory as seen from the root. -/
def scratchPath (a : Arena) (here : Location) : Path := here.path.join a.scratchDir

/-- The name of a private directory is a name, whatever is drawn. -/
theorem isName_name (naming : Naming) (files : FileTree) (dir : Location) (n : Nat) :
    Path.IsName (naming.name files dir ("run-" ++ toString n ++ "-")) := by
  have noDigits : '/' ∉ Nat.toDigits 10 n := fun member => by
    cases Nat.isDigit_of_mem_toDigits (by decide) (by decide) member
  have noDrawn : '/' ∉ (naming.draw files dir ("run-" ++ toString n ++ "-")).toList := fun member => by
    cases naming.drawn _ _ _ _ member
  refine ⟨fun same => ?_, fun same => ?_, fun same => ?_, ?_⟩
  · simpa [Naming.name] using congrArg String.toList same
  · simpa [Naming.name] using congrArg String.toList same
  · simpa [Naming.name] using congrArg String.toList same
  · simp only [Naming.name, String.toList_append, List.mem_append, not_or]
    exact ⟨⟨⟨by decide, by simpa using noDigits⟩, by decide⟩, noDrawn⟩

/-! ### Making a copy -/

theorem isAbsolute_scratchPath (proper : ∀ name ∈ here, Path.IsName name) :
    (a.scratchPath here).isAbsolute = true := by
  obtain ⟨-, absolute⟩ := Path.names_path fun name member =>
    ⟨(proper name member).1, (proper name member).2.2.2⟩
  cases relative : a.scratchDir.isAbsolute with
  | true => rw [scratchPath, Path.join, if_pos relative, relative]
  | false => rw [scratchPath, Path.isAbsolute_join relative, absolute]

/-- The path that the arena was given leads to the scratch directory if it does so from the root. -/
theorem leads_scratchDir (proper : ∀ name ∈ here, Path.IsName name)
    (leads : files.Leads here (a.scratchPath here)) : files.Leads here a.scratchDir := by
  cases relative : a.scratchDir.isAbsolute with
  | true =>
    have same : a.scratchPath here = a.scratchDir := by rw [scratchPath, Path.join, if_pos relative]
    exact same ▸ leads
  | false =>
    obtain ⟨names, -⟩ := Path.names_path fun name member =>
      ⟨(proper name member).1, (proper name member).2.2.2⟩
    have walked := leads.walked
    rw [Path.start, if_pos (isAbsolute_scratchPath proper), scratchPath, Path.names_join relative,
      names, List.foldlM_append] at walked
    cases entered : here.foldlM files.enter [] with
    | error cause => simp [entered, bind, Except.bind] at walked
    | ok dir =>
      have isHere : dir = here := by
        rw [FileTree.foldlM_enter_ok entered, Path.foldl_enter_names here proper]
        rfl
      subst isHere
      rw [entered] at walked
      have start : files.get? dir = some .directory :=
        FileTree.directories_of_root entered dir (List.prefix_refl _)
      have starts : a.scratchDir.start dir = dir := by rw [Path.start, relative, if_neg (by simp)]
      exact FileTree.leads_of_walked (starts.symm ▸ start) (starts.symm ▸ walked)

/-- What the path from the root does not come by, the path that the arena was given does not come by
either. -/
theorem avoids_scratchDir {l : Location} (proper : ∀ name ∈ here, Path.IsName name)
    (avoids : (a.scratchPath here).Avoids here l) : a.scratchDir.Avoids here l := by
  cases relative : a.scratchDir.isAbsolute with
  | true =>
    have same : a.scratchPath here = a.scratchDir := by rw [scratchPath, Path.join, if_pos relative]
    exact same ▸ avoids
  | false =>
    obtain ⟨names, -⟩ := Path.names_path fun name member =>
      ⟨(proper name member).1, (proper name member).2.2.2⟩
    intro first isPrefix below
    refine avoids (here ++ first) ?_ ?_
    · rw [scratchPath, Path.names_join relative, names]
      exact (List.prefix_append_right_inj here).mpr isPrefix
    · rw [Path.start, if_pos (isAbsolute_scratchPath proper), List.foldl_append,
        Path.foldl_enter_names here proper]
      rwa [Path.start, relative, if_neg (by simp)] at below

/-- What making a copy does to the files, once the way to the scratch directory is there: a directory
with a free name is made, and in it the copy. -/
structure Copies (here : Location) (p : Path) (name final : String) (e : Entry)
    (way files' : FileTree) : Prop where
  holds : files'.Holds here p name final e
  leads : files'.Leads here p
  free : way.get? (p.location here ++ [name]) = none
  rest : ∀ m, ¬ p.location here ++ [name] <+: m → files'.get? m = way.get? m

theorem copies_of_made {p origin : Path} {name final : String} {e : Entry} {lo : Location}
    {t t' t'' : FileTree} (absolute : p.isAbsolute = true) (grown : files.Grows t)
    (isName : Path.IsName name) (made : t.makeDir here (p.child name) = .ok t')
    (isFinal : Path.IsName final) (located : files.locate here origin = .ok (lo, e))
    (copied : t'.copy here origin ((p.child name).child final) = .ok t'') :
    Copies here p name final e t t'' := by
  obtain ⟨accepted, fits, leads, free, rfl⟩ := FileTree.makeDir_child isName made
  have isDirectory : (p.child name).location here = p.location here ++ [name] :=
    Path.location_child isName
  generalize dir : p.location here ++ [name] = l at free isDirectory copied
  have made : files.KeepsDirectories (t.insert l .directory) :=
    grown.keepsDirectories.trans (FileTree.keepsDirectories_insert (by simp [free]))
  have there : t.get? lo = some e := (grown lo).file (FileTree.locate_get? located)
  have other : lo ≠ l := by
    rintro rfl
    simp [free] at there
  have located' := FileTree.locate_mono made located ((FileTree.get?_insert_ne other).trans there)
  obtain ⟨accepted', fits', -, notDirectory, rfl⟩ := FileTree.copy_child isFinal located' copied
  rw [isDirectory] at notDirectory ⊢
  have kept : FileTree.KeepsDirectories (t.insert l .directory)
      ((t.insert l .directory).insert (l ++ [final]) e) :=
    FileTree.keepsDirectories_insert notDirectory
  have notRoot : l ≠ [] := by simp [← dir]
  have directory : ((t.insert l .directory).insert (l ++ [final]) e).get? l = some .directory :=
    kept _ (FileTree.get?_insert_self _ _ notRoot)
  have leads' := (leads.mono (FileTree.keepsDirectories_insert (by simp [free]))).mono kept
  refine ⟨⟨isName, ?_, ?_, ?_⟩, leads', dir ▸ free, ?_⟩
  · exact (FileTree.locate_child_iff isName).mpr ⟨accepted, fits, leads', dir ▸ rfl, dir ▸ directory⟩
  · refine (FileTree.locate_child_iff isFinal).mpr ⟨accepted', fits', ?_, ?_, ?_⟩
    · exact (FileTree.leads_child_iff isName).mpr ⟨leads', fits, dir ▸ directory⟩
    · rw [isDirectory, ← dir, List.append_assoc]
      rfl
    · have same : p.location here ++ [name, final] = l ++ [final] := by
        rw [← dir, List.append_assoc]
        rfl
      rw [same]
      exact FileTree.get?_insert_self _ _ (by simp)
  · rw [dir]
    exact leads.avoids absolute (by simp [free])
  · intro m outside
    rw [dir] at outside
    have notFile : m ≠ l ++ [final] := by
      rintro rfl
      exact outside (List.prefix_append _ _)
    have notDir : m ≠ l := by
      rintro rfl
      exact outside (List.prefix_refl _)
    rw [FileTree.get?_insert_ne notFile, FileTree.get?_insert_ne notDir]

theorem takeSnapshot_ok {origin dir executable : Path} {final : String} {e : Entry} {lo : Location}
    (proper : ∀ name ∈ here, Path.IsName name)
    (taken : a.takeSnapshot files here origin c = (files', .ok (dir, executable)))
    (named : origin.fileName? = some final) (isFinal : Path.IsName final)
    (located : files.locate here origin = .ok (lo, e)) :
    ∃ name, dir = (a.scratchPath here).child name ∧ executable = dir.child final ∧
      Copies here (a.scratchPath here) name final e (files.makeDirs here a.scratchDir).1 files' := by
  have absolute := isAbsolute_scratchPath (a := a) proper
  have grown := FileTree.makeDirs_grows files here a.scratchDir
  unfold takeSnapshot at taken
  rcases makes : files.makeDirs here a.scratchDir with ⟨t, _ | cause⟩
  swap
  · simp [makes] at taken
  rw [makes] at grown
  simp only [makes] at taken
  cases scratch : t.locate here (here.path.join a.scratchDir) with
  | error cause => simp [scratch] at taken
  | ok there =>
    simp only [scratch] at taken
    have isName := isName_name a.naming t there.1 c.number
    generalize a.naming.name t there.1 ("run-" ++ toString c.number ++ "-") = name at taken isName
    cases made : t.makeDir here ((here.path.join a.scratchDir).child name) with
    | error cause => simp [made] at taken
    | ok t' =>
      simp only [made, named, Option.getD_some] at taken
      cases copied : t'.copy here origin (((here.path.join a.scratchDir).child name).child final) with
      | error cause => simp [copied] at taken
      | ok t'' =>
        simp only [copied, Prod.mk.injEq, Except.ok.injEq] at taken
        obtain ⟨rfl, rfl, rfl⟩ := taken
        exact ⟨name, rfl, rfl, copies_of_made absolute grown isName made isFinal located copied⟩

/-- Where no copy can be made, at most the way to the scratch directory was made. -/
theorem takeSnapshot_error {origin : Path} {e : ResolutionError}
    (failed : a.takeSnapshot files here origin c = (files', .error e)) :
    files' = (files.makeDirs here a.scratchDir).1 := by
  unfold takeSnapshot at failed
  rcases makes : files.makeDirs here a.scratchDir with ⟨t, _ | cause⟩
  swap
  · simp only [makes, Prod.mk.injEq] at failed
    exact failed.1.symm
  simp only [makes] at failed
  split at failed
  · exact (congrArg Prod.fst failed).symm
  · split at failed
    · exact (congrArg Prod.fst failed).symm
    · split at failed
      · exact (congrArg Prod.fst failed).symm
      · cases failed

/-! ### Loading -/

theorem node_of_loadable {places : List Path} (loadable : a.loadable c = .ok places) :
    ∃ n, a.node? c = some n ∧ n.layer = .run ∧ n.loaded = none := by
  unfold Arena.loadable at loadable
  cases found : a.node? c with
  | none => simp [live_of_none found, bind, Except.bind] at loadable
  | some n =>
    simp only [live_of_node? found, bind, Except.bind] at loadable
    by_cases isRun : n.layer = .run
    · rw [if_neg (not_not.mpr isRun)] at loadable
      cases loaded : n.loaded with
      | none => exact ⟨n, rfl, isRun, loaded⟩
      | some old => simp [loaded] at loadable
    · rw [if_pos isRun] at loadable
      cases loadable

/-- What is loaded is a file of the stage, and a copy of it is in its place. -/
structure Loads (a : Arena) (files : FileTree) (here : Location) (c : ContextId)
    (loaded : LoadedArtifact) (n : ContextNode) (name final : String) (e : Entry)
    (files' : FileTree) : Prop where
  found : a.node? c = some n
  isRun : n.layer = .run
  empty : n.loaded = none
  context : loaded.context = c
  executable : loaded.executable = ((a.scratchPath here).child name).child final
  isFinal : Path.IsName final
  origin : files.locate here loaded.origin = .ok (loaded.origin.location here, e)
  isFile : e.isFile = true
  copies : Copies here (a.scratchPath here) name final e (files.makeDirs here a.scratchDir).1 files'

/-- Where the path led before, no file is changed but in the new directory. -/
theorem Loads.rest {loaded : LoadedArtifact} {n : ContextNode} {s final : String} {e : Entry}
    (loads : a.Loads files here c loaded n s final e files')
    (proper : ∀ name ∈ here, Path.IsName name) (leads : files.Leads here (a.scratchPath here)) :
    files.get? ((a.scratchPath here).location here ++ [s]) = none ∧
      ∀ m, ¬ (a.scratchPath here).location here ++ [s] <+: m → files'.get? m = files.get? m := by
  have same := FileTree.makeDirs_of_leads (leads_scratchDir proper leads)
  have free := loads.copies.free
  have rest := loads.copies.rest
  rw [same] at free rest
  exact ⟨free, rest⟩

/-- There was no directory with the name. -/
theorem Loads.free {loaded : LoadedArtifact} {n : ContextNode} {s final : String} {e : Entry}
    (loads : a.Loads files here c loaded n s final e files') :
    files.get? ((a.scratchPath here).location here ++ [s]) ≠ some .directory := by
  intro isDirectory
  have made := (FileTree.makeDirs_grows files here a.scratchDir).keepsDirectories _ isDirectory
  rw [loads.copies.free] at made
  cases made

/-- All that loading can come to. -/
theorem load_spec (proper : ∀ name ∈ here, Path.IsName name)
    (rooted : files.Rooted here) (c : ContextId) (name : Path) :
    (∃ e, (a.load files here c name).2.2 = .error e ∧ (a.load files here c name).2.1 = a ∧
      ((a.load files here c name).1 = files ∨
        (a.load files here c name).1 = (files.makeDirs here a.scratchDir).1)) ∨
    ∃ loaded n s final e, a.Loads files here c loaded n s final e (a.load files here c name).1 ∧
      (a.load files here c name).2 = (a.holding loaded ((a.scratchPath here).child s), .ok loaded) := by
  rcases a.load_cases files here c name with ⟨e, refused⟩ | ⟨_, _, e, failed, refused⟩ |
    ⟨places, origin, files', dir, executable, loadable, found, taken, loads⟩
  · exact .inl ⟨e, by rw [refused], by rw [refused], .inl (by rw [refused])⟩
  · exact .inl ⟨e, by rw [refused], by rw [refused],
      .inr (by rw [refused]; exact takeSnapshot_error failed)⟩
  · obtain ⟨n, isNode, isRun, empty⟩ := node_of_loadable loadable
    have isFile : files.isFile here origin = true := by
      unfold findOrigin at found
      split at found
      · cases found
      · split at found
        · cases found
          exact List.find?_some ‹_›
        · cases found
    obtain ⟨final, e, named, isFinal, located, file⟩ := FileTree.fileName?_of_isFile rooted isFile
    obtain ⟨s, rfl, rfl, copies⟩ := takeSnapshot_ok proper taken named isFinal located
    refine .inr ⟨_, n, s, final, e, ?_, by rw [loads]⟩
    rw [loads]
    exact ⟨isNode, isRun, empty, rfl, rfl, isFinal, located, file, copies⟩

end Arena
end SimWorkbench
