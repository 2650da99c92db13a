import SimWorkbench.Proofs.FileTree.Change

/-!
# Spellings of a path

Paths are told apart by their components. Two spellings of one path lead to the same location, and a
file that is read under one of them is read under the other, as long as the system accepts both. A
path joined to another leads on from where that one leads.
-/
namespace SimWorkbench

namespace Path

/-- The segment that a component is written as, if the walk has to take one. -/
def Component.segment? : Component → Option String
  | .root | .current => none
  | .parent => some ".."
  | .name text => some text

/-- The segments that a walk takes, single dots apart. -/
def steps (p : Path) : List String := p.names.filter (· ≠ ".")

theorem ne_dot_of_mem_steps {p : Path} {name : String} (member : name ∈ p.steps) : name ≠ "." := by
  simpa using (List.mem_filter.mp member).2

theorem sortKey_injective {a b : Component} (same : a.sortKey = b.sortKey) : a = b := by
  cases a <;> cases b <;> simp [Component.sortKey] at same ⊢
  rw [← String.toList_inj]
  exact List.map_injective_iff.mpr (fun x y h => Char.ext (UInt32.toNat_inj.mp h)) same

theorem components_of_same {p q : Path} (same : p.sortKey = q.sortKey) :
    p.components = q.components :=
  List.map_injective_iff.mpr (fun _ _ => sortKey_injective) same

theorem segment?_componentOf (segment : List Char) :
    (componentOf segment).bind Component.segment? =
      if segment = [] ∨ segment = ['.'] then none else some (String.ofList segment) := by
  unfold componentOf isIdle
  by_cases idle : segment = [] ∨ segment = ['.']
  · simp [idle]
  · by_cases double : segment = ['.', '.']
    · simp [double, Component.segment?]
    · simp [idle, double, Component.segment?]

/-- The segment of a component, from the segment it was read from. -/
def step? (segment : List Char) : Option String := (componentOf segment).bind Component.segment?

theorem ofList_eq_dot {segment : List Char} : String.ofList segment = "." ↔ segment = ['.'] := by
  rw [← String.toList_inj, String.toList_ofList]
  rfl

theorem steps_eq_segments (p : Path) : p.steps = p.segments.filterMap step? := by
  unfold steps names
  induction p.segments with
  | nil => rfl
  | cons segment rest ih =>
    by_cases empty : segment = []
    · simpa [empty, step?, segment?_componentOf] using ih
    · by_cases single : segment = ['.']
      · simpa [single, step?, segment?_componentOf, ofList_eq_dot] using ih
      · simpa [empty, single, step?, segment?_componentOf, ofList_eq_dot] using ih

theorem first_of_isAbsolute {p : Path} {first : List Char} {rest : List (List Char)}
    (absolute : p.isAbsolute = true) (segments : p.segments = first :: rest) : first = [] := by
  unfold isAbsolute at absolute
  unfold Path.segments at segments
  cases text : p.text.toList with
  | nil => simp [text] at absolute
  | cons c cs =>
    obtain rfl : c = '/' := by simpa [text] using absolute
    have split : ('/' :: cs).splitOn '/' = [] :: cs.splitOn '/' :=
      List.splitOn_append_cons_self [] cs
    rw [text, split] at segments
    exact (List.cons.inj segments).1.symm

/-- What a walk takes is told by the components. -/
theorem steps_eq_components (p : Path) : p.steps = p.components.filterMap Component.segment? := by
  rw [steps_eq_segments, components]
  cases segments : p.segments with
  | nil => rfl
  | cons first rest =>
    have tail : rest.filterMap step? = (rest.filterMap componentOf).filterMap Component.segment? := by
      rw [List.filterMap_filterMap]
      rfl
    rw [List.filterMap_cons, tail]
    simp only [List.filterMap_append]
    by_cases absolute : p.isAbsolute = true
    · obtain rfl := first_of_isAbsolute absolute segments
      simp [absolute, step?, segment?_componentOf, Component.segment?]
    · by_cases single : first = ['.']
      · simp [absolute, single, step?, segment?_componentOf, Component.segment?]
      · simp only [absolute, single, step?]
        cases componentOf first with
        | none => simp
        | some c => cases c <;> simp [Component.segment?]

theorem componentOf_ne_root (segment : List Char) : componentOf segment ≠ some .root := by
  unfold componentOf
  split
  · simp
  · split <;> simp

/-- Whether a path is absolute is told by its first component. -/
theorem isAbsolute_eq_components (p : Path) : p.isAbsolute = (p.components.head? == some .root) := by
  rw [components]
  cases segments : p.segments with
  | nil => exact absurd segments (List.splitOn_ne_nil _ _)
  | cons first rest =>
    by_cases absolute : p.isAbsolute = true
    · simp [absolute]
    · have later : (rest.filterMap componentOf).head? ≠ some .root := by
        intro root
        obtain ⟨segment, -, isRoot⟩ := List.mem_filterMap.mp (List.mem_of_mem_head? root)
        exact componentOf_ne_root segment isRoot
      simp only [absolute, Bool.false_eq_true, if_false]
      by_cases single : first = ['.']
      · simp [single]
      · simp only [single, if_false]
        cases found : componentOf first with
        | none => simpa using later
        | some c =>
          have : c ≠ .root := fun root => componentOf_ne_root first (root ▸ found)
          simp [this]

/-- Spellings of one path start a walk at the same place and take it along the same way. -/
theorem walk_of_same {p q : Path} (same : p.sortKey = q.sortKey) (here : Location) :
    p.start here = q.start here ∧ p.steps = q.steps := by
  have components := components_of_same same
  refine ⟨?_, ?_⟩
  · rw [start, start, isAbsolute_eq_components, isAbsolute_eq_components, components]
  · rw [steps_eq_components, steps_eq_components, components]

end Path

namespace FileTree

variable {t t' : FileTree} {here : Location} {p q : Path} {content : Bytes}

theorem foldlM_enter_steps (names : List String) (dir : Location) :
    (names.filter (· ≠ ".")).foldlM t.enter dir = names.foldlM t.enter dir := by
  induction names generalizing dir with
  | nil => rfl
  | cons name names ih =>
    by_cases single : name = "."
    · have stays : t.enter dir "." = .ok dir := by simp [enter]
      simp [single, stays, ← ih, bind, Except.bind]
    · rw [List.filter_cons_of_pos (by simpa using single), List.foldlM_cons, List.foldlM_cons]
      exact congrArg (t.enter dir name >>= ·) (funext ih)

theorem location_eq_steps (p : Path) (here : Location) :
    p.location here = p.steps.foldl Location.enter (p.start here) := by
  have skip : ∀ (names : List String) (dir : Location),
      (names.filter (· ≠ ".")).foldl Location.enter dir = names.foldl Location.enter dir := by
    intro names
    induction names with
    | nil => exact fun _ => rfl
    | cons name names ih =>
      intro dir
      by_cases single : name = "."
      · have stays : Location.enter dir "." = dir := by simp [Location.enter]
        simp [single, stays, ← ih]
      · rw [List.filter_cons_of_pos (by simpa using single), List.foldl_cons, List.foldl_cons, ih]
  exact (skip p.names (p.start here)).symm

/-- Spellings of one path lead to the same place. -/
theorem location_of_same (same : p.sortKey = q.sortKey) (here : Location) :
    p.location here = q.location here := by
  obtain ⟨start, steps⟩ := Path.walk_of_same same here
  rw [location_eq_steps, location_eq_steps, start, steps]

theorem enter_directory {segment : String} {dir next : Location}
    (entered : t.enter dir segment = .ok next) (name : segment ≠ "." ∧ segment ≠ "..") :
    t.get? next = some .directory := by
  simp only [enter, if_neg name.1, if_neg name.2] at entered
  split at entered
  · cases entered
  · split at entered <;> cases entered
    assumption

/-- Whether a spelling can be that of a file: the system accepts it, and a name that comes last has
no dot or slash after it. -/
def CanNameFile (p : Path) : Prop :=
  Acceptable p ∧ ∀ final, p.steps.getLast? = some final → final ≠ ".." →
    p.names.getLast? = some final ∧ (p.text.toList.getLast? == some '/') = false ∧
      final.utf8ByteSize ≤ 255

theorem steps_of_names {before : List String} {final : String} (names : p.names = before ++ [final]) :
    p.steps = before.filter (· ≠ ".") ++ if final = "." then [] else [final] := by
  rw [Path.steps, names, List.filter_append]
  by_cases single : final = "." <;> simp [single]

theorem foldlM_enter_concat {before : List String} {final : String} {first next : Location}
    (walked : (before ++ [final]).foldlM t.enter first = .ok next) :
    ∃ dir, before.foldlM t.enter first = .ok dir ∧ t.enter dir final = .ok next := by
  rw [List.foldlM_append] at walked
  cases entered : before.foldlM t.enter first with
  | error cause => simp [entered, bind, Except.bind] at walked
  | ok dir =>
    simp only [entered, List.foldlM_cons, List.foldlM_nil, bind_pure] at walked
    exact ⟨dir, rfl, walked⟩

/-- The walk that finds a file enters all but the last step, and the spelling can be that of a
file. -/
theorem steps_of_locate_file {l : Location} {e : Entry} (located : t.locate here p = .ok (l, e))
    (file : e ≠ .directory) :
    CanNameFile p ∧ t.get? (p.start here) = some .directory ∧
      (∃ before final dir, p.steps = before ++ [final] ∧
        before.foldlM t.enter (p.start here) = .ok dir) ∧
      t.get? l = some e := by
  obtain ⟨dir, last, walked, rfl, found, slash⟩ := locate_ok_iff.mp located
  obtain ⟨accepted, directory, ⟨-, rfl, rfl⟩ | ⟨before, final, names, entered, fits, rfl⟩⟩ :=
    walk_ok_iff.mp walked
  · rw [Last.location, directory] at found
    exact absurd (Option.some.inj found).symm file
  have steps := steps_of_names names
  rw [← foldlM_enter_steps] at entered
  by_cases single : final = "."
  · -- The path ends in a single dot, so that the walk has entered the last step as well.
    subst single
    rw [if_pos rfl, List.append_nil] at steps
    rw [← steps] at entered
    rcases List.eq_nil_or_concat p.steps with none | ⟨before', final', steps'⟩
    · rw [none] at entered
      cases entered
      rw [Last.ofSegment, if_pos rfl, Last.location, directory] at found
      exact absurd (Option.some.inj found).symm file
    · rw [List.concat_eq_append] at steps'
      rw [steps'] at entered
      obtain ⟨dir', entered', next⟩ := foldlM_enter_concat entered
      have notSingle : final' ≠ "." := Path.ne_dot_of_mem_steps (p := p) (by simp [steps'])
      have double : final' = ".." := by
        by_contra notDouble
        have := enter_directory next ⟨notSingle, notDouble⟩
        rw [Last.ofSegment, if_pos rfl, Last.location, this] at found
        exact absurd (Option.some.inj found).symm file
      refine ⟨⟨accepted, ?_⟩, directory, ⟨before', final', dir', steps', entered'⟩, found⟩
      intro f isLast notDouble
      rw [steps', List.getLast?_concat, Option.some.injEq] at isLast
      exact absurd (isLast ▸ double) notDouble
  · rw [if_neg single] at steps
    refine ⟨⟨accepted, ?_⟩, directory, ⟨_, final, dir, steps, entered⟩, found⟩
    intro f isLast notDouble
    rw [steps, List.getLast?_concat, Option.some.injEq] at isLast
    subst isLast
    refine ⟨by rw [names, List.getLast?_concat], ?_, ?_⟩
    · by_contra slashed
      rw [Bool.not_eq_false] at slashed
      exact file (slash ⟨final, by rw [Last.ofSegment, if_neg single, if_neg notDouble, slashed]⟩)
    · exact (fits.resolve_left single).resolve_left notDouble

/-- What stands where a path leads is found when the walk can enter all but the last step, if the
spelling can be that of a file. -/
theorem locate_of_steps {e : Entry} {before : List String} {final : String} {dir : Location}
    (spelled : CanNameFile p) (directory : t.get? (p.start here) = some .directory)
    (steps : p.steps = before ++ [final]) (entered : before.foldlM t.enter (p.start here) = .ok dir)
    (found : t.get? (p.location here) = some e) : t.locate here p = .ok (p.location here, e) := by
  obtain ⟨accepted, spelled⟩ := spelled
  rcases List.eq_nil_or_concat p.names with none | ⟨before', final', names⟩
  · simp [Path.steps, none] at steps
  rw [List.concat_eq_append] at names
  have steps' := steps_of_names names
  have lastStep : p.steps.getLast? = some final := by rw [steps, List.getLast?_concat]
  by_cases single : final' = "."
  · subst single
    rw [if_pos rfl, List.append_nil] at steps'
    have notSingle : final ≠ "." := Path.ne_dot_of_mem_steps (p := p) (by simp [steps])
    have double : final = ".." := by
      by_contra notDouble
      have isLast := (spelled final lastStep notDouble).1
      rw [names, List.getLast?_concat, Option.some.injEq] at isLast
      exact notSingle isLast.symm
    have up : before'.foldlM t.enter (p.start here) = .ok dir.dropLast := by
      rw [← foldlM_enter_steps, ← steps', steps, List.foldlM_append, entered, double]
      rfl
    have walked : t.walk here p = .ok (dir.dropLast, .here) :=
      walk_ok_iff.mpr ⟨accepted, directory, .inr ⟨before', ".", names, up, .inl rfl, rfl⟩⟩
    exact locate_ok_iff.mpr ⟨_, _, walked, (walk_location walked).symm, found, by simp⟩
  · rw [if_neg single] at steps'
    obtain ⟨rfl, equal⟩ := List.append_inj' (steps.symm.trans steps') rfl
    cases equal
    rw [foldlM_enter_steps] at entered
    have walked := walk_ok_iff.mpr ⟨accepted, directory, .inr ⟨before', final, names, entered, by
      by_cases double : final = ".."
      · exact .inr (.inl double)
      · exact .inr (.inr (spelled final lastStep double).2.2), rfl⟩⟩
    refine locate_ok_iff.mpr ⟨_, _, walked, (walk_location walked).symm, found, ?_⟩
    rintro ⟨name, isName⟩
    have notDouble : final ≠ ".." := by
      rintro rfl
      simp [Last.ofSegment] at isName
    rw [Last.ofSegment, if_neg single, if_neg notDouble, (spelled final lastStep notDouble).2.1]
      at isName
    cases isName

/-- Whether a file is found is told by the steps of the walk, for a spelling that can be that of a
file. -/
theorem locate_file_iff {l : Location} {e : Entry} (file : e ≠ .directory) :
    t.locate here p = .ok (l, e) ↔
      CanNameFile p ∧ t.get? (p.start here) = some .directory ∧
        (∃ before final dir, p.steps = before ++ [final] ∧
          before.foldlM t.enter (p.start here) = .ok dir) ∧
        l = p.location here ∧ t.get? l = some e := by
  constructor
  · intro located
    obtain ⟨spelled, directory, entered, found⟩ := steps_of_locate_file located file
    exact ⟨spelled, directory, entered, locate_location located, found⟩
  · rintro ⟨spelled, directory, ⟨before, final, dir, steps, entered⟩, rfl, found⟩
    exact locate_of_steps spelled directory steps entered found

/-- A file that is read under one spelling of its path is read under every other that ever was
read. -/
theorem read_of_same {past : Bytes} (same : p.sortKey = q.sortKey)
    (once : t'.read here p = .ok past) (now : t.read here q = .ok content) :
    t.read here p = .ok content := by
  have isFile : ∀ e : Entry, ∀ c, e.content? = some c → e ≠ .directory := by
    rintro e c readable rfl
    cases readable
  obtain ⟨_, e', located', readable'⟩ := read_ok_iff.mp once
  obtain ⟨_, e, located, readable⟩ := read_ok_iff.mp now
  obtain ⟨spelled, -⟩ := (locate_file_iff (isFile e' _ readable')).mp located'
  obtain ⟨-, directory, walked, rfl, found⟩ := (locate_file_iff (isFile e _ readable)).mp located
  obtain ⟨start, steps⟩ := Path.walk_of_same same here
  have location : q.location here = p.location here := by
    rw [location_eq_steps, location_eq_steps, start, steps]
  rw [← start, ← steps] at walked
  rw [← start] at directory
  rw [location] at found
  exact read_ok_iff.mpr ⟨_, e, (locate_file_iff (isFile e _ readable)).mpr
    ⟨spelled, directory, walked, rfl, found⟩, readable⟩

end FileTree

namespace Path

variable {p q : Path} {here : Location}

theorem names_of_slash {before after : List Char} (text : p.text.toList = before ++ '/' :: after) :
    p.names = (Path.mk (String.ofList before)).names ++ (Path.mk (String.ofList after)).names := by
  simp [names, segments, text, List.splitOn_append_cons_self]

theorem names_of_empty (empty : p.text.toList = []) : p.names = [] := by
  simp [names, segments, empty]

/-- A path joined to another is followed after it. -/
theorem names_join (relative : q.isAbsolute = false) : (p.join q).names = p.names ++ q.names := by
  unfold join
  rw [if_neg (by simp [relative])]
  by_cases empty : p.text.toList = []
  · have isEmpty : p.text.isEmpty = true := by simpa using empty
    have : Path.mk (p.text ++ q.text) = q := by
      rw [mk.injEq, ← String.toList_inj]
      simp [empty]
    simp [isEmpty, this, names_of_empty empty]
  by_cases slash : p.text.toList.getLast? = some '/'
  · obtain ⟨before, text⟩ := List.getLast?_eq_some_iff.mp slash
    have joined : (Path.mk (p.text ++ q.text)).text.toList = before ++ '/' :: q.text.toList := by
      simp [text]
    rw [if_pos (by simp [slash]), names_of_slash text, names_of_slash joined]
    simp [names_of_empty]
  · have isEmpty : p.text.isEmpty = false := by simpa using empty
    have joined : (Path.mk (p.text ++ "/" ++ q.text)).text.toList =
        p.text.toList ++ '/' :: q.text.toList := by
      simp
    rw [if_neg (by simp [isEmpty, slash]), names_of_slash joined]
    simp

theorem isAbsolute_join (relative : q.isAbsolute = false) :
    (p.join q).isAbsolute = p.isAbsolute := by
  unfold join
  rw [if_neg (by simp [relative])]
  by_cases empty : p.text.toList = []
  · have isEmpty : p.text.isEmpty = true := by simpa using empty
    have : Path.mk (p.text ++ q.text) = q := by
      rw [mk.injEq, ← String.toList_inj]
      simp [empty]
    simpa [isEmpty, this, isAbsolute, empty] using relative
  · obtain ⟨c, cs, text⟩ := List.exists_cons_of_ne_nil empty
    split <;> simp [isAbsolute, text]

/-- Letters at the end of a path go to what was joined last. -/
theorem append_join {name : String} (relative : (Path.mk name).isAbsolute = false)
    (notEmpty : name.toList ≠ []) (extension : String) :
    Path.mk ((p.join ⟨name⟩).text ++ extension) = p.join ⟨name ++ extension⟩ := by
  have relative' : (Path.mk (name ++ extension)).isAbsolute = false := by
    obtain ⟨c, cs, split⟩ := List.exists_cons_of_ne_nil notEmpty
    simpa [isAbsolute, split] using relative
  simp only [join, relative, relative', Bool.false_eq_true, if_false]
  split <;> simp only [String.append_assoc]

/-- Whether a text is one segment of a path and a name. -/
def IsName (name : String) : Prop :=
  name ≠ "" ∧ name ≠ "." ∧ name ≠ ".." ∧ '/' ∉ name.toList

instance (name : String) : Decidable (IsName name) := inferInstanceAs (Decidable (_ ∧ _ ∧ _ ∧ _))

theorem names_of_noSlash {name : String} (noSlash : '/' ∉ name.toList) (notEmpty : name ≠ "") :
    (Path.mk name).names = [name] ∧ (Path.mk name).isAbsolute = false := by
  have text : name.toList ≠ [] := by simpa using notEmpty
  refine ⟨by simp [names, segments, List.splitOn_eq_singleton noSlash, text], ?_⟩
  obtain ⟨c, cs, split⟩ := List.exists_cons_of_ne_nil text
  have : c ≠ '/' := by
    rintro rfl
    simp [split] at noSlash
  simp [isAbsolute, split, this]

theorem location_join (relative : q.isAbsolute = false) :
    (p.join q).location here = q.names.foldl Location.enter (p.location here) := by
  rw [location, names_join relative, List.foldl_append, start, isAbsolute_join relative]
  rfl

/-- A name below a path leads to that name below the path's location. -/
theorem location_child {name : String} (isName : IsName name) :
    (p.child name).location here = p.location here ++ [name] := by
  obtain ⟨notEmpty, notSingle, notDouble, noSlash⟩ := isName
  obtain ⟨names, relative⟩ := names_of_noSlash noSlash notEmpty
  rw [child, location_join relative, names]
  simp [Location.enter, notSingle, notDouble]

/-- The pieces between marks hold no mark. -/
theorem not_mem_of_mem_splitOn {mark : Char} (text : List Char) :
    ∀ piece ∈ text.splitOn mark, mark ∉ piece := by
  induction text with
  | nil => simp
  | cons c text ih =>
    rw [List.splitOn_cons_eq_if_modifyHead]
    split
    · simpa using ih
    · rename_i other
      cases split : text.splitOn mark with
      | nil => simp
      | cons first rest =>
        rw [split] at ih
        have : c ≠ mark := by simpa using other
        simpa [Ne.symm this] using ih

theorem noSlash_of_segment {segment : List Char} (member : segment ∈ p.segments) :
    '/' ∉ segment := not_mem_of_mem_splitOn p.text.toList segment member

/-- The components of a path but for a root or a single dot in front are written as names without
slashes. -/
theorem text_of_component {c : Component} {segment : List Char} (noSlash : '/' ∉ segment)
    (isComponent : componentOf segment = some c) :
    c.segment? = some c.text ∧ c.text ≠ "" ∧ c.text ≠ "." ∧ '/' ∉ c.text.toList := by
  unfold componentOf isIdle at isComponent
  split at isComponent
  · cases isComponent
  · rename_i notIdle
    split at isComponent <;> cases isComponent
    · exact ⟨rfl, by decide, by decide, by decide⟩
    · refine ⟨rfl, ?_, ?_, ?_⟩
      · simpa [Component.text, ← String.toList_inj] using fun empty => notIdle (by simp [empty])
      · simpa [Component.text, ofList_eq_dot] using fun single => notIdle (by simp [single])
      · simpa [Component.text] using noSlash

/-- Where the components of a path lead when they are joined to another path one by one. -/
theorem location_foldl_join (cs : List Component)
    (names : ∀ c ∈ cs, c.segment? = some c.text ∧ c.text ≠ "" ∧ '/' ∉ c.text.toList) (acc : Path) :
    (cs.foldl (fun acc c => acc.join ⟨c.text⟩) acc).location here =
      (cs.filterMap Component.segment?).foldl Location.enter (acc.location here) := by
  induction cs generalizing acc with
  | nil => rfl
  | cons c cs ih =>
    obtain ⟨segment, notEmpty, noSlash⟩ := names c (by simp)
    obtain ⟨name, relative⟩ := names_of_noSlash noSlash notEmpty
    rw [List.foldl_cons, ih fun d member => names d (by simp [member]), location_join relative, name,
      List.filterMap_cons, segment]
    rfl

theorem foldl_enter_names (names : List String) (proper : ∀ name ∈ names, IsName name)
    (dir : Location) : names.foldl Location.enter dir = dir ++ names := by
  induction names generalizing dir with
  | nil => simp
  | cons name names ih =>
    obtain ⟨-, notSingle, notDouble, -⟩ := proper name (by simp)
    have entered : Location.enter dir name = dir ++ [name] := by
      simp [Location.enter, notSingle, notDouble]
    rw [List.foldl_cons, entered, ih fun other member => proper other (by simp [member])]
    simp

/-- The absolute path of a list of segments has these for its names. -/
theorem names_path {l : Location} (segments : ∀ name ∈ l, name ≠ "" ∧ '/' ∉ name.toList) :
    l.path.names = l ∧ l.path.isAbsolute = true := by
  have text : l.path.text.toList = [] ++ '/' :: ['/'].intercalate (l.map String.toList) := by
    simp [Location.path, String.toList_intercalate]
  refine ⟨?_, by simp [isAbsolute, text]⟩
  rw [names_of_slash text]
  cases l with
  | nil => rfl
  | cons name rest =>
    have pieces : ∀ piece ∈ (name :: rest).map String.toList, '/' ∉ piece := by
      intro piece member
      obtain ⟨other, isMember, rfl⟩ := List.mem_map.mp member
      exact (segments other isMember).2
    have kept : ∀ piece ∈ (name :: rest).map String.toList, piece ≠ [] := by
      intro piece member
      obtain ⟨other, isMember, rfl⟩ := List.mem_map.mp member
      simpa using (segments other isMember).1
    rw [names_of_empty (by simp), List.nil_append, Path.names, Path.segments, String.toList_ofList,
      List.splitOn_intercalate '/' pieces (by simp),
      List.filter_eq_self.mpr fun piece member => by simpa using kept piece member]
    simp [Function.comp_def]

/-- The absolute path of a location leads there from everywhere. -/
theorem location_path (proper : ∀ name ∈ here, IsName name) (l : Location) :
    here.path.location l = here := by
  obtain ⟨names, absolute⟩ := names_path fun name member =>
    ⟨(proper name member).1, (proper name member).2.2.2⟩
  simp [location, names, start, absolute, foldl_enter_names here proper]

/-- The components that segments carry. -/
def named (p : Path) : List Component := p.segments.filterMap componentOf

theorem named_spec (p : Path) :
    ∀ c ∈ p.named, c.segment? = some c.text ∧ c.text ≠ "" ∧ '/' ∉ c.text.toList := by
  intro c member
  obtain ⟨segment, isSegment, isComponent⟩ := List.mem_filterMap.mp member
  obtain ⟨segment, notEmpty, -, noSlash⟩ :=
    text_of_component (noSlash_of_segment isSegment) isComponent
  exact ⟨segment, notEmpty, noSlash⟩

theorem steps_eq_named (p : Path) : p.steps = p.named.filterMap Component.segment? := by
  rw [steps_eq_segments, named, List.filterMap_filterMap]
  rfl

theorem components_absolute (absolute : p.isAbsolute = true) : p.components = .root :: p.named := by
  rw [components, named]
  cases segments : p.segments with
  | nil => exact absurd segments (List.splitOn_ne_nil _ _)
  | cons first rest =>
    obtain rfl := first_of_isAbsolute absolute segments
    simp [absolute, componentOf, isIdle]

theorem components_relative (relative : p.isAbsolute = false) :
    p.components = (if p.segments.head? = some ['.'] then [.current] else []) ++ p.named := by
  rw [components, named]
  cases segments : p.segments with
  | nil => exact absurd segments (List.splitOn_ne_nil _ _)
  | cons first rest =>
    by_cases single : first = ['.']
    · simp [relative, single, componentOf, isIdle]
    · cases found : componentOf first <;> simp [relative, single, found]

theorem filterMap_trimmed (segments : List (List Char)) :
    ((segments.dropWhile isIdle).reverse.dropWhile isIdle).reverse.filterMap componentOf =
      segments.filterMap componentOf := by
  have idle : ∀ segments : List (List Char),
      (segments.dropWhile isIdle).filterMap componentOf = segments.filterMap componentOf := by
    intro segments
    induction segments with
    | nil => rfl
    | cons segment rest ih =>
      by_cases isIdle : isIdle segment = true
      · simp [isIdle, componentOf, ih]
      · simp [isIdle]
  rw [List.filterMap_reverse, idle, List.filterMap_reverse, List.reverse_reverse, idle]

/-- What idle segments are dropped from at both ends begins with one that is not idle. -/
theorem head?_trimmed (segments : List (List Char)) (first : List Char)
    (isFirst : ((segments.dropWhile isIdle).reverse.dropWhile isIdle).reverse.head? = some first) :
    isIdle first = false := by
  have front : ((segments.dropWhile isIdle).reverse.dropWhile isIdle).reverse <+:
      segments.dropWhile isIdle := by
    rw [← List.reverse_suffix, List.reverse_reverse]
    exact List.dropWhile_suffix _
  have notIdle := List.head?_dropWhile_not isIdle segments
  obtain ⟨rest, split⟩ := List.head?_eq_some_iff.mp isFirst
  obtain ⟨more, whole⟩ := front
  rw [split] at whole
  rw [← whole] at notIdle
  simpa using notIdle

theorem segments_ofSegments {segments : List (List Char)} (noSlash : ∀ s ∈ segments, '/' ∉ s)
    (notEmpty : segments ≠ []) : (ofSegments segments).segments = segments := by
  rw [ofSegments, Path.segments, String.toList_ofList]
  exact List.splitOn_intercalate '/' noSlash notEmpty

/-- Segments the first of which is not idle make a path with the components that they carry. -/
theorem components_ofSegments {segments : List (List Char)} (noSlash : ∀ s ∈ segments, '/' ∉ s)
    (notIdle : ∀ first, segments.head? = some first → isIdle first = false) :
    (ofSegments segments).components = segments.filterMap componentOf := by
  cases segments with
  | nil => decide +kernel
  | cons first rest =>
    have firstNotIdle := notIdle first rfl
    have back := segments_ofSegments noSlash (List.cons_ne_nil first rest)
    have relative : (ofSegments (first :: rest)).isAbsolute = false := by
      by_contra absolute
      rw [Bool.not_eq_false] at absolute
      obtain rfl := first_of_isAbsolute absolute back
      simp [isIdle] at firstNotIdle
    have notSingle : first ≠ ['.'] := by
      rintro rfl
      simp [isIdle] at firstNotIdle
    rw [components_relative relative, named, back]
    simp [notSingle]

/-- A single dot in front is dropped from a relative path. -/
theorem components_below_dot (relative : p.isAbsolute = false) :
    ((below? ⟨"."⟩ p).getD p).components = p.named := by
  have dot : (Path.mk ".").components = [.current] := by decide +kernel
  have components := components_relative relative
  by_cases single : p.segments.head? = some ['.']
  · obtain ⟨rest, segments⟩ := List.head?_eq_some_iff.mp single
    rw [if_pos single] at components
    have below : below? ⟨"."⟩ p =
        some (ofSegments ((rest.dropWhile isIdle).reverse.dropWhile isIdle).reverse) := by
      simp [below?, dot, components, segments, dropComponents]
    have named : p.named = rest.filterMap componentOf := by
      rw [Path.named, segments]
      rfl
    rw [below, Option.getD_some, components_ofSegments (fun piece member => ?_) (head?_trimmed rest),
      filterMap_trimmed, named]
    refine noSlash_of_segment (p := p) ?_
    rw [List.mem_reverse] at member
    have inner := (List.dropWhile_sublist _).subset member
    rw [List.mem_reverse] at inner
    exact segments ▸ List.mem_cons_of_mem _ ((List.dropWhile_sublist _).subset inner)
  · rw [if_neg single, List.nil_append] at components
    have notBelow : below? ⟨"."⟩ p = none := by
      have absent : Component.current ∉ p.named := fun member => by
        have isSegment := (named_spec p _ member).1
        cases isSegment
      have notFirst : [Component.current].isPrefixOf p.named = false := by
        cases named : p.named with
        | nil => rfl
        | cons c cs =>
          have other : c ≠ .current := by
            rintro rfl
            exact absent (by simp [named])
          simp [List.isPrefixOf, Ne.symm other]
      simp [below?, dot, components, notFirst]
    rw [notBelow, Option.getD_none, components]

/-- Joining the components of a path to where it starts leads where the path leads. -/
theorem location_foldl_named (p acc : Path) (starts : acc.location here = p.start here) :
    (p.named.foldl (fun acc c => acc.join ⟨c.text⟩) acc).location here = p.location here := by
  rw [location_foldl_join p.named (named_spec p), starts, ← steps_eq_named,
    FileTree.location_eq_steps]

theorem location_root {q : Path} (absolute : q.isAbsolute = true) (none : q.names = []) :
    q.location here = [] := by
  simp [location, start, absolute, none]

/-- The absolute path of a relative one joins its components to the current directory, and keeps a
slash at the end. -/
theorem absolute?_relative (relative : p.isAbsolute = false) (notEmpty : p.text.isEmpty = false)
    (current : Path) :
    p.absolute? current =
      let full := p.named.foldl (fun acc c => acc.join ⟨c.text⟩) current
      some (if p.text.toList.getLast? == some '/' then full.join ⟨""⟩ else full) := by
  have notDoubled : ("//".toList.isPrefixOf p.text.toList &&
      !"///".toList.isPrefixOf p.text.toList) = false := by
    unfold Path.isAbsolute at relative
    cases text : p.text.toList with
    | nil => simp
    | cons c cs =>
      have : '/' ≠ c := by
        rintro rfl
        simp [text] at relative
      simp [List.isPrefixOf, this]
  rw [absolute?, if_neg (by simp [notEmpty]), components_below_dot relative, notDoubled]
  simp only [Bool.false_eq_true, if_false, relative]

/-- Whether a path starts with two slashes and no third. -/
def isDoubled (p : Path) : Bool :=
  "//".toList.isPrefixOf p.text.toList && !"///".toList.isPrefixOf p.text.toList

/-- The absolute path of an absolute one joins its components to the root, and keeps two slashes in
front and a slash at the end. -/
theorem absolute?_absolute (absolute : p.isAbsolute = true) (current : Path) :
    p.absolute? current =
      let full := p.named.foldl (fun acc c => acc.join ⟨c.text⟩)
        (if p.isDoubled then ⟨"//"⟩ else ⟨"/"⟩)
      some (if p.text.toList.getLast? == some '/' then full.join ⟨""⟩ else full) := by
  have notEmpty : p.text.isEmpty = false := by
    by_contra empty
    have none : p.text.toList = [] := by simpa using empty
    simp [isAbsolute, none] at absolute
  have dot : (Path.mk ".").components = [.current] := by decide +kernel
  have components := components_absolute absolute
  have notBelow : below? ⟨"."⟩ p = none := by
    simp [below?, dot, components, List.isPrefixOf]
  have root : (Path.mk "").join ⟨Component.root.text⟩ = ⟨"/"⟩ := by decide +kernel
  rw [absolute?, if_neg (by simp [notEmpty]), notBelow, Option.getD_none, components, ← isDoubled]
  cases p.isDoubled <;> simp [absolute, root]

theorem location_absolute {full : Path} (absolute : p.absolute? here.path = some full)
    (proper : ∀ name ∈ here, IsName name) : full.location here = p.location here := by
  have trailing : ∀ q : Path, (if (p.text.toList.getLast? == some '/') = true then q.join ⟨""⟩
      else q).location here = q.location here := by
    intro q
    split
    · rw [location_join (by decide +kernel)]
      rfl
    · rfl
  have notEmpty : p.text.isEmpty = false := by
    by_contra empty
    rw [absolute?, if_pos (by simpa using empty)] at absolute
    cases absolute
  by_cases isAbsolute : p.isAbsolute = true
  · have starts : p.start here = [] := by simp [start, isAbsolute]
    rw [absolute?_absolute isAbsolute, Option.some.injEq] at absolute
    rw [← absolute, trailing, location_foldl_named p _]
    rw [starts]
    split <;> exact location_root (by decide +kernel) (by decide +kernel)
  · have relative : p.isAbsolute = false := by simpa using isAbsolute
    have starts : p.start here = here := by simp [start, relative]
    rw [absolute?_relative relative notEmpty, Option.some.injEq] at absolute
    rw [← absolute, trailing, location_foldl_named p _]
    rw [starts, location_path proper here]

/-- A path seen from the root leads where the path leads. -/
theorem location_normalised (p : Path) (proper : ∀ name ∈ here, IsName name) :
    (p.normalised here.path).location here = p.location here := by
  unfold normalised
  cases absolute : p.absolute? here.path with
  | none => rfl
  | some full => exact location_absolute absolute proper

end Path
end SimWorkbench
