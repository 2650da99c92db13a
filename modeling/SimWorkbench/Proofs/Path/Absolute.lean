import SimWorkbench.Proofs.Path.Length

/-!
# Files under their absolute paths

Whether a file is read is told by three things: whether its path is spelled as that of a file,
whether the directories on the way are there, and what stands at the end. A path that leads to a
file leads there under its absolute path as well, if the current directory can be reached from the
root. All absolute paths that the cache takes for one are then read alike.
-/
namespace SimWorkbench

namespace FileTree

variable {t t' : FileTree} {here l : Location} {p q : Path} {content : Bytes}

/-- The bytes of what stands at a location. -/
def bytesAt? (t : FileTree) (l : Location) : Option Bytes := (t.get? l).bind Entry.content?

/-- Whether the directories on the way to what a path names are there. -/
def Reached (t : FileTree) (here : Location) (p : Path) : Prop :=
  t.get? (p.start here) = some .directory ∧
    ∃ before final dir, p.steps = before ++ [final] ∧ before.foldlM t.enter (p.start here) = .ok dir

theorem read_iff : t.read here p = .ok content ↔
    CanNameFile p ∧ t.Reached here p ∧ t.bytesAt? (p.location here) = some content := by
  rw [read_ok_iff]
  constructor
  · rintro ⟨l, e, located, isContent⟩
    have file : e ≠ .directory := by
      rintro rfl
      cases isContent
    obtain ⟨spelled, start, walked, rfl, found⟩ := (locate_file_iff file).mp located
    exact ⟨spelled, ⟨start, walked⟩, by rw [bytesAt?, found]; exact isContent⟩
  · rintro ⟨spelled, ⟨start, walked⟩, bytes⟩
    obtain ⟨e, found, isContent⟩ := Option.bind_eq_some_iff.mp bytes
    have file : e ≠ .directory := by
      rintro rfl
      cases isContent
    exact ⟨_, e, (locate_file_iff file).mpr ⟨spelled, start, walked, rfl, found⟩, isContent⟩

theorem Reached.mono (reached : t.Reached here p) (kept : KeepsDirectories t t') :
    t'.Reached here p := by
  obtain ⟨start, before, final, dir, steps, entered⟩ := reached
  exact ⟨kept _ start, before, final, dir, steps, foldlM_enter_mono kept entered⟩

theorem GrowsAt.bytesAt? (grows : GrowsAt t t' l) : t'.bytesAt? l = t.bytesAt? l := by
  rcases grows with same | ⟨free, made⟩
  · rw [FileTree.bytesAt?, FileTree.bytesAt?, same]
  · rw [FileTree.bytesAt?, FileTree.bytesAt?, free, made]
    rfl

/-- Two paths that both lead to what holds the same bytes are read alike. -/
theorem toOption_read_congr (spelled : CanNameFile p ↔ CanNameFile q) (reachedP : t.Reached here p)
    (reachedQ : t'.Reached here q)
    (same : t.bytesAt? (p.location here) = t'.bytesAt? (q.location here)) :
    (t.read here p).toOption = (t'.read here q).toOption := by
  have ok : ∀ (r : Except OsError Bytes) (c : Bytes), r.toOption = some c ↔ r = .ok c := by
    rintro (cause | c') c <;> simp [Except.toOption]
  refine Option.ext fun c => ?_
  rw [ok, ok, read_iff, read_iff, same]
  simp only [spelled, reachedP, reachedQ]

/-- Whether the current directory can be reached from the root. -/
def Reachable (t : FileTree) (here : Location) : Prop := here.foldlM t.enter [] = .ok here

theorem Reachable.mono (reachable : t.Reachable here) (kept : KeepsDirectories t t') :
    t'.Reachable here := foldlM_enter_mono kept reachable

/-- A walk from a place below directories ends below directories. -/
theorem directories_of_walk {names : List String} {first last : Location}
    (above : ∀ m, m <+: first → t.get? m = some .directory)
    (walked : names.foldlM t.enter first = .ok last) :
    ∀ m, m <+: last → t.get? m = some .directory := by
  induction names generalizing first with
  | nil =>
    cases walked
    exact above
  | cons name names ih =>
    rw [List.foldlM_cons] at walked
    cases entered : t.enter first name with
    | error cause =>
      rw [entered] at walked
      cases walked
    | ok next =>
      rw [entered] at walked
      refine ih (fun m isAbove => ?_) walked
      by_cases single : name = "."
      · rw [single, enter, if_pos rfl] at entered
        cases entered
        exact above m isAbove
      by_cases double : name = ".."
      · rw [double, enter, if_neg (by decide), if_pos rfl] at entered
        cases entered
        exact above m (isAbove.trans (List.dropLast_prefix first))
      have directory := enter_directory entered ⟨single, double⟩
      rw [enter_ok entered, Location.enter, if_neg single, if_neg double] at isAbove directory
      rcases List.prefix_concat_iff.mp isAbove with rfl | isAbove
      · exact directory
      · exact above m isAbove

/-- What a path names that ends with double dots is a directory. -/
theorem final_ne_parent (reachable : t.Reachable here) (readable : t.read here p = .ok content)
    {before : List String} {final : String} (steps : p.steps = before ++ [final]) : final ≠ ".." := by
  rintro rfl
  obtain ⟨-, ⟨-, before', final', dir, steps', entered⟩, bytes⟩ := read_iff.mp readable
  obtain ⟨rfl, equal⟩ := List.append_inj' (steps.symm.trans steps') rfl
  have root : ∀ m : Location, m <+: [] → t.get? m = some .directory := by
    intro m isAbove
    rw [List.prefix_nil.mp isAbove]
    rfl
  have above : ∀ m, m <+: p.start here → t.get? m = some .directory := by
    unfold Path.start
    split
    · exact root
    · exact directories_of_walk root reachable
  have directory := directories_of_walk above entered dir.dropLast (List.dropLast_prefix dir)
  have location : p.location here = dir.dropLast := by
    rw [location_eq_steps, steps, List.foldl_append, ← foldlM_enter_ok entered]
    rfl
  rw [location, bytesAt?, directory] at bytes
  cases bytes

end FileTree

namespace Path

variable {p q : Path} {here l : Location}

/-- Whether names are segments, though they may be dots. -/
def Segments (l : Location) : Prop := ∀ name ∈ l, name ≠ "" ∧ '/' ∉ name.toList

theorem segments_steps (p : Path) : Segments p.steps := by
  intro name member
  rw [← text_of_named] at member
  obtain ⟨c, isNamed, rfl⟩ := List.mem_map.mp member
  exact (p.named_spec c isNamed).2

theorem segments_proper (proper : ∀ name ∈ here, IsName name) : Segments here :=
  fun name member => ⟨(proper name member).1, (proper name member).2.2.2⟩

theorem Segments.append {l m : Location} (first : Segments l) (rest : Segments m) :
    Segments (l ++ m) :=
  fun name member => (List.mem_append.mp member).elim (first name) (rest name)

/-- The text of a path of segments: a slash in front of each. -/
theorem text_path_concat (l : Location) (name : String) :
    (l ++ [name]).path.text = (if l = [] then "" else l.path.text) ++ "/" ++ name := by
  by_cases empty : l = []
  · simp [empty, Location.path]
  · simp only [Location.path, if_neg empty]
    rw [String.intercalate_append_of_ne_nil empty (by simp), String.intercalate_singleton]
    simp only [String.append_assoc]

theorem getLast?_text_path_concat {name : String} (l : Location) (notEmpty : name ≠ "") :
    (l ++ [name]).path.text.toList.getLast? = name.toList.getLast? := by
  have text : name.toList ≠ [] := by simpa using notEmpty
  rw [text_path_concat, String.toList_append, List.getLast?_append_of_ne_nil _ text]

theorem path_join {name : String} (segments : Segments (l ++ [name])) :
    l.path.join ⟨name⟩ = (l ++ [name]).path := by
  obtain ⟨notEmpty, noSlash⟩ := segments name (by simp)
  have relative := (names_of_noSlash noSlash notEmpty).2
  have text := text_path_concat l name
  rcases List.eq_nil_or_concat l with rfl | ⟨before, last, rfl⟩
  · rw [join, if_neg (by simp [relative])]
    rfl
  · rw [List.concat_eq_append] at segments text ⊢
    obtain ⟨lastNotEmpty, lastNoSlash⟩ := segments last (by simp)
    have notNil : last.toList ≠ [] := by simpa using lastNotEmpty
    have isOpen : (Location.path (before ++ [last])).Open := by
      refine ⟨?_, fun slash => lastNoSlash ?_⟩
      · simp [Location.path]
      · rw [getLast?_text_path_concat before lastNotEmpty] at slash
        exact List.mem_of_getLast? slash
    rw [if_neg (by simp)] at text
    exact congrArg Path.mk ((text_join relative isOpen).trans text.symm)

/-- Joining the components of a path to a path of segments gives one of all the segments. -/
theorem foldl_join_path (p : Path) {l : Location} (segments : Segments l) :
    p.named.foldl (fun acc c => acc.join ⟨c.text⟩) l.path = (l ++ p.steps).path := by
  have joined : ∀ (cs : List Component) (l : Location), Segments (l ++ cs.map Component.text) →
      cs.foldl (fun acc c => acc.join ⟨c.text⟩) l.path = (l ++ cs.map Component.text).path := by
    intro cs
    induction cs with
    | nil => simp
    | cons c cs ih =>
      intro l segments
      have split : l ++ (c :: cs).map Component.text = l ++ [c.text] ++ cs.map Component.text := by
        simp
      rw [split] at segments ⊢
      have first : Segments (l ++ [c.text]) :=
        fun name member => segments name (List.mem_append_left _ member)
      rw [List.foldl_cons, path_join first, ih _ segments]
  rw [← text_of_named] at *
  exact joined p.named l (segments.append (text_of_named p ▸ segments_steps p))

/-- A slash more in front of a path stays there when something is joined to it. -/
theorem join_slashed (relative : q.isAbsolute = false) (notEmpty : p.text.toList ≠ []) :
    (Path.mk ("/" ++ p.text)).join q = ⟨"/" ++ (p.join q).text⟩ := by
  have isEmpty : p.text.isEmpty = false := by simpa using notEmpty
  have last : ("/" ++ p.text).toList.getLast? = p.text.toList.getLast? := by
    rw [String.toList_append, List.getLast?_append_of_ne_nil _ notEmpty]
  have isEmpty' : ("/" ++ p.text).isEmpty = false := by simp
  simp only [join, relative, isEmpty, isEmpty', last, Bool.false_eq_true, if_false, Bool.false_or]
  split <;> simp only [String.append_assoc]

theorem foldl_join_slashed (p : Path) :
    p.named.foldl (fun acc c => acc.join ⟨c.text⟩) (Path.mk "//") =
      Path.mk ("/" ++ (Location.path p.steps).text) := by
  have slashed : ∀ (cs : List Component),
      (∀ c ∈ cs, c.segment? = some c.text ∧ c.text ≠ "" ∧ '/' ∉ c.text.toList) →
      ∀ q : Path, q.text.toList ≠ [] →
        cs.foldl (fun acc c => acc.join ⟨c.text⟩) (Path.mk ("/" ++ q.text)) =
          Path.mk ("/" ++ (cs.foldl (fun acc c => acc.join ⟨c.text⟩) q).text) := by
    intro cs
    induction cs with
    | nil => exact fun _ _ _ => rfl
    | cons c cs ih =>
      intro names q notEmpty
      obtain ⟨-, notEmpty', noSlash⟩ := names c (by simp)
      have relative := (names_of_noSlash noSlash notEmpty').2
      have next : (q.join ⟨c.text⟩).text.toList ≠ [] := by
        have size := size_join_le (p := q) relative
        intro empty
        rw [String.toList_eq_nil_iff] at empty
        rw [empty] at size
        exact notEmpty (by simpa using size)
      rw [List.foldl_cons, List.foldl_cons, join_slashed relative notEmpty,
        ih (fun d member => names d (by simp [member])) _ next]
  have joined := foldl_join_path p (l := []) (by simp [Segments])
  rw [List.nil_append] at joined
  rw [← joined]
  exact slashed p.named p.named_spec (Location.path []) (by decide +kernel)

/-- The segments of a path, seen from the root. -/
def fromRoot (here : Location) (p : Path) : Location :=
  if p.isAbsolute then p.steps else here ++ p.steps

/-- The path seen from the root, if no slash is at its end. -/
theorem normalised_eq (proper : ∀ name ∈ here, IsName name) (notEmpty : p.text.isEmpty = false)
    (noSlash : (p.text.toList.getLast? == some '/') = false) :
    p.normalised here.path =
      if p.isDoubled then ⟨"/" ++ (p.fromRoot here).path.text⟩ else (p.fromRoot here).path := by
  unfold normalised fromRoot
  cases absolute : p.isAbsolute with
  | true =>
    rw [absolute?_absolute absolute, Option.getD_some]
    simp only [noSlash, Bool.false_eq_true, if_false, if_true]
    split
    · exact foldl_join_slashed p
    · exact foldl_join_path p (l := []) (by simp [Segments])
  | false =>
    have single : p.isDoubled = false := by
      rw [isAbsolute] at absolute
      unfold isDoubled
      cases text : p.text.toList with
      | nil => rfl
      | cons c cs =>
        have : c ≠ '/' := by
          rintro rfl
          simp [text] at absolute
        simp [List.isPrefixOf, Ne.symm this]
    rw [absolute?_relative absolute notEmpty, Option.getD_some]
    simp only [noSlash, single, Bool.false_eq_true, if_false]
    exact foldl_join_path p (segments_proper proper)

/-- A path of segments is as long as the slashes and the segments together. -/
theorem size_intercalate {names : List String} (notEmpty : names ≠ []) :
    1 + ("/".intercalate names).utf8ByteSize = span names := by
  have one : "/".utf8ByteSize = 1 := rfl
  induction names with
  | nil => exact absurd rfl notEmpty
  | cons name rest ih =>
    cases rest with
    | nil => simp [span]
    | cons next rest =>
      have later := ih (by simp)
      rw [String.intercalate_cons_cons]
      simp only [String.utf8ByteSize_append, span, List.map_cons, List.sum_cons, one] at later ⊢
      omega

theorem mem_intercalate {c : Char} {names : List String} :
    c ∈ ("/".intercalate names).toList → c = '/' ∨ ∃ name ∈ names, c ∈ name.toList := by
  induction names with
  | nil => simp
  | cons name rest ih =>
    cases rest with
    | nil => exact fun member => .inr ⟨name, by simp, by simpa using member⟩
    | cons next rest =>
      rw [String.intercalate_cons_cons]
      intro member
      rw [String.toList_append, String.toList_append, List.mem_append, List.mem_append] at member
      rcases member with (inName | slash) | later
      · exact .inr ⟨name, by simp, inName⟩
      · exact .inl (by simpa using slash)
      · exact (ih later).imp_right fun ⟨other, isOther, inOther⟩ =>
          ⟨other, List.mem_cons_of_mem _ isOther, inOther⟩

theorem mem_intercalate_of_mem {c : Char} {name : String} {names : List String}
    (member : name ∈ names) (inName : c ∈ name.toList) : c ∈ ("/".intercalate names).toList := by
  induction names with
  | nil => cases member
  | cons first rest ih =>
    cases rest with
    | nil => simp_all
    | cons next rest =>
      rw [String.intercalate_cons_cons, String.toList_append, String.toList_append]
      rcases List.mem_cons.mp member with rfl | later
      · simp [inName]
      · exact List.mem_append_right _ (ih later)

/-- The text of a path is put together from its pieces. -/
theorem text_eq_intercalate (p : Path) : p.text = "/".intercalate (p.segments.map String.ofList) := by
  rw [← String.toList_inj, String.toList_intercalate, List.map_map]
  have same : String.toList ∘ String.ofList = id := funext fun l => String.toList_ofList
  rw [same, List.map_id]
  exact (List.intercalate_splitOn '/').symm

theorem steps_sublist (p : Path) : p.steps.Sublist (p.segments.map String.ofList) :=
  List.filter_sublist.trans (List.filter_sublist.map _)

theorem span_le_of_sublist {few many : List String} (sublist : few.Sublist many) :
    span few ≤ span many := by
  induction sublist with
  | slnil => exact Nat.le_refl _
  | cons name _ ih =>
    simp only [span, List.map_cons, List.sum_cons] at ih ⊢
    omega
  | cons_cons name _ ih =>
    simp only [span, List.map_cons, List.sum_cons] at ih ⊢
    omega

/-- A path with two slashes in front is at least as long as both and its steps. -/
theorem size_of_doubled (doubled : p.isDoubled = true) : 1 + span p.steps ≤ p.text.utf8ByteSize := by
  obtain ⟨rest, text⟩ : ∃ rest, p.text.toList = '/' :: '/' :: rest := by
    simp only [isDoubled, Bool.and_eq_true, List.isPrefixOf_iff_prefix] at doubled
    obtain ⟨rest, text⟩ := doubled.1
    exact ⟨rest, text.symm⟩
  have segments : p.segments = [] :: [] :: rest.splitOn '/' := by
    rw [Path.segments, text]
    exact (List.splitOn_append_cons_self [] _).trans (by
      rw [List.splitOn_nil]
      exact congrArg _ (List.splitOn_append_cons_self [] _))
  have steps : p.steps.Sublist ((rest.splitOn '/').map String.ofList) := by
    have kept : ∀ tail : List (List Char), (([] :: tail).filter (· ≠ [])) = tail.filter (· ≠ []) := by
      simp
    rw [Path.steps, names, segments, kept, kept]
    exact List.filter_sublist.trans (List.filter_sublist.map _)
  have size := @size_intercalate (p.segments.map String.ofList) (by simp [segments])
  rw [← text_eq_intercalate, segments] at size
  have shorter := span_le_of_sublist steps
  simp only [span, List.map_cons, List.sum_cons] at size shorter ⊢
  have none : (String.ofList []).utf8ByteSize = 0 := by decide +kernel
  omega

theorem names_slashed (p : Path) :
    (Path.mk ("/" ++ p.text)).names = p.names ∧ (Path.mk ("/" ++ p.text)).isAbsolute = true := by
  have text : ("/" ++ p.text).toList = [] ++ '/' :: p.text.toList := by simp
  have same : Path.mk (String.ofList p.text.toList) = p := by simp
  refine ⟨?_, by simp [isAbsolute]⟩
  rw [names_of_slash text, names_of_empty (by simp), List.nil_append, same]

/-- The steps of the path seen from the root. -/
theorem steps_normalised (proper : ∀ name ∈ here, IsName name) (notEmpty : p.text.isEmpty = false)
    (noSlash : (p.text.toList.getLast? == some '/') = false) :
    (p.normalised here.path).steps = p.fromRoot here ∧
      (p.normalised here.path).names = p.fromRoot here ∧
      (p.normalised here.path).isAbsolute = true := by
  have segments : Segments (p.fromRoot here) := by
    unfold fromRoot
    split
    · exact segments_steps p
    · exact (segments_proper proper).append (segments_steps p)
  have noDots : ∀ name ∈ p.fromRoot here, name ≠ "." := by
    have steps : ∀ name ∈ p.steps, name ≠ "." := fun _ => ne_dot_of_mem_steps
    unfold fromRoot
    split
    · exact steps
    · exact fun name member => (List.mem_append.mp member).elim
        (fun isHere => (proper name isHere).2.1) (steps name)
  have names : (p.normalised here.path).names = p.fromRoot here ∧
      (p.normalised here.path).isAbsolute = true := by
    rw [normalised_eq proper notEmpty noSlash]
    split
    · rw [(names_slashed _).1, (names_path segments).1]
      exact ⟨rfl, (names_slashed _).2⟩
    · exact names_path segments
  refine ⟨?_, names⟩
  rw [steps, names.1, List.filter_eq_self.mpr fun name member => by simpa using noDots name member]

end Path

namespace FileTree

variable {t t' : FileTree} {here : Location} {p q : Path} {content content' : Bytes}

/-- What is known of the spelling of a path under which a file is read. -/
structure SpelledAsFile (p : Path) (before : List String) (final : String) : Prop where
  acceptable : Acceptable p
  steps : p.steps = before ++ [final]
  noSlash : (p.text.toList.getLast? == some '/') = false
  fits : final.utf8ByteSize ≤ 255
  notParent : final ≠ ".."

theorem spelledAsFile (reachable : t.Reachable here) (readable : t.read here p = .ok content) :
    ∃ before final, SpelledAsFile p before final := by
  obtain ⟨⟨acceptable, spelled⟩, ⟨-, before, final, -, steps, -⟩, -⟩ := read_iff.mp readable
  have notParent := final_ne_parent reachable readable steps
  obtain ⟨-, noSlash, fits⟩ := spelled final (by rw [steps, List.getLast?_concat]) notParent
  exact ⟨before, final, acceptable, steps, noSlash, fits, notParent⟩

/-- A file that is read by some path is reached by its absolute path. -/
theorem reached_normalised (proper : ∀ name ∈ here, Path.IsName name)
    (reachable : t.Reachable here) (readable : t.read here p = .ok content) :
    t.Reached here (p.normalised here.path) := by
  obtain ⟨before, final, spelled⟩ := spelledAsFile reachable readable
  obtain ⟨-, ⟨-, before', final', dir, steps', entered⟩, -⟩ := read_iff.mp readable
  obtain ⟨rfl, equal⟩ := List.append_inj' (spelled.steps.symm.trans steps') rfl
  cases equal
  obtain ⟨steps, -, absolute⟩ :=
    Path.steps_normalised proper spelled.acceptable.1 spelled.noSlash
  have start : ∀ l, (p.normalised here.path).start l = [] := fun l => by
    rw [Path.start, if_pos absolute]
  rw [Reached, start, steps, Path.fromRoot]
  refine ⟨rfl, ?_⟩
  cases isAbsolute : p.isAbsolute with
  | true =>
    rw [Path.start, if_pos isAbsolute] at entered
    exact ⟨before, final, dir, steps', entered⟩
  | false =>
    rw [Path.start, isAbsolute, if_neg (by simp)] at entered
    refine ⟨here ++ before, final, dir, by simp [steps'], ?_⟩
    have first : here.foldlM t.enter [] = .ok here := reachable
    rw [List.foldlM_append, first]
    exact entered

theorem canNameFile_of_names {before : List String} {final : String}
    (acceptable : Acceptable p) (steps : p.steps = before ++ [final])
    (names : p.names = before ++ [final]) (noSlash : (p.text.toList.getLast? == some '/') = false)
    (fits : final.utf8ByteSize ≤ 255) : CanNameFile p := by
  refine ⟨acceptable, fun last isLast _ => ?_⟩
  rw [steps, List.getLast?_concat, Option.some.injEq] at isLast
  subst isLast
  exact ⟨by rw [names, List.getLast?_concat], noSlash, fits⟩

/-- If the system accepts a path, it accepts the path of its steps, with one slash or with two in
front, unless that is too long. -/
theorem SpelledAsFile.canNameFile {before : List String} {final : String}
    (spelled : SpelledAsFile p before final) :
    ((Location.path p.steps).text.utf8ByteSize < 4096 → CanNameFile (Location.path p.steps)) ∧
      (1 + (Location.path p.steps).text.utf8ByteSize < 4096 →
        CanNameFile ⟨"/" ++ (Location.path p.steps).text⟩) := by
  have segments := Path.segments_steps p
  obtain ⟨notEmpty, noSlash⟩ := segments final (by simp [spelled.steps])
  have noZero : '\x00' ∉ (Location.path p.steps).text.toList := by
    intro zero
    rw [Location.path, String.toList_append, List.mem_append] at zero
    rcases zero with slash | later
    · exact absurd slash (by decide)
    rcases Path.mem_intercalate later with slash | ⟨name, isStep, inName⟩
    · exact absurd slash (by decide)
    · have inText := Path.mem_intercalate_of_mem ((Path.steps_sublist p).mem isStep) inName
      rw [← Path.text_eq_intercalate] at inText
      simpa [inText] using spelled.acceptable.2.1
  have last : (Location.path p.steps).text.toList.getLast? ≠ some '/' := by
    rw [spelled.steps, Path.getLast?_text_path_concat before notEmpty]
    exact fun slash => noSlash (List.mem_of_getLast? slash)
  have isText : (Location.path p.steps).text.toList ≠ [] := by simp [Location.path]
  obtain ⟨names, -⟩ := Path.names_path segments
  have noDots : ∀ name ∈ p.steps, decide (name ≠ ".") = true :=
    fun name member => decide_eq_true (Path.ne_dot_of_mem_steps member)
  constructor
  · intro short
    refine canNameFile_of_names ⟨by simpa using isText, by simpa using noZero, short⟩ ?_
      (names.trans spelled.steps) (by simpa using last) spelled.fits
    rw [Path.steps, names, List.filter_eq_self.mpr noDots, spelled.steps]
  · intro short
    have names' := (Path.names_slashed (Location.path p.steps)).1.trans names
    refine canNameFile_of_names ⟨by simp, by simpa using noZero, ?_⟩ ?_
      (names'.trans spelled.steps) ?_ spelled.fits
    · have one : "/".utf8ByteSize = 1 := rfl
      rw [String.utf8ByteSize_append, one]
      exact short
    · rw [Path.steps, names', List.filter_eq_self.mpr noDots, spelled.steps]
    · rw [String.toList_append, List.getLast?_append_of_ne_nil _ isText]
      simpa using last

/-- If the system accepts a path with two slashes in front, it accepts the path of its steps, with
two slashes or with one. -/
theorem canNameFile_of_doubled {before : List String} {final : String}
    (spelled : SpelledAsFile p before final) (doubled : p.isDoubled = true) :
    CanNameFile (Location.path p.steps) ∧
      CanNameFile ⟨"/" ++ (Location.path p.steps).text⟩ := by
  have size : 1 + (Location.path p.steps).text.utf8ByteSize < 4096 := by
    have stepsSize := @Path.size_intercalate p.steps (by simp [spelled.steps])
    have shorter := Path.size_of_doubled doubled
    have short := spelled.acceptable.2.2
    have one : "/".utf8ByteSize = 1 := rfl
    simp only [Location.path, String.utf8ByteSize_append, one]
    omega
  exact ⟨spelled.canNameFile.1 (by omega), spelled.canNameFile.2 size⟩

/-- Of two paths for one file that is read by both, the system accepts the absolute paths of both or
of none. -/
theorem canNameFile_normalised_iff (proper : ∀ name ∈ here, Path.IsName name)
    (reachable : t.Reachable here) (readable : t.read here p = .ok content)
    (reachable' : t'.Reachable here) (readable' : t'.read here q = .ok content')
    (same : (p.normalised here.path).sortKey = (q.normalised here.path).sortKey) :
    CanNameFile (p.normalised here.path) ↔ CanNameFile (q.normalised here.path) := by
  obtain ⟨_, _, spelledP⟩ := spelledAsFile reachable readable
  obtain ⟨_, _, spelledQ⟩ := spelledAsFile reachable' readable'
  have fromRoot : p.fromRoot here = q.fromRoot here := by
    obtain ⟨-, steps⟩ := Path.walk_of_same same here
    rwa [(Path.steps_normalised proper spelledP.acceptable.1 spelledP.noSlash).1,
      (Path.steps_normalised proper spelledQ.acceptable.1 spelledQ.noSlash).1] at steps
  have absolute : ∀ r : Path, r.isDoubled = true → r.fromRoot here = r.steps := by
    intro r doubled
    simp only [Path.isDoubled, Bool.and_eq_true, List.isPrefixOf_iff_prefix] at doubled
    obtain ⟨rest, text⟩ := doubled.1
    rw [Path.fromRoot, if_pos (by simp [Path.isAbsolute, ← text])]
  rw [Path.normalised_eq proper spelledP.acceptable.1 spelledP.noSlash,
    Path.normalised_eq proper spelledQ.acceptable.1 spelledQ.noSlash, ← fromRoot]
  cases doubledP : p.isDoubled <;> cases doubledQ : q.isDoubled
  · rfl
  · obtain ⟨single, double⟩ := canNameFile_of_doubled spelledQ doubledQ
    rw [fromRoot, absolute q doubledQ]
    exact iff_of_true single double
  · obtain ⟨single, double⟩ := canNameFile_of_doubled spelledP doubledP
    rw [absolute p doubledP]
    exact iff_of_true double single
  · rfl

end FileTree
end SimWorkbench
