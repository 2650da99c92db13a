import SimWorkbench.Proofs.Path.Spelling

/-!
# Lengths of paths

A path seen from the root is longer than the relative path by the way to the current directory. So a
file can have a relative path that the system accepts and an absolute one that it refuses.
-/
namespace SimWorkbench

/-- A path that is too long names nothing that could be read. -/
theorem FileTree.read_tooLong (t : FileTree) (here : Location) {p : Path}
    (long : 4096 ≤ p.text.utf8ByteSize) : (t.read here p).toOption = none := by
  have refused : ¬ Acceptable p := fun accepted => Nat.not_lt.mpr long accepted.2.2
  obtain ⟨cause, walked⟩ := walk_unacceptable t here refused
  simp [read, locate, walked, bind, Except.bind, Except.toOption]

namespace Path

variable {p q : Path} {here : Location}

/-- The bytes that names and the slashes in front of them take. -/
def span (names : List String) : Nat := (names.map fun name => 1 + name.utf8ByteSize).sum

/-- Whether a slash has to go between a path and what is joined to it. -/
def Open (p : Path) : Prop := p.text.toList ≠ [] ∧ p.text.toList.getLast? ≠ some '/'

theorem text_join (relative : q.isAbsolute = false) (isOpen : p.Open) :
    (p.join q).text = p.text ++ "/" ++ q.text := by
  obtain ⟨notEmpty, noSlash⟩ := isOpen
  have isEmpty : p.text.isEmpty = false := by simpa using notEmpty
  rw [join, if_neg (by simp [relative]), if_neg (by simp [isEmpty, noSlash])]

theorem size_join_le (relative : q.isAbsolute = false) :
    p.text.utf8ByteSize ≤ (p.join q).text.utf8ByteSize := by
  rw [join, if_neg (by simp [relative])]
  split <;> simp only [String.utf8ByteSize_append] <;> omega

/-- Joining names one by one adds their bytes and their slashes. -/
theorem size_foldl_join (cs : List Component)
    (names : ∀ c ∈ cs, c.segment? = some c.text ∧ c.text ≠ "" ∧ '/' ∉ c.text.toList) {acc : Path}
    (isOpen : acc.Open) :
    (cs.foldl (fun acc c => acc.join ⟨c.text⟩) acc).text.utf8ByteSize =
      acc.text.utf8ByteSize + span (cs.map Component.text) := by
  induction cs generalizing acc with
  | nil => simp [span]
  | cons c cs ih =>
    obtain ⟨-, notEmpty, noSlash⟩ := names c (by simp)
    have text := text_join (names_of_noSlash noSlash notEmpty).2 isOpen
    have next : (acc.join ⟨c.text⟩).Open := by
      refine ⟨by simp [text], fun slash => noSlash ?_⟩
      obtain ⟨before, ends⟩ := List.getLast?_eq_some_iff.mp slash
      have notNil : c.text.toList ≠ [] := by simpa using notEmpty
      rw [text, String.toList_append] at slash
      rw [List.getLast?_append_of_ne_nil _ notNil] at slash
      exact List.mem_of_getLast? slash
    rw [List.foldl_cons, ih (fun d member => names d (by simp [member])) next, text]
    simp only [String.utf8ByteSize_append, span, List.map_cons, List.sum_cons]
    have one : "/".utf8ByteSize = 1 := rfl
    omega

theorem text_of_named (p : Path) : p.named.map Component.text = p.steps := by
  have texts : ∀ cs : List Component, (∀ c ∈ cs, c.segment? = some c.text) →
      cs.map Component.text = cs.filterMap Component.segment? := by
    intro cs names
    rw [List.filterMap_congr names, List.filterMap_eq_map']
  rw [steps_eq_named, texts p.named fun c member => (p.named_spec c member).1]

/-- The absolute path of a relative one takes at least the bytes of both and of the slashes. -/
theorem size_normalised_ge (relative : p.isAbsolute = false) (notEmpty : p.text.isEmpty = false)
    (isOpen : here.path.Open) :
    here.path.text.utf8ByteSize + span p.steps ≤ (p.normalised here.path).text.utf8ByteSize := by
  have joined := size_foldl_join p.named p.named_spec isOpen
  rw [text_of_named] at joined
  rw [normalised, absolute?_relative relative notEmpty, Option.getD_some, ← joined]
  split
  · exact size_join_le rfl
  · exact Nat.le_refl _

/-- The file `m` by way of the directory `d`, entered and left again and again. -/
def detour : Nat → Path
  | 0 => ⟨"m"⟩
  | n + 1 => ⟨"d/../" ++ (detour n).text⟩

/-- The way in and out of the directory. -/
def rounds : Nat → List String
  | 0 => []
  | n + 1 => "d" :: ".." :: rounds n

theorem toList_detour (n : Nat) :
    (detour (n + 1)).text.toList = 'd' :: '/' :: '.' :: '.' :: '/' :: (detour n).text.toList := by
  rw [detour, String.toList_append]
  rfl

theorem names_detour (n : Nat) : (detour n).names = rounds n ++ ["m"] := by
  induction n with
  | zero => exact (names_of_noSlash (by decide) (by decide)).1
  | succ n ih =>
    have first : (detour (n + 1)).names =
        (Path.mk (String.ofList ['d'])).names ++
          (Path.mk (String.ofList ('.' :: '.' :: '/' :: (detour n).text.toList))).names :=
      names_of_slash (toList_detour n)
    have upward : (Path.mk (String.ofList ('.' :: '.' :: '/' :: (detour n).text.toList))).text.toList =
        ['.', '.'] ++ '/' :: (detour n).text.toList := by
      simp
    have second : (Path.mk (String.ofList ('.' :: '.' :: '/' :: (detour n).text.toList))).names =
        (Path.mk (String.ofList ['.', '.'])).names ++
          (Path.mk (String.ofList (detour n).text.toList)).names :=
      names_of_slash upward
    have d : (Path.mk (String.ofList ['d'])).names = ["d"] :=
      (names_of_noSlash (by decide) (by decide)).1
    have up : (Path.mk (String.ofList ['.', '.'])).names = [".."] :=
      (names_of_noSlash (by decide) (by decide)).1
    rw [first, second, String.ofList_toList, ih, d, up]
    rfl

theorem relative_detour (n : Nat) : (detour n).isAbsolute = false := by
  cases n with
  | zero => rfl
  | succ n => rw [isAbsolute, toList_detour]; rfl

theorem size_detour (n : Nat) : (detour n).text.utf8ByteSize = 5 * n + 1 := by
  induction n with
  | zero => rfl
  | succ n ih =>
    rw [detour, String.utf8ByteSize_append, ih]
    have round : "d/../".utf8ByteSize = 5 := rfl
    omega

theorem span_detour (n : Nat) : span (detour n).steps = 5 * n + 2 := by
  rw [steps, names_detour]
  induction n with
  | zero => rfl
  | succ n ih =>
    have rest : (rounds (n + 1) ++ ["m"]).filter (· ≠ ".") =
        "d" :: ".." :: (rounds n ++ ["m"]).filter (· ≠ ".") := rfl
    rw [rest, span, List.map_cons, List.map_cons, List.sum_cons, List.sum_cons]
    rw [span] at ih
    have d : "d".utf8ByteSize = 1 := rfl
    have up : "..".utf8ByteSize = 2 := rfl
    omega

theorem acceptable_detour {n : Nat} (short : 5 * n + 1 < 4096) :
    FileTree.Acceptable (detour n) := by
  refine ⟨?_, ?_, by rw [size_detour]; exact short⟩
  · cases n with
    | zero => rfl
    | succ n => simp [← String.toList_eq_nil_iff, toList_detour]
  · clear short
    induction n with
    | zero => decide
    | succ n ih => simpa [toList_detour] using ih

/-- Seen from the root the way around the directory is longer. -/
theorem size_normalised_detour {n : Nat} (short : 5 * n + 1 < 4096) (isOpen : here.path.Open) :
    here.path.text.utf8ByteSize + (5 * n + 2) ≤
      ((detour n).normalised here.path).text.utf8ByteSize := by
  rw [← span_detour]
  exact size_normalised_ge (relative_detour n) (acceptable_detour short).1 isOpen

theorem last_detour (n : Nat) : (detour n).text.toList.getLast? = some 'm' := by
  induction n with
  | zero => rfl
  | succ n ih => simp [toList_detour, List.getLast?_cons, ih]

theorem location_detour (n : Nat) (here : Location) :
    (detour n).location here = here ++ ["m"] := by
  have around : (rounds n).foldl Location.enter here = here := by
    induction n with
    | zero => rfl
    | succ n ih =>
      have round : Location.enter (Location.enter here "d") ".." = here := by
        simp [Location.enter]
      simpa only [rounds, List.foldl_cons, round] using ih
  have last : Location.enter here "m" = here ++ ["m"] := by simp [Location.enter]
  rw [location, names_detour, start, relative_detour, List.foldl_append]
  simp only [Bool.false_eq_true, if_false, around, List.foldl_cons, List.foldl_nil, last]

/-- The file is read by the way around the directory as it is there. -/
theorem read_detour {t : FileTree} {n : Nat} {e : Entry} {content : Bytes}
    (short : 5 * n + 1 < 4096) (directory : t.get? here = some .directory)
    (inner : t.get? (here ++ ["d"]) = some .directory) (found : t.get? (here ++ ["m"]) = some e)
    (readable : e.content? = some content) : t.read here (detour n) = .ok content := by
  have around : (rounds n).foldlM t.enter here = .ok here := by
    clear short
    induction n with
    | zero => rfl
    | succ n ih =>
      have into : t.enter here "d" = .ok (here ++ ["d"]) := by
        rw [FileTree.enter, if_neg (by decide), if_neg (by decide), if_neg (by decide), inner]
      have out : t.enter (here ++ ["d"]) ".." = .ok here := by
        rw [FileTree.enter, if_neg (by decide), if_pos rfl, List.dropLast_concat]
      simpa only [rounds, List.foldlM_cons, into, out, bind, Except.bind] using ih
  have start : (detour n).start here = here := by rw [Path.start, relative_detour]; rfl
  have walked : t.walk here (detour n) = .ok (here, .name "m" false) := by
    refine FileTree.walk_ok_iff.mpr ⟨acceptable_detour short, by rwa [start],
      .inr ⟨rounds n, "m", names_detour n, by rwa [start], by decide, ?_⟩⟩
    rw [last_detour]
    rfl
  exact FileTree.read_ok_iff.mpr ⟨_, e,
    FileTree.locate_ok_iff.mpr ⟨_, _, walked, rfl, found, by simp⟩, readable⟩

end Path
end SimWorkbench
