import SimWorkbench.Proofs.Text.Lines
import SimWorkbench.Text.Blank
import Mathlib.Data.List.Infix

/-!
# Prefixes, marks, blanks and runs

What the cutting functions find, told by how the text is put together: a prefix and what follows it,
the part before the first occurrence of a mark, a core between blanks, the longest run of characters
of a kind. Each of these parts is unique, so a text that is put together so is cut so.
-/
namespace SimWorkbench.Text

section Cuts

variable {α : Type} {mark text part part' : List α}

/-- Whether a part of a text is what stands before the first occurrence of a mark: the mark does not
occur in the text, or it follows the part and begins nowhere earlier. -/
def CutBy (mark text part : List α) : Prop :=
  (¬ mark <:+: text ∧ part = text) ∨
    ∃ behind, text = part ++ (mark ++ behind) ∧ ¬ mark <:+: part ++ mark.dropLast

theorem CutBy.not_shorter (cut : CutBy mark text part) (cut' : CutBy mark text part') :
    ¬ part.length < part'.length := by
  intro shorter
  have whole : part ++ mark <+: text := by
    rcases cut with ⟨-, rfl⟩ | ⟨behind, rfl, -⟩
    · have longer : part' <+: part := by
        rcases cut' with ⟨-, rfl⟩ | ⟨behind, rfl, -⟩
        · exact List.prefix_refl _
        · exact List.prefix_append _ _
      exact absurd longer.length_le (by omega)
    · exact ⟨behind, by simp⟩
  rcases cut' with ⟨nowhere, rfl⟩ | ⟨behind, text, nowhere⟩
  · exact nowhere (List.IsInfix.trans ⟨part, [], by simp⟩ whole.isInfix)
  · have early : part ++ mark <+: part' ++ mark.dropLast := by
      refine List.prefix_of_prefix_length_le whole ⟨mark.drop (mark.length - 1) ++ behind, ?_⟩ ?_
      · rw [text, List.append_assoc, ← List.append_assoc mark.dropLast, List.dropLast_eq_take,
          List.take_append_drop]
      · simp
        omega
    exact nowhere (List.IsInfix.trans ⟨part, [], by simp⟩ early.isInfix)

/-- A text is cut at one place. -/
theorem CutBy.unique (cut : CutBy mark text part) (cut' : CutBy mark text part') : part = part' := by
  have same : part.length = part'.length := by
    have := cut.not_shorter cut'
    have := cut'.not_shorter cut
    omega
  have prefixOf : ∀ {p : List α}, CutBy mark text p → p <+: text := by
    rintro p (⟨-, rfl⟩ | ⟨behind, rfl, -⟩)
    · exact List.prefix_refl _
    · exact List.prefix_append _ _
  exact (List.prefix_of_prefix_length_le (prefixOf cut) (prefixOf cut') same.le).eq_of_length same

end Cuts

section Marks

variable {α : Type} [BEq α]

/-- The part of a text before the first occurrence of a mark, or all of it. -/
def before (mark text : List α) : List α := ((splitAt? mark text).map Prod.fst).getD text

/-- What the search passed by stands in front of what it finds. -/
theorem search_eq (mark passed text : List α) :
    splitAt?.search mark passed text =
      (splitAt?.search mark [] text).map fun found => (passed.reverse ++ found.1, found.2) := by
  induction text generalizing passed with
  | nil =>
    cases found : dropPrefix? mark [] <;> simp [splitAt?.search, found]
  | cons c rest ih =>
    cases found : dropPrefix? mark (c :: rest) with
    | some after => simp [splitAt?.search, found]
    | none =>
      simp only [splitAt?.search, found]
      rw [ih (c :: passed), ih [c]]
      simp [Option.map_map, Function.comp_def]

theorem before_nil {mark : List α} : before mark ([] : List α) = [] := by
  cases mark <;> simp [before, splitAt?, splitAt?.search, dropPrefix?]

variable [LawfulBEq α]

/-- A prefix is dropped from the texts that begin with it. -/
theorem dropPrefix?_eq_some_iff {start text rest : List α} :
    dropPrefix? start text = some rest ↔ text = start ++ rest := by
  induction start generalizing text with
  | nil => simp [dropPrefix?]
  | cons p start ih =>
    cases text with
    | nil => simp [dropPrefix?]
    | cons c text =>
      by_cases same : p = c
      · simp [dropPrefix?, same, ih]
      · simp [dropPrefix?, same, Ne.symm same]

theorem dropPrefix?_eq_none_iff {start text : List α} :
    dropPrefix? start text = none ↔ ¬ start <+: text := by
  rw [Option.eq_none_iff_forall_ne_some]
  constructor
  · rintro none ⟨rest, rfl⟩
    exact none rest (dropPrefix?_eq_some_iff.mpr rfl)
  · intro other rest found
    exact other ⟨rest, (dropPrefix?_eq_some_iff.mp found).symm⟩

/-- An ending is dropped from the texts that end with it. -/
theorem dropSuffix?_eq_some_iff {ending text body : List α} :
    dropSuffix? ending text = some body ↔ text = body ++ ending := by
  rw [dropSuffix?, Option.map_eq_some_iff]
  constructor
  · rintro ⟨rest, found, rfl⟩
    rw [← List.reverse_inj, dropPrefix?_eq_some_iff.mp found]
    simp
  · rintro rfl
    exact ⟨body.reverse, dropPrefix?_eq_some_iff.mpr (by simp), body.reverse_reverse⟩

theorem before_of_marked {mark text : List α} (marked : mark <+: text) : before mark text = [] := by
  obtain ⟨rest, rfl⟩ := marked
  have found : dropPrefix? mark (mark ++ rest) = some rest := dropPrefix?_eq_some_iff.mpr rfl
  cases text : mark ++ rest with
  | nil => exact before_nil
  | cons c tail =>
    rw [text] at found
    simp [before, splitAt?, splitAt?.search, found]

theorem before_cons {mark rest : List α} {c : α} (unmarked : ¬ mark <+: c :: rest) :
    before mark (c :: rest) = c :: before mark rest := by
  rw [before, splitAt?, splitAt?.search, dropPrefix?_eq_none_iff.mpr unmarked]
  simp only
  rw [search_eq, before, splitAt?]
  cases splitAt?.search mark [] rest <;> simp

variable {mark text part : List α}

/-- The search cuts a text at the first occurrence of the mark. -/
theorem cutBy_before (notEmpty : mark ≠ []) (text : List α) : CutBy mark text (before mark text) := by
  induction text with
  | nil =>
    rw [before_nil]
    exact .inl ⟨by simpa using notEmpty, rfl⟩
  | cons c rest ih =>
    by_cases marked : mark <+: c :: rest
    · rw [before_of_marked marked]
      obtain ⟨behind, text⟩ := marked
      refine .inr ⟨behind, text.symm, fun inside => ?_⟩
      have shorter := inside.length_le
      have : mark.length ≠ 0 := by simpa using notEmpty
      simp at shorter
      omega
    rw [before_cons marked]
    obtain ⟨nowhere, whole⟩ | ⟨behind, text, nowhere⟩ := ih
    · exact .inl ⟨by simp [List.infix_cons_iff, marked, nowhere], by rw [whole]⟩
    · refine .inr ⟨behind, by rw [List.cons_append, ← text], fun inside => ?_⟩
      rw [List.cons_append, List.infix_cons_iff] at inside
      -- At the first character the mark would be a prefix of the whole text.
      rcases inside with atFront | later
      · refine marked (atFront.trans ⟨mark.drop (mark.length - 1) ++ behind, ?_⟩)
        conv_rhs => rw [text]
        rw [List.cons_append, List.append_assoc, ← List.append_assoc mark.dropLast,
          List.dropLast_eq_take, List.take_append_drop]
      · exact nowhere later

theorem before_eq_iff (notEmpty : mark ≠ []) : before mark text = part ↔ CutBy mark text part :=
  ⟨fun equal => equal ▸ cutBy_before notEmpty text, (cutBy_before notEmpty text).unique⟩

end Marks

section Runs

variable {α : Type} {test : α → Bool} {text run rest : List α}

/-- Whether a text falls into its longest run of characters of a kind, at the front, and a rest. -/
structure LongestRun (test : α → Bool) (run rest : List α) : Prop where
  kind : ∀ c ∈ run, test c = true
  ends : ∀ c ∈ rest.head?, test c = false

theorem longestRun (test : α → Bool) (text : List α) :
    LongestRun test (text.takeWhile test) (text.dropWhile test) := by
  refine ⟨List.all_eq_true.mp List.all_takeWhile, fun c first => ?_⟩
  cases rest : text.dropWhile test with
  | nil => simp [rest] at first
  | cons d rest' =>
    have := List.head?_dropWhile_not test text
    simp only [rest, List.head?_cons, Option.mem_some_iff] at first this
    simpa [first] using this

theorem LongestRun.takeWhile (longest : LongestRun test run rest) :
    (run ++ rest).takeWhile test = run := by
  rw [List.takeWhile_append_of_pos longest.kind]
  cases rest with
  | nil => simp
  | cons c rest => simp [longest.ends c rfl]

theorem LongestRun.dropWhile (longest : LongestRun test run rest) :
    (run ++ rest).dropWhile test = rest := by
  rw [List.dropWhile_append_of_pos longest.kind]
  cases rest with
  | nil => simp
  | cons c rest => simp [longest.ends c rfl]

end Runs

section Blanks

variable {text front core back : List Char}

/-- Whether nothing but blanks occurs. -/
def Blank (text : List Char) : Prop := ∀ c ∈ text, isBlank c = true

/-- Whether a text has no blank at either end. -/
structure Bounded (core : List Char) : Prop where
  first : ∀ c ∈ core.head?, isBlank c = false
  last : ∀ c ∈ core.getLast?, isBlank c = false

/-- Trimming cuts a text into a core and blanks around it. -/
theorem trim_spec (text : List Char) :
    ∃ front back, text = front ++ (trim text ++ back) ∧ Blank front ∧ Blank back ∧
      Bounded (trim text) := by
  have front := longestRun isBlank text
  have back := longestRun isBlank (text.dropWhile isBlank).reverse
  have whole : text.dropWhile isBlank =
      trim text ++ ((text.dropWhile isBlank).reverse.takeWhile isBlank).reverse := by
    rw [trim, trimEnd, trimStart, ← List.reverse_append, List.takeWhile_append_dropWhile,
      List.reverse_reverse]
  refine ⟨text.takeWhile isBlank, ((text.dropWhile isBlank).reverse.takeWhile isBlank).reverse,
    ?_, front.kind, fun c member => back.kind c ?_, ?_, ?_⟩
  · rw [← whole, List.takeWhile_append_dropWhile]
  · exact List.mem_reverse.mp member
  · intro c first
    refine front.ends c ?_
    rw [whole, List.head?_append]
    simp [Option.mem_def.mp first]
  · intro c last
    rw [trim, trimEnd, List.getLast?_reverse] at last
    exact back.ends c last

/-- A core between blanks is what trimming leaves. -/
theorem trim_eq (blank : Blank front) (blank' : Blank back) (bounded : Bounded core) :
    trim (front ++ (core ++ back)) = core := by
  cases core with
  | nil =>
    have run : LongestRun isBlank (front ++ back) [] :=
      ⟨List.forall_mem_append.mpr ⟨blank, blank'⟩, by simp⟩
    have nothing : (front ++ back).dropWhile isBlank = [] := by simpa using run.dropWhile
    simp [trim, trimEnd, trimStart, nothing]
  | cons c core =>
    have run : LongestRun isBlank front (c :: core ++ back) :=
      ⟨blank, fun d first => bounded.first d (by simpa using first)⟩
    have run' : LongestRun isBlank back.reverse (c :: core).reverse :=
      ⟨fun d member => blank' d (List.mem_reverse.mp member),
        fun d first => bounded.last d (by rwa [List.head?_reverse] at first)⟩
    rw [trim, trimEnd, trimStart, run.dropWhile, List.reverse_append, run'.dropWhile,
      List.reverse_reverse]

end Blanks
end SimWorkbench.Text
