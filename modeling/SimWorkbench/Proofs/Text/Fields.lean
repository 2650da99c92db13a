import SimWorkbench.Proofs.Text.Cutting

/-!
# Words, trimmed texts and line ends

What a text is cut into at its blanks, told by how it is put together: the words between blanks, the
core that blanks surround, the content before the line ends. Each of these is there for every text,
and there once, and the functions that cut find it.
-/
namespace SimWorkbench.Text

section Marks

variable {α : Type} [BEq α] [LawfulBEq α] {mark : α} {front text : List α}

theorem splitAt?_of_unmarked (unmarked : mark ∉ text) : splitAt? [mark] text = none := by
  rw [splitAt?]
  induction text with
  | nil => rfl
  | cons c text ih =>
    obtain ⟨other, unmarked⟩ := not_or.mp (List.mem_cons.not.mp unmarked)
    have none : dropPrefix? [mark] (c :: text) = none := by simp [dropPrefix?, other]
    simp only [splitAt?.search, none]
    rw [search_eq, ih unmarked, Option.map_none]

/-- A text is split at the first occurrence of the mark. -/
theorem splitAt?_of_mark (unmarked : mark ∉ front) (rest : List α) :
    splitAt? [mark] (front ++ mark :: rest) = some (front, rest) := by
  rw [splitAt?]
  induction front with
  | nil => simp [splitAt?.search, dropPrefix?]
  | cons c front ih =>
    obtain ⟨other, unmarked⟩ := not_or.mp (List.mem_cons.not.mp unmarked)
    have none : dropPrefix? [mark] (c :: (front ++ mark :: rest)) = none := by
      simp [dropPrefix?, other]
    rw [List.cons_append]
    simp only [splitAt?.search, none]
    rw [search_eq, ih unmarked]
    rfl

end Marks

section Words

/-- Whether a text is one word. -/
structure IsWord (word : List Char) : Prop where
  notEmpty : word ≠ []
  noBlank : ∀ c ∈ word, isBlank c = false

/-- How a text falls into words: blanks may stand around each of them, and at least one stands
between two. -/
inductive Words : List Char → List (List Char) → Prop
  | none {text} (blank : Blank text) : Words text []
  | word {front word rest ws} (blank : Blank front) (isWord : IsWord word)
    (ends : ∀ c ∈ rest.head?, isBlank c = true) (later : Words rest ws) :
    Words (front ++ (word ++ rest)) (word :: ws)

variable {text front word rest : List Char} {ws : List (List Char)}

theorem words_of_blank (blank : Blank text) : words text = [] := by
  induction text with
  | nil => rfl
  | cons c text ih =>
    obtain ⟨first, blank⟩ := List.forall_mem_cons.mp blank
    rw [words, List.splitOnP_cons_eq_if_modifyHead, if_pos first, List.filter_cons_of_neg (by simp)]
    exact ih blank

theorem words_of_isWord (isWord : IsWord word) : words word = [word] := by
  rw [words, List.splitOnP_eq_singleton isWord.noBlank,
    List.filter_cons_of_pos (by simp [isWord.notEmpty]), List.filter_nil]

/-- The words on both sides of a blank are those of the whole text. -/
theorem words_append_blank {blank : Char} (isBlank : isBlank blank = true)
    (front rest : List Char) : words (front ++ blank :: rest) = words front ++ words rest := by
  rw [words, List.splitOnP_append_cons front rest isBlank, List.filter_append]
  rfl

/-- Blanks at the front make no difference. -/
theorem words_blank_append (blank : Blank front) (rest : List Char) :
    words (front ++ rest) = words rest := by
  induction front with
  | nil => rfl
  | cons c front ih =>
    obtain ⟨first, blank⟩ := List.forall_mem_cons.mp blank
    rw [← ih blank]
    exact words_append_blank first [] (front ++ rest)

/-- The words are found, however the text came together. -/
theorem Words.words_eq (falls : Words text ws) : words text = ws := by
  induction falls with
  | none blank => exact words_of_blank blank
  | @word front word rest ws blank isWord ends later ih =>
    rw [words_blank_append blank]
    cases rest with
    | nil =>
      have nothing : ws = [] := ih.symm.trans (words_of_blank (by simp [Blank]))
      rw [List.append_nil, words_of_isWord isWord, nothing]
    | cons c rest =>
      have separates : isBlank c = true := ends c rfl
      have later : words rest = ws := by
        rw [← ih]
        exact (words_append_blank separates [] rest).symm
      rw [words_append_blank separates, words_of_isWord isWord, later, List.singleton_append]

/-- Every text falls into words. -/
theorem exists_words (text : List Char) : ∃ ws, Words text ws := by
  induction length : text.length using Nat.strong_induction_on generalizing text with
  | _ n ih =>
    have front := longestRun isBlank text
    have word := longestRun (fun c => !isBlank c) (text.dropWhile isBlank)
    have whole : text = text.takeWhile isBlank ++
        ((text.dropWhile isBlank).takeWhile (!isBlank ·) ++
          (text.dropWhile isBlank).dropWhile (!isBlank ·)) := by
      rw [List.takeWhile_append_dropWhile, List.takeWhile_append_dropWhile]
    cases behind : text.dropWhile isBlank with
    | nil =>
      rw [behind, List.takeWhile_nil, List.dropWhile_nil, List.append_nil, List.append_nil] at whole
      exact ⟨[], .none (whole ▸ front.kind)⟩
    | cons c behind' =>
      have first : isBlank c = false := front.ends c (by rw [behind]; rfl)
      have notEmpty : (text.dropWhile isBlank).takeWhile (!isBlank ·) ≠ [] := by
        rw [behind, List.takeWhile_cons_of_pos (by simp [first])]
        simp
      have shorter : ((text.dropWhile isBlank).dropWhile (!isBlank ·)).length < n := by
        have := congrArg List.length whole
        have := List.length_pos_of_ne_nil notEmpty
        simp only [List.length_append] at *
        omega
      obtain ⟨ws, later⟩ := ih _ shorter _ rfl
      rw [whole]
      exact ⟨_, .word front.kind ⟨notEmpty, fun d member => by simpa using word.kind d member⟩
        (fun d head => by simpa using word.ends d head) later⟩

theorem words_eq_iff : words text = ws ↔ Words text ws := by
  constructor
  · rintro rfl
    obtain ⟨ws, falls⟩ := exists_words text
    rwa [falls.words_eq]
  · exact Words.words_eq

/-- The words of a text are words. -/
theorem Words.isWord (falls : Words text ws) : ∀ word ∈ ws, IsWord word := by
  induction falls with
  | none => simp
  | word _ isWord _ _ ih => exact List.forall_mem_cons.mpr ⟨isWord, ih⟩

/-- Words that are written with a space between each two are the words of what is written. -/
theorem Words.spaced (isWord : IsWord word) (falls : Words rest ws) :
    Words (word ++ ' ' :: rest) (word :: ws) := by
  have isBlank : isBlank ' ' = true := by decide
  have later : Words (' ' :: rest) ws := by
    rw [← words_eq_iff, ← falls.words_eq]
    exact words_append_blank isBlank [] rest
  exact .word (by simp [Blank] : Blank []) isWord (by simpa using isBlank) later

theorem Words.single (isWord : IsWord word) : Words word [word] :=
  words_eq_iff.mp (words_of_isWord isWord)

end Words

section Trimming

variable {text core core' : List Char}

/-- Whether a text is a core with nothing but blanks around it, and the core has no blank at either
end. -/
def Trimmed (text core : List Char) : Prop :=
  Bounded core ∧ ∃ front back, text = front ++ (core ++ back) ∧ Blank front ∧ Blank back

theorem trim_eq_iff : trim text = core ↔ Trimmed text core := by
  constructor
  · rintro rfl
    obtain ⟨front, back, whole, blank, blank', bounded⟩ := trim_spec text
    exact ⟨bounded, front, back, whole, blank, blank'⟩
  · rintro ⟨bounded, front, back, rfl, blank, blank'⟩
    exact trim_eq blank blank' bounded

/-- Words have no blanks at their ends, and neither have words with something between them. -/
theorem IsWord.bounded (isWord : IsWord core) : Bounded core :=
  ⟨fun c first => isWord.noBlank c (List.mem_of_mem_head? first),
    fun c last => isWord.noBlank c (List.mem_of_getLast? last)⟩

theorem IsWord.bounded_append (isWord : IsWord core) (isWord' : IsWord core')
    (between : List Char) : Bounded (core ++ (between ++ core')) := by
  constructor
  · intro c first
    rw [List.head?_append_of_ne_nil _ isWord.notEmpty] at first
    exact isWord.bounded.first c first
  · intro c last
    rw [List.getLast?_append_of_ne_nil _ (by simp [isWord'.notEmpty]),
      List.getLast?_append_of_ne_nil _ isWord'.notEmpty] at last
    exact isWord'.bounded.last c last

/-- A text that has no blank at either end is its own core. -/
theorem Bounded.trimmed (bounded : Bounded core) : Trimmed core core :=
  ⟨bounded, [], [], by simp, by simp [Blank], by simp [Blank]⟩

theorem isAllBlank_iff : isAllBlank text = true ↔ Blank text := List.all_eq_true

/-- There is nothing between the blanks of a text without anything else. -/
theorem Trimmed.empty_iff (trimmed : Trimmed text core) : core = [] ↔ Blank text := by
  obtain ⟨bounded, front, back, rfl, blank, blank'⟩ := trimmed
  constructor
  · rintro rfl
    exact List.forall_mem_append.mpr ⟨blank, blank'⟩
  · intro all
    cases core with
    | nil => rfl
    | cons c core =>
      have isBlank := all c (by simp)
      rw [bounded.first c rfl] at isBlank
      cases isBlank

end Trimming

section Ends

variable {line content content' : List Char}

def IsLineEnd (c : Char) : Prop := c = '\n' ∨ c = '\r'

/-- Whether a line is its content with nothing but carriage returns and line feeds after it, and the
content ends with neither. -/
structure Content (line content : List Char) : Prop where
  ended : ∃ ending, line = content ++ ending ∧ ∀ c ∈ ending, IsLineEnd c
  last : ∀ c ∈ content.getLast?, ¬ IsLineEnd c

theorem content_dropLineEnds (line : List Char) : Content line (dropLineEnds line) := by
  have back := longestRun (fun c => c == '\n' || c == '\r') line.reverse
  constructor
  · refine ⟨(line.reverse.takeWhile fun c => c == '\n' || c == '\r').reverse, ?_,
      fun c member => ?_⟩
    · rw [dropLineEnds, ← List.reverse_append, List.takeWhile_append_dropWhile,
        List.reverse_reverse]
    · simpa [IsLineEnd] using back.kind c (List.mem_reverse.mp member)
  · intro c last
    rw [dropLineEnds, List.getLast?_reverse] at last
    simpa [IsLineEnd] using back.ends c last

theorem dropLineEnds_eq_iff : dropLineEnds line = content ↔ Content line content := by
  refine ⟨fun same => same ▸ content_dropLineEnds line, ?_⟩
  rintro ⟨⟨ending, rfl, areEnds⟩, last⟩
  have run : LongestRun (fun c => c == '\n' || c == '\r') ending.reverse content.reverse := by
    constructor
    · intro c member
      simpa [IsLineEnd] using areEnds c (List.mem_reverse.mp member)
    · intro c first
      rw [List.head?_reverse] at first
      simpa [IsLineEnd] using last c first
  rw [dropLineEnds, List.reverse_append, run.dropWhile, List.reverse_reverse]

/-- A text with no blank at its end has no line end there. -/
theorem Bounded.not_lineEnd (bounded : Bounded content) :
    ∀ c ∈ content.getLast?, ¬ IsLineEnd c := by
  rintro c last (rfl | rfl) <;> exact absurd (bounded.last _ last) (by decide)

/-- A text that ends with no line end is all content. -/
theorem content_self (last : ∀ c ∈ content.getLast?, ¬ IsLineEnd c) : Content content content :=
  ⟨⟨[], by simp, by simp⟩, last⟩

end Ends
end SimWorkbench.Text
