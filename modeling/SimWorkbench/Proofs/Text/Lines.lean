import SimWorkbench.Text.Lines

/-!
# Cutting a text into lines

A text is in one way a sequence of lines, each with its only mark at its end, and of a rest without a
mark. Cutting it finds these, however the text came together.
-/
namespace SimWorkbench.Text

variable {α : Type} {mark : α}

/-- Whether a line ends with the mark and has it nowhere else. -/
def IsLine (mark : α) (line : List α) : Prop := ∃ body, mark ∉ body ∧ line = body ++ [mark]

/-- The last piece of a text, if there is anything of it. -/
def lastPiece (rest : List α) : List (List α) := if rest.isEmpty then [] else [rest]

/-- A line ends with the mark, a rest does not. -/
theorem IsLine.last {line : List α} (isLine : IsLine mark line) : line.getLast? = some mark := by
  obtain ⟨body, -, rfl⟩ := isLine
  exact List.getLast?_concat ..

theorem last_ne_of_unmarked {rest : List α} (unmarked : mark ∉ rest) : rest.getLast? ≠ some mark :=
  fun last => unmarked (List.mem_of_getLast? last)

theorem lastPiece_flatten (rest : List α) : (lastPiece rest).flatten = rest := by
  cases rest <;> simp [lastPiece]

/-- Every text is put together from lines and a rest. -/
theorem exists_lines (mark : α) (text : List α) :
    ∃ (pieces : List (List α)) (rest : List α), (∀ line ∈ pieces, IsLine mark line) ∧ mark ∉ rest ∧
      text = pieces.flatten ++ rest := by
  induction text with
  | nil => exact ⟨[], [], by simp, by simp, rfl⟩
  | cons c text ih =>
    obtain ⟨pieces, rest, areLines, unmarked, rfl⟩ := ih
    by_cases isMark : c = mark
    · exact ⟨[mark] :: pieces, rest, List.forall_mem_cons.mpr ⟨⟨[], by simp, rfl⟩, areLines⟩,
        unmarked, by simp [isMark]⟩
    · cases pieces with
      | nil => exact ⟨[], c :: rest, by simp, by simp [Ne.symm isMark, unmarked], rfl⟩
      | cons line pieces =>
        obtain ⟨⟨body, noMark, rfl⟩, others⟩ := List.forall_mem_cons.mp areLines
        exact ⟨((c :: body) ++ [mark]) :: pieces, rest,
          List.forall_mem_cons.mpr ⟨⟨c :: body, by simp [Ne.symm isMark, noMark], rfl⟩, others⟩,
          unmarked, by simp⟩

variable [BEq α] [LawfulBEq α]

theorem go_of_rest {rest : List α} (unmarked : mark ∉ rest) (piece : List α) (done : List (List α)) :
    terminated.go mark piece done rest = done.reverse ++ lastPiece (piece.reverse ++ rest) := by
  induction rest generalizing piece with
  | nil =>
    rw [terminated.go, lastPiece, List.append_nil, List.isEmpty_reverse]
    split <;> simp
  | cons c rest ih =>
    rw [List.mem_cons, not_or] at unmarked
    obtain ⟨other, unmarked⟩ := unmarked
    rw [terminated.go, if_neg (by simpa using Ne.symm other), ih unmarked]
    simp

/-- The first mark ends a line. -/
theorem go_of_line {body : List α} (unmarked : mark ∉ body) (rest piece : List α)
    (done : List (List α)) :
    terminated.go mark piece done (body ++ mark :: rest) =
      terminated.go mark [] ((piece.reverse ++ body ++ [mark]) :: done) rest := by
  induction body generalizing piece with
  | nil => simp [terminated.go]
  | cons c body ih =>
    rw [List.mem_cons, not_or] at unmarked
    obtain ⟨other, unmarked⟩ := unmarked
    rw [List.cons_append, terminated.go, if_neg (by simpa using Ne.symm other), ih unmarked]
    simp

/-- Lines and a rest that were put together are found again. -/
theorem terminated_flatten {pieces : List (List α)} {rest : List α}
    (areLines : ∀ line ∈ pieces, IsLine mark line) (unmarked : mark ∉ rest) :
    terminated mark (pieces.flatten ++ rest) = pieces ++ lastPiece rest := by
  suffices all : ∀ done, terminated.go mark [] done (pieces.flatten ++ rest) =
      done.reverse ++ (pieces ++ lastPiece rest) from all []
  induction pieces with
  | nil => exact fun done => go_of_rest unmarked [] done
  | cons line pieces ih =>
    obtain ⟨⟨body, noMark, rfl⟩, others⟩ := List.forall_mem_cons.mp areLines
    intro done
    have split : ((body ++ [mark]) :: pieces).flatten ++ rest =
        body ++ mark :: (pieces.flatten ++ rest) := by simp
    rw [split, go_of_line noMark, ih others]
    simp

end SimWorkbench.Text
