import Mathlib.Tactic
import SimWorkbench.Json.Reader

/-!
# Written JSON is read back

A text denotes a value when the reader finds the value at the front of the text, whatever follows,
as long as the number of steps allowed exceeds the length of the text. Strings, numbers of one digit
and the blocks of arrays and objects denote what they were written for: one lemma for each form, so
that a document is read back by putting together what its parts denote.
-/
namespace SimWorkbench.Json

/-- Whether a text cannot carry a number on. -/
def Ends (text : List Char) : Prop :=
  ∀ c ∈ text.head?, c.isDigit = false ∧ c ≠ '.' ∧ c ≠ 'e' ∧ c ≠ 'E'

/-- Whether the reader finds `v` at the front of `text` and stops behind it. -/
def Denotes (text : List Char) (v : Value) : Prop :=
  ∀ fuel rest, text.length < fuel → Ends rest → readValue fuel (text ++ rest) = some (v, rest)

theorem hexValue?_hexDigits : ∀ n < 16, hexValue? (hexDigits.getD n '0') = some n := by decide

/-- The three forms of a character inside a string: a short escape, an escape by its number, and the
character itself. -/
theorem escape_forms (c : Char) :
    (∃ e, e ≠ 'u' ∧ shortEscape? e = some c ∧ escape c = ['\\', e]) ∨
    (c.toNat < 0x20 ∧ escape c = ['\\', 'u', '0', '0', hexDigits.getD (c.toNat / 16) '0',
      hexDigits.getD (c.toNat % 16) '0']) ∨
    (¬ c.toNat < 0x20 ∧ c ≠ '"' ∧ c ≠ '\\' ∧ escape c = [c]) := by
  by_cases short : c ∈ ['"', '\\', '\x08', '\x0c', '\n', '\r', '\t']
  · refine .inl ?_
    simp only [List.mem_cons, List.not_mem_nil, or_false] at short
    rcases short with rfl | rfl | rfl | rfl | rfl | rfl | rfl
    exacts [⟨'"', by decide⟩, ⟨'\\', by decide⟩, ⟨'b', by decide⟩, ⟨'f', by decide⟩,
      ⟨'n', by decide⟩, ⟨'r', by decide⟩, ⟨'t', by decide⟩]
  · simp only [List.mem_cons, List.not_mem_nil, or_false, not_or] at short
    refine .inr ?_
    by_cases small : c.toNat < 0x20
    · exact .inl ⟨small, by simp [escape, short, small]⟩
    · exact .inr ⟨small, short.1, short.2.1, by simp [escape, short, small]⟩

theorem readString_short {e c : Char} (done rest : List Char) (notUnit : e ≠ 'u')
    (short : shortEscape? e = some c) :
    readString ⟨done, none, true⟩ ('\\' :: e :: rest) = readString ⟨c :: done, none, true⟩ rest := by
  rw [readString]
  · simp [short, Reading.push]
  · simp [notUnit]

theorem readString_numbered {c : Char} (done rest : List Char) (small : c.toNat < 0x20) :
    readString ⟨done, none, true⟩ ('\\' :: 'u' :: '0' :: '0' ::
        hexDigits.getD (c.toNat / 16) '0' :: hexDigits.getD (c.toNat % 16) '0' :: rest) =
      readString ⟨c :: done, none, true⟩ rest := by
  have zero : hexValue? '0' = some 0 := by decide
  have high := hexValue?_hexDigits (c.toNat / 16) (by omega)
  have low := hexValue?_hexDigits (c.toNat % 16) (by omega)
  have number : ((0 * 16 + 0) * 16 + c.toNat / 16) * 16 + c.toNat % 16 = c.toNat := by omega
  have unit : unit? '0' '0' (hexDigits.getD (c.toNat / 16) '0')
      (hexDigits.getD (c.toNat % 16) '0') = some c.toNat := by
    simp only [unit?, zero, high, low, Option.bind_eq_bind, Option.bind_some, Option.pure_def,
      number]
  have noHalf : ¬ (0xD800 ≤ c.toNat ∧ c.toNat < 0xDC00) := by omega
  have noOther : ¬ (0xDC00 ≤ c.toNat ∧ c.toNat < 0xE000) := by omega
  rw [readString]
  simp only [unit, Reading.pushUnit, if_neg noHalf, if_neg noOther, Reading.push,
    Option.isNone_none, Bool.and_true, Char.ofNat_toNat]

theorem readString_plain {c : Char} (done rest : List Char) (large : ¬ c.toNat < 0x20)
    (notQuote : c ≠ '"') (notBackslash : c ≠ '\\') :
    readString ⟨done, none, true⟩ (c :: rest) = readString ⟨c :: done, none, true⟩ rest := by
  rw [readString]
  · simp [large, Reading.push]
  all_goals simp [notQuote, notBackslash]

/-- One escaped character is read as that character. -/
theorem readString_escape (done : List Char) (c : Char) (rest : List Char) :
    readString ⟨done, none, true⟩ (escape c ++ rest) = readString ⟨c :: done, none, true⟩ rest := by
  rcases escape_forms c with ⟨e, notUnit, short, form⟩ | ⟨small, form⟩ |
    ⟨large, notQuote, notBackslash, form⟩
  · rw [form]
    exact readString_short done rest notUnit short
  · rw [form]
    exact readString_numbered done rest small
  · rw [form]
    exact readString_plain done rest large notQuote notBackslash

/-- A quoted text is read as that text. -/
theorem readString_quoted (text done rest : List Char) :
    readString ⟨done, none, true⟩ (text.flatMap escape ++ '"' :: rest) =
      some (some (done.reverse ++ text), rest) := by
  induction text generalizing done with
  | nil => simp [readString, Reading.text?]
  | cons c text ih =>
    rw [List.flatMap_cons, List.append_assoc, readString_escape, ih]
    simp

theorem skipBlanks_replicate (n : Nat) (text : List Char) :
    skipBlanks (List.replicate n ' ' ++ text) = skipBlanks text := by
  induction n with
  | zero => rfl
  | succ n ih =>
    rw [List.replicate_succ, List.cons_append, ← ih]
    simp [skipBlanks]

theorem skipBlanks_newline (text : List Char) : skipBlanks ('\n' :: text) = skipBlanks text := by
  simp [skipBlanks]

theorem skipBlanks_space (text : List Char) : skipBlanks (' ' :: text) = skipBlanks text := by
  simp [skipBlanks]

/-- Blanks in front of a value do not change what is read. -/
theorem readValue_congr {fuel : Nat} {a b : List Char} (h : skipBlanks a = skipBlanks b) :
    readValue fuel a = readValue fuel b := by
  cases fuel with
  | zero => rfl
  | succ fuel => simp only [readValue, h]

theorem Denotes.of_blanks {a b : List Char} {v : Value} (h : Denotes b v)
    (same : ∀ rest, skipBlanks (a ++ rest) = skipBlanks (b ++ rest)) (longer : b.length ≤ a.length) :
    Denotes a v := by
  intro fuel rest short ends
  rw [readValue_congr (same rest)]
  exact h fuel rest (by omega) ends

theorem Denotes.indent {text : List Char} {v : Value} (n : Nat) (h : Denotes text v) :
    Denotes (List.replicate n ' ' ++ text) v :=
  h.of_blanks (fun rest => by rw [List.append_assoc, skipBlanks_replicate]) (by simp)

theorem denotes_quote (text : List Char) : Denotes (quote text) (.string (some text)) := by
  intro fuel rest short _
  cases fuel with
  | zero => simp at short
  | succ fuel =>
    have skip : skipBlanks (quote text ++ rest) = '"' :: (text.flatMap escape ++ '"' :: rest) := by
      simp [skipBlanks, quote]
    simp only [readValue, skip, readString_quoted]
    simp

theorem digits_single {d : Char} {rest : List Char} (digit : d.isDigit = true) (ends : Ends rest) :
    digits (d :: rest) = ([d], rest) := by
  cases rest with
  | nil => simp [digits, List.span_eq_takeWhile_dropWhile, digit]
  | cons c rest =>
    have stop := (ends c rfl).1
    simp [digits, List.span_eq_takeWhile_dropWhile, digit, stop]

theorem readNumber_digit {d : Char} {rest : List Char} (digit : d.isDigit = true)
    (ends : Ends rest) : readNumber (d :: rest) = some ([d], rest) := by
  have noSign : d ≠ '-' := by
    rintro rfl
    simp at digit
  have whole : readWhole (d :: rest) = some ([d], rest) := by
    unfold readWhole
    simp [digits_single digit ends]
  have noFraction : readFraction rest = some ([], rest) := by
    rw [readFraction]
    rintro tail rfl
    exact (ends '.' rfl).2.1 rfl
  have noExponent : readExponent rest = some ([], rest) := by
    cases rest with
    | nil => rfl
    | cons c rest =>
      obtain ⟨-, -, notLower, notUpper⟩ := ends c rfl
      simp [readExponent, notLower, notUpper]
  rw [readNumber]
  · simp [whole, noFraction, noExponent]
  · simpa using noSign

/-- A number of one digit. -/
theorem denotes_digit {d : Char} (digit : d.isDigit = true) : Denotes [d] (.number [d]) := by
  intro fuel rest short ends
  cases fuel with
  | zero => simp at short
  | succ fuel =>
    have notBlank : skipBlanks ([d] ++ rest) = d :: rest := by
      have : ¬ (((d = ' ' ∨ d = '\t') ∨ d = '\n') ∨ d = '\r') := by
        rintro (((rfl | rfl) | rfl) | rfl) <;> simp at digit
      simp [skipBlanks, this]
    have word : readWord (d :: rest) = some (.number [d], rest) := by
      rw [readWord, readNumber_digit digit ends]
      · rfl
      all_goals
        rintro tail ⟨rfl, -⟩
        simp at digit
    simp only [readValue, notBlank]
    split
    case h_4 => exact word
    all_goals
      rename_i opening
      obtain ⟨rfl, -⟩ := List.cons.inj opening
      simp at digit

theorem skipBlanks_idem (text : List Char) : skipBlanks (skipBlanks text) = skipBlanks text := by
  induction text with
  | nil => rfl
  | cons c text ih =>
    by_cases blank : (c == ' ' || c == '\t' || c == '\n' || c == '\r') = true
    · simpa only [skipBlanks, List.dropWhile_cons, if_pos blank] using ih
    · simp only [skipBlanks, List.dropWhile_cons, if_neg blank]

/-- No value starts with the bracket that closes an array. -/
theorem Denotes.not_closing {text : List Char} {v : Value} (h : Denotes text v) (rest : List Char)
    (ends : Ends rest) : ∀ tail, skipBlanks (text ++ rest) ≠ ']' :: tail := by
  intro tail closing
  have found := h (text.length + 1) rest (by omega) ends
  have word : readWord (']' :: tail) = none := by
    have noDigits : digits (']' :: tail) = ([], ']' :: tail) := by
      simp [digits, List.span_eq_takeWhile_dropWhile]
    simp [readWord, readNumber, readWhole, noDigits]
  rw [readValue, closing] at found
  simp [word] at found

/-- What follows a line and ends a number. -/
theorem ends_cons {c : Char} (rest : List Char) (h : c = ',' ∨ c = '\n') : Ends (c :: rest) := by
  intro d first
  simp only [List.head?_cons, Option.mem_def, Option.some.injEq] at first
  rcases h with rfl | rfl <;> subst first <;> decide

/-- How lines after the first one are written: a comma ends the line before each. -/
def moreLines (lines : List (List Char)) : List Char := lines.flatMap fun x => ',' :: '\n' :: x

theorem intercalate_lines (x : List Char) (xs : List (List Char)) :
    [',', '\n'].intercalate (x :: xs) = x ++ moreLines xs := by
  induction xs generalizing x with
  | nil => simp [moreLines]
  | cons y ys ih => simpa [List.intercalate, moreLines] using ih y

/-- How a block ends: a line of its own with the closing bracket. -/
def lastLine (depth : Nat) (closing : Char) : List Char :=
  '\n' :: (List.replicate depth ' ' ++ [closing])

theorem ends_after (xs : List (List Char)) (depth : Nat) (closing : Char) (rest : List Char) :
    Ends (moreLines xs ++ lastLine depth closing ++ rest) := by
  cases xs with
  | nil => exact ends_cons _ (.inr rfl)
  | cons y ys => exact ends_cons _ (.inl rfl)

theorem skipBlanks_lastLine (depth : Nat) {closing : Char} (rest : List Char)
    (h : closing = ']' ∨ closing = '\x7d') :
    skipBlanks (lastLine depth closing ++ rest) = closing :: rest := by
  have : skipBlanks (closing :: rest) = closing :: rest := by
    rcases h with rfl | rfl <;> simp [skipBlanks]
  rw [lastLine, List.cons_append, skipBlanks_newline, List.append_assoc, skipBlanks_replicate]
  exact this

theorem Denotes.newline {text : List Char} {v : Value} (h : Denotes text v) :
    Denotes ('\n' :: text) v :=
  h.of_blanks (fun rest => skipBlanks_newline (text ++ rest)) (by simp)

/-- The lines of an array and its end, from any line on. -/
theorem readElements_lines {x : List Char} {v : Value} {xs : List (List Char)} {vs : List Value}
    (depth : Nat) (rest : List Char) (others : List.Forall₂ Denotes xs vs) (first : Denotes x v)
    (done : List Value) {fuel : Nat}
    (short : (x ++ moreLines xs ++ lastLine depth ']').length < fuel) :
    readElements fuel done (x ++ (moreLines xs ++ lastLine depth ']' ++ rest)) =
      some (.array (done.reverse ++ v :: vs), rest) := by
  induction others generalizing x v done fuel with
  | nil =>
    obtain _ | fuel := fuel
    · simp at short
    have read := first fuel (moreLines [] ++ lastLine depth ']' ++ rest)
      (by simp [lastLine] at short; omega) (ends_after [] depth ']' rest)
    have closed : skipBlanks (moreLines [] ++ lastLine depth ']' ++ rest) = ']' :: rest :=
      skipBlanks_lastLine depth rest (.inl rfl)
    simp only [readElements, read, closed]
    simp
  | @cons y w ys ws second others ih =>
    obtain _ | fuel := fuel
    · simp at short
    have read := first fuel (moreLines (y :: ys) ++ lastLine depth ']' ++ rest)
      (by simp [lastLine] at short; omega) (ends_after (y :: ys) depth ']' rest)
    have comma : skipBlanks (moreLines (y :: ys) ++ lastLine depth ']' ++ rest) =
        ',' :: ('\n' :: y ++ (moreLines ys ++ lastLine depth ']' ++ rest)) := by
      simp [moreLines, skipBlanks]
    simp only [readElements, read, comma]
    rw [ih second.newline (v :: done) (by simp [moreLines] at short ⊢; omega)]
    simp

/-- Whether a line writes a member of an object. -/
def DenotesMember (line : List Char) (m : Option (List Char) × Value) : Prop :=
  ∃ blanks key value, line = blanks ++ (quote key ++ (':' :: ' ' :: value)) ∧
    (∀ rest, skipBlanks (blanks ++ rest) = skipBlanks rest) ∧
    m.1 = some key ∧ Denotes value m.2

theorem DenotesMember.newline {line : List Char} {m : Option (List Char) × Value}
    (h : DenotesMember line m) : DenotesMember ('\n' :: line) m := by
  obtain ⟨blanks, key, value, rfl, skip, name, denotes⟩ := h
  refine ⟨'\n' :: blanks, key, value, rfl, fun rest => ?_, name, denotes⟩
  rw [List.cons_append, skipBlanks_newline, skip]

/-- The first member of a list of members, up to what follows it. -/
theorem readMembers_first {line : List Char} {m : Option (List Char) × Value}
    (h : DenotesMember line m) (done : List (Option (List Char) × Value)) {fuel : Nat}
    {rest : List Char} (short : line.length ≤ fuel) (ends : Ends rest) :
    readMembers (fuel + 1) done (line ++ rest) =
      match skipBlanks rest with
      | ',' :: rest => readMembers fuel (m :: done) rest
      | '\x7d' :: rest => some (.object (m :: done).reverse, rest)
      | _ => none := by
  obtain ⟨blanks, key, value, rfl, skip, name, denotes⟩ := h
  obtain ⟨k, v⟩ := m
  subst name
  have opening : skipBlanks (blanks ++ (quote key ++ (':' :: ' ' :: value)) ++ rest) =
      '"' :: (key.flatMap escape ++ '"' :: (':' :: ' ' :: (value ++ rest))) := by
    rw [List.append_assoc, skip]
    simp [quote, skipBlanks]
  have colon : skipBlanks (':' :: ' ' :: (value ++ rest)) = ':' :: ' ' :: (value ++ rest) := by
    simp [skipBlanks]
  have read : readValue fuel (' ' :: (value ++ rest)) = some (v, rest) := by
    rw [readValue_congr (skipBlanks_space _)]
    exact denotes fuel rest (by simp [quote] at short; omega) ends
  have unfolded := Eq.refl (readMembers (fuel + 1) done
    (blanks ++ (quote key ++ (':' :: ' ' :: value)) ++ rest))
  conv_rhs at unfolded =>
    simp only [readMembers, opening, readString_quoted, colon, read, List.reverse_nil, List.nil_append]
  exact unfolded

/-- The lines of an object and its end, from any line on. -/
theorem readMembers_lines {x : List Char} {m : Option (List Char) × Value}
    {xs : List (List Char)} {ms : List (Option (List Char) × Value)} (depth : Nat)
    (rest : List Char) (others : List.Forall₂ DenotesMember xs ms) (first : DenotesMember x m)
    (done : List (Option (List Char) × Value)) {fuel : Nat}
    (short : (x ++ moreLines xs ++ lastLine depth '\x7d').length < fuel) :
    readMembers fuel done (x ++ (moreLines xs ++ lastLine depth '\x7d' ++ rest)) =
      some (.object (done.reverse ++ m :: ms), rest) := by
  induction others generalizing x m done fuel with
  | nil =>
    obtain _ | fuel := fuel
    · simp at short
    have closed : skipBlanks (moreLines [] ++ lastLine depth '\x7d' ++ rest) = '\x7d' :: rest :=
      skipBlanks_lastLine depth rest (.inr rfl)
    rw [readMembers_first first done (by simp [lastLine] at short; omega)
      (ends_after [] depth '\x7d' rest), closed]
    simp
  | @cons y n ys ns second others ih =>
    obtain _ | fuel := fuel
    · simp at short
    have comma : skipBlanks (moreLines (y :: ys) ++ lastLine depth '\x7d' ++ rest) =
        ',' :: ('\n' :: y ++ (moreLines ys ++ lastLine depth '\x7d' ++ rest)) := by
      simp [moreLines, skipBlanks]
    rw [readMembers_first first done (by simp [lastLine] at short; omega)
      (ends_after (y :: ys) depth '\x7d' rest), comma]
    simp only
    rw [ih second.newline (m :: done) (by simp [moreLines] at short ⊢; omega)]
    simp

theorem readElements_congr {fuel : Nat} {done : List Value} {a b : List Char}
    (h : skipBlanks a = skipBlanks b) : readElements fuel done a = readElements fuel done b := by
  cases fuel with
  | zero => rfl
  | succ fuel => simp only [readElements, readValue_congr h]

theorem readMembers_congr {fuel : Nat} {done : List (Option (List Char) × Value)}
    {a b : List Char} (h : skipBlanks a = skipBlanks b) :
    readMembers fuel done a = readMembers fuel done b := by
  cases fuel with
  | zero => rfl
  | succ fuel => simp only [readMembers, h]

theorem denotes_noElements : Denotes ['[', ']'] (.array []) := by
  intro fuel rest short _
  obtain _ | fuel := fuel
  · simp at short
  have opening : skipBlanks (['[', ']'] ++ rest) = '[' :: ']' :: rest := by simp [skipBlanks]
  have closing : skipBlanks (']' :: rest) = ']' :: rest := by simp [skipBlanks]
  simp only [readValue, opening, closing]

/-- An array with one element on each line. -/
theorem denotes_array {x : List Char} {v : Value} {xs : List (List Char)} {vs : List Value}
    (depth : Nat) (first : Denotes x v) (others : List.Forall₂ Denotes xs vs) :
    Denotes ('[' :: '\n' :: (x ++ (moreLines xs ++ lastLine depth ']'))) (.array (v :: vs)) := by
  intro fuel rest short _
  obtain _ | fuel := fuel
  · simp at short
  set elements := x ++ (moreLines xs ++ lastLine depth ']' ++ rest) with isElements
  have opening : skipBlanks ('[' :: '\n' :: (x ++ (moreLines xs ++ lastLine depth ']')) ++ rest) =
      '[' :: '\n' :: elements := by
    simp [skipBlanks, isElements]
  have notClosing : ∀ tail, skipBlanks ('\n' :: elements) ≠ ']' :: tail := by
    rw [skipBlanks_newline]
    exact first.not_closing _ (ends_after xs depth ']' rest)
  simp only [readValue, opening]
  rw [readElements_congr ((skipBlanks_idem _).trans (skipBlanks_newline elements)), isElements,
    readElements_lines depth rest others first [] (by simp at short ⊢; omega)]
  rfl

/-- An object with one member on each line. -/
theorem denotes_object {x : List Char} {m : Option (List Char) × Value} {xs : List (List Char)}
    {ms : List (Option (List Char) × Value)} (depth : Nat) (first : DenotesMember x m)
    (others : List.Forall₂ DenotesMember xs ms) :
    Denotes ('\x7b' :: '\n' :: (x ++ (moreLines xs ++ lastLine depth '\x7d')))
      (.object (m :: ms)) := by
  intro fuel rest short _
  obtain _ | fuel := fuel
  · simp at short
  set members := x ++ (moreLines xs ++ lastLine depth '\x7d' ++ rest) with isMembers
  have opening :
      skipBlanks ('\x7b' :: '\n' :: (x ++ (moreLines xs ++ lastLine depth '\x7d')) ++ rest) =
        '\x7b' :: '\n' :: members := by
    simp [skipBlanks, isMembers]
  have notClosing : ∀ tail, skipBlanks ('\n' :: members) ≠ '\x7d' :: tail := by
    obtain ⟨blanks, key, value, rfl, skip, -, -⟩ := first
    intro tail
    rw [skipBlanks_newline, isMembers, List.append_assoc, skip]
    simp [quote, skipBlanks]
  simp only [readValue, opening]
  rw [readMembers_congr ((skipBlanks_idem _).trans (skipBlanks_newline members)), isMembers,
    readMembers_lines depth rest others first [] (by simp at short ⊢; omega)]
  rfl

/-- A text that denotes a value is a document of it. -/
theorem Denotes.read? {text : List Char} {v : Value} (h : Denotes text v) : read? text = some v := by
  have found := h (text.length + 1) [] (by omega) (by intro c first; simp at first)
  rw [List.append_nil] at found
  simp [Json.read?, found, skipBlanks]

end SimWorkbench.Json
