import SimWorkbench.Proofs.Text.Cutting
import SimWorkbench.Source.Unit
import Mathlib.Logic.Relation

/-!
# The grammar of declarations

What a source declares, told by how its lines are put together and not by how they are scanned: a
package line, the first type line after it, and two names. The scanner gives exactly the answer of this
grammar, and lines that declare nothing, comments, blanks around a line and its carriage return never
change it.
-/
namespace SimWorkbench.SourceUnit

open Text (Blank Bounded CutBy LongestRun)

/-- Whether a text is what a line is left with when it is cut at its first `//` and the blanks at both
ends of the rest are taken off. -/
def Core (line core : List Char) : Prop :=
  ∃ part front back, CutBy ['/', '/'] line part ∧ part = front ++ (core ++ back) ∧
    Blank front ∧ Blank back ∧ Bounded core

/-- Whether a line is a package line, and of which name: the words, the longest run of name characters,
which may be empty, and an opening brace behind blanks. -/
def PackageLine (line name : List Char) : Prop :=
  ∃ core behind blanks body, Core line core ∧ core = "pub mod ".toList ++ (name ++ behind) ∧
    LongestRun isNameChar name behind ∧ behind = blanks ++ '\x7b' :: body ∧ Blank blanks

/-- Whether a line is a type line, and of which name. Anything may follow the run. -/
def TypeLine (line name : List Char) : Prop :=
  ∃ core behind, Core line core ∧ core = "pub struct ".toList ++ (name ++ behind) ∧
    LongestRun isNameChar name behind

/-- A run of name characters is an identifier unless it is empty or a lone underscore or begins with a
digit. -/
def Identifier (name : List Char) : Prop :=
  name ≠ [] ∧ name ≠ ['_'] ∧ ∀ c ∈ name.head?, c.isDigit = false

/-- Whether a name stands on the first of the lines that declare one, and what lines follow it. -/
def First (declares : List Char → List Char → Prop) (lines : List (List Char)) (name : List Char)
    (below : List (List Char)) : Prop :=
  ∃ above line, lines = above ++ line :: below ∧ (∀ l ∈ above, ∀ n, ¬ declares l n) ∧
    declares line name

/-- What lines declare. -/
inductive Declares (lines : List (List Char)) : Except MalformedSource SourceUnit → Prop
  | missingPackage (none : ∀ line ∈ lines, ∀ name, ¬ PackageLine line name) :
      Declares lines (.error .missingPackage)
  | badPackage {package : List Char} {below : List (List Char)}
      (first : First PackageLine lines package below) (bad : ¬ Identifier package) :
      Declares lines (.error (.invalidIdentifier (String.ofList package)))
  | missingType {package : List Char} {below : List (List Char)}
      (first : First PackageLine lines package below) (good : Identifier package)
      (none : ∀ line ∈ below, ∀ name, ¬ TypeLine line name) :
      Declares lines (.error (.missingType (String.ofList package)))
  | badType {package name : List Char} {below rest : List (List Char)}
      (first : First PackageLine lines package below) (good : Identifier package)
      (second : First TypeLine below name rest) (bad : ¬ Identifier name) :
      Declares lines (.error (.invalidIdentifier (String.ofList name)))
  | unit {package name : List Char} {below rest : List (List Char)}
      (first : First PackageLine lines package below) (good : Identifier package)
      (second : First TypeLine below name rest) (good' : Identifier name) :
      Declares lines (.ok ⟨String.ofList package, String.ofList name⟩)

/-- Whether a line declares neither a package nor a type. -/
def Idle (line : List Char) : Prop := ∀ name, ¬ PackageLine line name ∧ ¬ TypeLine line name

/-- A change of a source that is none of its declarations: an idle line more, blanks around a line (a
carriage return before its end is one), another comment behind what a line says. -/
inductive Edit : List (List Char) → List (List Char) → Prop
  | idle {line : List Char} (idle : Idle line) (above below : List (List Char)) :
      Edit (above ++ below) (above ++ line :: below)
  | blanks {front back : List Char} (blank : Blank front) (blank' : Blank back) (line : List Char)
      (above below : List (List Char)) :
      Edit (above ++ line :: below) (above ++ (front ++ (line ++ back)) :: below)
  | comment {line line' part : List Char} (cut : CutBy ['/', '/'] line part)
      (cut' : CutBy ['/', '/'] line' part) (above below : List (List Char)) :
      Edit (above ++ line :: below) (above ++ line' :: below)

section Lines

variable {line core name front back : List Char}

/-- A line is cut at its first comment and then trimmed. -/
theorem bare_eq (line : List Char) : bare line = Text.trim (Text.before ['/', '/'] line) := by
  rw [bare, Text.before]
  rfl

theorem bare_nil : bare [] = [] := by
  rw [bare_eq, Text.before_nil]
  rfl

/-- The scanner leaves of a line its core. -/
theorem bare_eq_iff : bare line = core ↔ Core line core := by
  have notEmpty : ['/', '/'] ≠ [] := by decide
  rw [bare_eq]
  constructor
  · rintro rfl
    obtain ⟨front, back, whole, blank, blank', bounded⟩ := Text.trim_spec (Text.before ['/', '/'] line)
    exact ⟨_, front, back, Text.cutBy_before notEmpty line, whole, blank, blank', bounded⟩
  · rintro ⟨part, front, back, cut, rfl, blank, blank', bounded⟩
    rw [(Text.before_eq_iff notEmpty).mpr cut, Text.trim_eq blank blank' bounded]

/-- The scanner finds the package lines. -/
theorem packageName?_eq_some_iff : packageName? (bare line) = some name ↔ PackageLine line name := by
  constructor
  · intro found
    unfold packageName? at found
    split at found
    · cases found
    rename_i rest starts
    simp only [List.span_eq_takeWhile_dropWhile, beq_iff_eq, Option.ite_none_right_eq_some,
      Option.some.injEq] at found
    obtain ⟨brace, rfl⟩ := found
    have run := Text.longestRun isNameChar rest
    have blanks := Text.longestRun Text.isBlank (rest.dropWhile isNameChar)
    obtain ⟨body, open'⟩ := List.head?_eq_some_iff.mp brace
    refine ⟨bare line, rest.dropWhile isNameChar, _, body, bare_eq_iff.mp rfl, ?_, run, ?_,
      blanks.kind⟩
    · rw [List.takeWhile_append_dropWhile]
      exact Text.dropPrefix?_eq_some_iff.mp starts
    · rw [← open', Text.trimStart, List.takeWhile_append_dropWhile]
  · rintro ⟨core, behind, blanks, body, isCore, starts, run, rfl, blank⟩
    have gap : LongestRun Text.isBlank blanks ('\x7b' :: body) :=
      ⟨blank, by rintro c ⟨⟩; decide⟩
    rw [bare_eq_iff.mpr isCore, packageName?, Text.dropPrefix?_eq_some_iff.mpr starts]
    simp only [List.span_eq_takeWhile_dropWhile, run.takeWhile, run.dropWhile, Text.trimStart,
      gap.dropWhile]
    simp

/-- The scanner finds the type lines. -/
theorem typeName?_eq_some_iff : typeName? (bare line) = some name ↔ TypeLine line name := by
  rw [typeName?, Option.map_eq_some_iff]
  constructor
  · rintro ⟨rest, starts, rfl⟩
    refine ⟨bare line, rest.dropWhile isNameChar, bare_eq_iff.mp rfl, ?_,
      Text.longestRun isNameChar rest⟩
    rw [List.takeWhile_append_dropWhile]
    exact Text.dropPrefix?_eq_some_iff.mp starts
  · rintro ⟨core, behind, isCore, starts, run⟩
    rw [bare_eq_iff.mpr isCore]
    exact ⟨_, Text.dropPrefix?_eq_some_iff.mpr starts, run.takeWhile⟩

theorem isIdentifier_iff : isIdentifier name = true ↔ Identifier name := by
  cases name <;> simp [isIdentifier, Identifier]

/-- Nothing is found on an idle line. -/
theorem idle_iff : Idle line ↔ packageName? (bare line) = none ∧ typeName? (bare line) = none := by
  simp only [Option.eq_none_iff_forall_ne_some, ne_eq, packageName?_eq_some_iff,
    typeName?_eq_some_iff]
  exact forall_and

end Lines

section Scan

variable {lines above below : List (List Char)} {line package name : List Char}

/-- Either no line declares a name or there is a first one that does. -/
theorem exists_first (declares : List Char → List Char → Prop) (lines : List (List Char)) :
    (∀ line ∈ lines, ∀ name, ¬ declares line name) ∨
      ∃ name below, First declares lines name below := by
  induction lines with
  | nil => exact .inl (by simp)
  | cons line lines ih =>
    by_cases here : ∃ name, declares line name
    · obtain ⟨name, here⟩ := here
      exact .inr ⟨name, lines, [], line, rfl, by simp, here⟩
    have notHere : ∀ name, ¬ declares line name := not_exists.mp here
    obtain nowhere | ⟨name, below, above, line', rfl, others, there⟩ := ih
    · exact .inl (List.forall_mem_cons.mpr ⟨notHere, nowhere⟩)
    · exact .inr ⟨name, below, line :: above, line', rfl, List.forall_mem_cons.mpr ⟨notHere, others⟩,
        there⟩

/-- All lines declare something, if only that nothing is declared. -/
theorem exists_declares (lines : List (List Char)) : ∃ result, Declares lines result := by
  obtain none | ⟨package, below, first⟩ := exists_first PackageLine lines
  · exact ⟨_, .missingPackage none⟩
  by_cases good : Identifier package
  swap
  · exact ⟨_, .badPackage first good⟩
  obtain none | ⟨name, rest, second⟩ := exists_first TypeLine below
  · exact ⟨_, .missingType first good none⟩
  by_cases good' : Identifier name
  · exact ⟨_, .unit first good second good'⟩
  · exact ⟨_, .badType first good second good'⟩

theorem packageName?_eq_none_iff :
    packageName? (bare line) = none ↔ ∀ name, ¬ PackageLine line name := by
  simp only [Option.eq_none_iff_forall_ne_some, ne_eq, packageName?_eq_some_iff]

theorem typeName?_eq_none_iff : typeName? (bare line) = none ↔ ∀ name, ¬ TypeLine line name := by
  simp only [Option.eq_none_iff_forall_ne_some, ne_eq, typeName?_eq_some_iff]

/-- Lines that are no package lines are passed by. -/
theorem findPackage_append (others : ∀ line ∈ above, packageName? line = none) :
    findPackage (above ++ below) = findPackage below := by
  induction above with
  | nil => rfl
  | cons line above ih =>
    obtain ⟨other, others⟩ := List.forall_mem_cons.mp others
    rw [List.cons_append, findPackage, other]
    exact ih others

/-- The scanner's answer is the one that the grammar gives. -/
theorem scan_of_declares {result : Except MalformedSource SourceUnit}
    (declares : Declares lines result) : scan (lines.map bare) = result := by
  have package : ∀ {package below}, First PackageLine lines package below →
      findPackage (lines.map bare) = some (package, below.map bare) := by
    rintro package below ⟨above, line, rfl, others, isPackage⟩
    rw [List.map_append, findPackage_append (List.forall_mem_map.mpr fun l member =>
      packageName?_eq_none_iff.mpr (others l member)), List.map_cons, findPackage,
      packageName?_eq_some_iff.mpr isPackage]
  have type : ∀ {below name rest}, First TypeLine below name rest →
      (below.map bare).findSome? typeName? = some name := by
    rintro below name rest ⟨above, line, rfl, others, isType⟩
    have passed : (above.map bare).findSome? typeName? = none :=
      List.findSome?_eq_none_iff.mpr (List.forall_mem_map.mpr fun l member =>
        typeName?_eq_none_iff.mpr (others l member))
    rw [List.map_append, List.findSome?_append, passed, List.map_cons, List.findSome?_cons,
      typeName?_eq_some_iff.mpr isType]
    rfl
  unfold scan
  cases declares with
  | missingPackage none =>
    have passed : findPackage (lines.map bare ++ []) = findPackage [] :=
      findPackage_append (List.forall_mem_map.mpr fun l member =>
        packageName?_eq_none_iff.mpr (none l member))
    rw [List.append_nil] at passed
    rw [passed, findPackage]
  | badPackage first bad => simp [package first, mt isIdentifier_iff.mp bad]
  | missingType first good none =>
    have passed := List.findSome?_eq_none_iff.mpr (List.forall_mem_map.mpr fun l member =>
      typeName?_eq_none_iff.mpr (none l member))
    simp only [package first, isIdentifier_iff.mpr good, passed, if_true]
  | badType first good second bad =>
    simp [package first, isIdentifier_iff.mpr good, type second, mt isIdentifier_iff.mp bad]
  | unit first good second good' =>
    simp [package first, isIdentifier_iff.mpr good, type second, isIdentifier_iff.mpr good']

end Scan

section Lines

variable {line front back : List Char}

/-- Blanks in front of a line stay in front of its comment. -/
theorem before_front (blank : Blank front) (text : List Char) :
    Text.before ['/', '/'] (front ++ text) = front ++ Text.before ['/', '/'] text := by
  induction front with
  | nil => rfl
  | cons c front ih =>
    obtain ⟨isBlank, blank⟩ := List.forall_mem_cons.mp blank
    have unmarked : ¬ ['/', '/'] <+: c :: (front ++ text) := by
      intro marked
      obtain rfl : '/' = c := (List.cons_prefix_cons.mp marked).1
      exact absurd isBlank (by decide)
    rw [List.cons_append, Text.before_cons unmarked, ih blank]
    rfl

/-- Blanks behind a line are part of its comment, if it has one. -/
theorem before_back (blank : Blank back) (line : List Char) :
    Text.before ['/', '/'] (line ++ back) = Text.before ['/', '/'] line ∨
      Text.before ['/', '/'] (line ++ back) = Text.before ['/', '/'] line ++ back := by
  induction line with
  | nil =>
    have whole := before_front blank []
    rw [List.append_nil, Text.before_nil, List.append_nil] at whole
    exact .inr (by rw [List.nil_append, whole, Text.before_nil, List.nil_append])
  | cons c line ih =>
    by_cases marked : ['/', '/'] <+: c :: line
    · left
      rw [Text.before_of_marked marked, Text.before_of_marked (marked.trans (List.prefix_append _ _))]
    have unmarked : ¬ ['/', '/'] <+: c :: (line ++ back) := by
      intro marked'
      obtain ⟨first, second⟩ := List.cons_prefix_cons.mp marked'
      cases line with
      | nil =>
        -- The second character of the mark would be one of the blanks.
        obtain ⟨rest, rfl⟩ := second
        exact absurd (blank '/' (by simp)) (by decide)
      | cons d line =>
        obtain ⟨second, -⟩ := List.cons_prefix_cons.mp second
        subst first second
        exact marked ⟨line, rfl⟩
    rw [List.cons_append, Text.before_cons unmarked, Text.before_cons marked]
    exact ih.imp (congrArg (c :: ·)) (congrArg (c :: ·))

/-- Blanks around a line do not count. -/
theorem bare_blanks (blank : Blank front) (blank' : Blank back) (line : List Char) :
    bare (front ++ (line ++ back)) = bare line := by
  rw [bare_eq, bare_eq, before_front blank]
  have all : ∀ tail, Blank tail → Text.trim (front ++ (Text.before ['/', '/'] line ++ tail)) =
      Text.trim (Text.before ['/', '/'] line) := by
    intro tail blankTail
    obtain ⟨front', back', whole, blankFront, blankBack, bounded⟩ :=
      Text.trim_spec (Text.before ['/', '/'] line)
    have trimmed := Text.trim_eq (List.forall_mem_append.mpr ⟨blank, blankFront⟩)
      (List.forall_mem_append.mpr ⟨blankBack, blankTail⟩) bounded
    have same : front ++ (Text.before ['/', '/'] line ++ tail) =
        front ++ front' ++ (Text.trim (Text.before ['/', '/'] line) ++ (back' ++ tail)) := by
      conv_lhs => rw [whole]
      simp only [List.append_assoc]
    rw [same]
    exact trimmed
  obtain cut | cut := before_back blank' line
  · rw [cut]
    simpa using all [] (by simp [Blank])
  · rw [cut]
    exact all back blank'

end Lines

section Edits

variable {line : List Char} {lines lines' above below : List (List Char)}

/-- A line on which nothing is found can be left out. -/
theorem scan_without (nothing : packageName? line = none ∧ typeName? line = none)
    (above below : List (List Char)) : scan (above ++ line :: below) = scan (above ++ below) := by
  have findType : ∀ front : List (List Char),
      (front ++ line :: below).findSome? typeName? = (front ++ below).findSome? typeName? := by
    intro front
    rw [List.findSome?_append, List.findSome?_cons, nothing.2, List.findSome?_append]
  have findPackages : ∀ above, findPackage (above ++ line :: below) = findPackage (above ++ below) ∨
      ∃ name front, findPackage (above ++ line :: below) = some (name, front ++ line :: below) ∧
        findPackage (above ++ below) = some (name, front ++ below) := by
    intro above
    induction above with
    | nil => exact .inl (by rw [List.nil_append, findPackage, nothing.1]; rfl)
    | cons first above ih =>
      simp only [List.cons_append, findPackage]
      split
      · rename_i name _
        exact .inr ⟨name, above, rfl, rfl⟩
      · exact ih
  unfold scan
  obtain same | ⟨name, front, found, found'⟩ := findPackages above
  · rw [same]
  · rw [found, found']
    simp only [findType front]

/-- A line keeps its core when its end is dropped. -/
theorem bare_dropLineEnd (body : List Char) :
    bare (Text.dropLineEnd (body ++ ['\n'])) = bare body := by
  rw [Text.dropLineEnd, Text.dropSuffix?_eq_some_iff.mpr rfl]
  cases found : Text.dropSuffix? ['\r'] body with
  | none => simp [found]
  | some body' =>
    obtain rfl := Text.dropSuffix?_eq_some_iff.mp found
    have blank : Blank ['\r'] := List.forall_mem_singleton.mpr (by decide)
    have noBlanks : Blank [] := by simp [Blank]
    have around := bare_blanks noBlanks blank body'
    simpa [found] using around.symm

theorem dropLineEnd_of_unmarked {rest : List Char} (unmarked : '\n' ∉ rest) :
    Text.dropLineEnd rest = rest := by
  rw [Text.dropLineEnd]
  split
  · rfl
  · rename_i body found
    rw [Text.dropSuffix?_eq_some_iff.mp found] at unmarked
    simp at unmarked

/-- Cutting at line feeds gives the lines and then the rest. -/
theorem map_bare_splitOn {pieces : List (List Char)} {rest : List Char}
    (areLines : ∀ line ∈ pieces, Text.IsLine '\n' line) (unmarked : '\n' ∉ rest) :
    ((pieces.flatten ++ rest).splitOn '\n').map bare =
      (pieces.map Text.dropLineEnd).map bare ++ [bare rest] := by
  induction pieces with
  | nil => simp [List.splitOn_eq_singleton unmarked]
  | cons line pieces ih =>
    obtain ⟨⟨body, noMark, rfl⟩, others⟩ := List.forall_mem_cons.mp areLines
    have text : ((body ++ ['\n']) :: pieces).flatten ++ rest =
        body ++ '\n' :: (pieces.flatten ++ rest) := by simp
    rw [text, List.splitOn_append_cons_self, List.splitOn_eq_singleton noMark, List.map_append,
      ih others]
    simp [bare_dropLineEnd]

/-- The scanner reads what stands between the line feeds. It takes no empty line at the end, but on
this nothing would be found. -/
theorem parse_eq_scan_splitOn (text : List Char) :
    parse text = scan ((text.splitOn '\n').map bare) := by
  obtain ⟨pieces, rest, areLines, unmarked, rfl⟩ := Text.exists_lines '\n' text
  rw [parse, Text.lines, Text.terminated_flatten areLines unmarked,
    map_bare_splitOn areLines unmarked]
  cases rest with
  | nil =>
    have nothing : packageName? [] = none ∧ typeName? [] = none := by decide
    have without := scan_without nothing ((pieces.map Text.dropLineEnd).map bare) []
    rw [bare_nil]
    simpa [Text.lastPiece] using without.symm
  | cons c rest => simp [Text.lastPiece, dropLineEnd_of_unmarked unmarked]

theorem Edit.scan (edit : Edit lines lines') :
    scan (lines.map bare) = scan (lines'.map bare) := by
  cases edit with
  | idle idle above below =>
    rw [List.map_append, List.map_append, List.map_cons, scan_without (idle_iff.mp idle)]
  | blanks blank blank' line above below =>
    rw [List.map_append, List.map_append, List.map_cons, List.map_cons, bare_blanks blank blank']
  | comment cut cut' above below =>
    have notEmpty : ['/', '/'] ≠ [] := by decide
    have same := ((Text.before_eq_iff notEmpty).mpr cut).trans
      ((Text.before_eq_iff notEmpty).mpr cut').symm
    rw [List.map_append, List.map_append, List.map_cons, List.map_cons, bare_eq, bare_eq, same]

theorem scan_of_edits (edits : Relation.EqvGen Edit lines lines') :
    scan (lines.map bare) = scan (lines'.map bare) := by
  induction edits with
  | rel lines lines' edit => exact edit.scan
  | refl lines => rfl
  | symm lines lines' _ ih => exact ih.symm
  | trans lines between lines' _ _ ih ih' => exact ih.trans ih'

/-- A line that says nothing is idle. -/
theorem idle_of_bare (nothing : bare line = []) : Idle line := by
  rw [idle_iff, nothing]
  decide

end Edits

/-- The scanner gives of every text the answer of the grammar. Edits that are none of declarations
never change it; lines that are blank or comments alone are idle. -/
theorem parse_iff_declares :
    (∀ text result, parse text = result ↔ Declares (text.splitOn '\n') result) ∧
      (∀ text text' : List Char,
        Relation.EqvGen Edit (text.splitOn '\n') (text'.splitOn '\n') → parse text = parse text') ∧
      ∀ blanks comment, Blank blanks → Idle blanks ∧ Idle (blanks ++ '/' :: '/' :: comment) := by
  have noBlanks : Blank [] := by simp [Blank]
  refine ⟨fun text result => ⟨?_, fun declares => ?_⟩, fun text text' edits => ?_,
    fun blanks comment blank => ⟨?_, ?_⟩⟩
  · rintro rfl
    obtain ⟨result, declares⟩ := exists_declares (text.splitOn '\n')
    rwa [parse_eq_scan_splitOn, scan_of_declares declares]
  · rw [parse_eq_scan_splitOn, scan_of_declares declares]
  · rw [parse_eq_scan_splitOn, parse_eq_scan_splitOn, scan_of_edits edits]
  · have around := bare_blanks blank noBlanks []
    rw [List.append_nil, List.append_nil, bare_nil] at around
    exact idle_of_bare around
  · have comments : ['/', '/'] <+: '/' :: '/' :: comment := ⟨comment, rfl⟩
    have around := bare_blanks blank noBlanks ('/' :: '/' :: comment)
    rw [List.append_nil, bare_eq ('/' :: '/' :: comment), Text.before_of_marked comments] at around
    exact idle_of_bare around

/-- A comment above, an indented line and a carriage return more. -/
theorem parse_iff_declares_rehearsed :
    parse "// T\n\tpub mod a \x7b\r\npub struct B;".toList =
      parse "pub mod a \x7b\npub struct B;".toList := by
  have noBlanks : Blank [] := by simp [Blank]
  have tab : Blank ['\t'] := List.forall_mem_singleton.mpr (by decide)
  have return' : Blank ['\r'] := List.forall_mem_singleton.mpr (by decide)
  have comment := (parse_iff_declares.2.2 [] " T".toList noBlanks).2
  have indented := Edit.blanks tab return' "pub mod a \x7b".toList [] ["pub struct B;".toList]
  have commented := Edit.idle comment [] ["\tpub mod a \x7b\r".toList, "pub struct B;".toList]
  have edits := Relation.EqvGen.trans _ _ _ (.rel _ _ indented) (.rel _ _ commented)
  refine (parse_iff_declares.2.1 _ _ ?_).symm
  have above : "// T\n\tpub mod a \x7b\r\npub struct B;".toList.splitOn '\n' =
      ["// T".toList, "\tpub mod a \x7b\r".toList, "pub struct B;".toList] := by decide
  have below : "pub mod a \x7b\npub struct B;".toList.splitOn '\n' =
      ["pub mod a \x7b".toList, "pub struct B;".toList] := by decide
  rw [above, below]
  exact edits

end SimWorkbench.SourceUnit
