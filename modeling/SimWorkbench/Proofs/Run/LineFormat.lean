import SimWorkbench.Proofs.Text.Fields
import SimWorkbench.Run.Event

/-!
# The line format of events

Which lines say which event, told by how they are put together: the content of a line is the line
without its ends; a directive has its keyword between the at sign and the first space. Every line
says one thing, and reading it finds out which. An event is meant by the line that renders it just
if some line says it at all.
-/
namespace SimWorkbench.Event

open Text

/-! ### The grammar of a line -/

/-- Whether a content is a directive with this keyword, up to the first space, and this rest. -/
inductive Directive : List Char → List Char → List Char → Prop
  | alone {keyword} (noSpace : ' ' ∉ keyword) : Directive ('@' :: keyword) keyword []
  | spaced {keyword rest} (noSpace : ' ' ∉ keyword) :
    Directive ('@' :: (keyword ++ ' ' :: rest)) keyword rest

/-- The keywords of the events. -/
def keywords : List (List Char) :=
  ["property".toList, "report".toList, "fault".toList, "done".toList]

/-- Whether a content is output: it is no directive, its keyword is unknown, or it says more than
that the run is done. -/
inductive Ordinary (content : List Char) : Prop
  | plain (noMark : content.head? ≠ some '@')
  | unknown {keyword rest : List Char} (directive : Directive content keyword rest)
    (notKeyword : keyword ∉ keywords)
  | undone {rest : List Char} (directive : Directive content "done".toList rest)
    (more : ¬ Blank rest)

/-- Whether a content is a directive with arguments that its keyword does not take: a property event
without exactly three words, or a report without a path. -/
inductive Malformed (content : List Char) : MalformedEvent → Prop
  | property {rest : List Char} (directive : Directive content "property".toList rest)
    (notThree : ¬ ∃ name old new, Words rest [name, old, new]) :
    Malformed content (.property (String.ofList content))
  | report {rest : List Char} (directive : Directive content "report".toList rest)
    (noPath : Blank rest) : Malformed content .report

/-- What a content says. -/
inductive Means (content : List Char) : Except MalformedEvent Event → Prop
  | property {rest name old new : List Char} (directive : Directive content "property".toList rest)
    (three : Words rest [name, old, new]) :
    Means content (.ok (.property ⟨String.ofList name, String.ofList old, String.ofList new⟩))
  | report {rest path : List Char} (directive : Directive content "report".toList rest)
    (trimmed : Trimmed rest path) (notEmpty : path ≠ []) :
    Means content (.ok (.report ⟨String.ofList path⟩))
  | fault {rest message : List Char} (directive : Directive content "fault".toList rest)
    (trimmed : Trimmed rest message) : Means content (.ok (.fault (String.ofList message)))
  | done {rest : List Char} (directive : Directive content "done".toList rest)
    (nothing : Blank rest) : Means content (.ok .done)
  | output (ordinary : Ordinary content) : Means content (.ok (.output (String.ofList content)))
  | malformed {failure : MalformedEvent} (malformed : Malformed content failure) :
    Means content (.error failure)

variable {content word word' rest rest' : List Char} {result : Except MalformedEvent Event}
  {failure : MalformedEvent} {line : List Char} {e : Event}

/-! ### Keywords -/

theorem keyword_of_directive {directive : List Char} (is : Directive ('@' :: directive) word rest) :
    keyword directive = (word, rest) := by
  cases is with
  | alone noSpace => rw [keyword, splitAt?_of_unmarked noSpace, Option.getD_none]
  | spaced noSpace => rw [keyword, splitAt?_of_mark noSpace, Option.getD_some]

theorem exists_directive (directive : List Char) :
    ∃ word rest, Directive ('@' :: directive) word rest := by
  by_cases space : ' ' ∈ directive
  · obtain ⟨word, rest, split, noSpace⟩ := List.eq_append_cons_of_mem space
    exact ⟨word, rest, split ▸ .spaced noSpace⟩
  · exact ⟨directive, [], .alone space⟩

/-- Whether a content is a directive is told by its first character. -/
theorem Directive.mark (directive : Directive content word rest) :
    ∃ tail, content = '@' :: tail ∧ keyword tail = (word, rest) := by
  cases directive with
  | alone noSpace => exact ⟨_, rfl, keyword_of_directive (.alone noSpace)⟩
  | spaced noSpace => exact ⟨_, rfl, keyword_of_directive (.spaced noSpace)⟩

/-! ### Reading finds what a line says -/

/-- Every content says something. -/
theorem exists_means (content : List Char) : ∃ result, Means content result := by
  cases content with
  | nil => exact ⟨_, .output (.plain (by simp))⟩
  | cons c tail =>
    by_cases isMark : c = '@'
    · subst isMark
      obtain ⟨word, rest, directive⟩ := exists_directive tail
      have trimmed : Trimmed rest (trim rest) := trim_eq_iff.mp rfl
      by_cases known : word ∈ keywords
      · simp only [keywords, List.mem_cons, List.not_mem_nil, or_false] at known
        rcases known with rfl | rfl | rfl | rfl
        · by_cases three : ∃ name old new, Words rest [name, old, new]
          · obtain ⟨name, old, new, three⟩ := three
            exact ⟨_, .property directive three⟩
          · exact ⟨_, .malformed (.property directive three)⟩
        · by_cases noPath : Blank rest
          · exact ⟨_, .malformed (.report directive noPath)⟩
          · exact ⟨_, .report directive trimmed (trimmed.empty_iff.not.mpr noPath)⟩
        · exact ⟨_, .fault directive trimmed⟩
        · by_cases nothing : Blank rest
          · exact ⟨_, .done directive nothing⟩
          · exact ⟨_, .output (.undone directive nothing)⟩
      · exact ⟨_, .output (.unknown directive known)⟩
    · exact ⟨_, .output (.plain (by simpa using isMark))⟩

theorem change?_eq_some {name old new : List Char} (three : Words rest [name, old, new]) :
    change? rest = some ⟨String.ofList name, String.ofList old, String.ofList new⟩ := by
  rw [change?, three.words_eq]

theorem change?_eq_none (notThree : ¬ ∃ name old new, Words rest [name, old, new]) :
    change? rest = none := by
  unfold change?
  split
  · rename_i name old new three
    exact absurd ⟨name, old, new, words_eq_iff.mp three⟩ notThree
  · rfl

/-- A line is read for what its content says. -/
theorem parse_of_means (meant : Means (dropLineEnds line) result) : parse line = result := by
  unfold parse
  generalize dropLineEnds line = content at meant
  cases meant with
  | property directive three =>
    obtain ⟨tail, rfl, isKeyword⟩ := directive.mark
    simp only [isKeyword, if_true, change?_eq_some three]
  | report directive trimmed notEmpty =>
    obtain ⟨tail, rfl, isKeyword⟩ := directive.mark
    have isPath : isAllBlank _ ≠ true := fun all =>
      notEmpty (trimmed.empty_iff.mpr (isAllBlank_iff.mp all))
    simp only [isKeyword, if_true, if_neg isPath, trim_eq_iff.mpr trimmed]
    rfl
  | fault directive trimmed =>
    obtain ⟨tail, rfl, isKeyword⟩ := directive.mark
    simp only [isKeyword, trim_eq_iff.mpr trimmed]
    rfl
  | done directive nothing =>
    obtain ⟨tail, rfl, isKeyword⟩ := directive.mark
    simp only [isKeyword, isAllBlank_iff.mpr nothing]
    rfl
  | output ordinary =>
    cases ordinary with
    | plain noMark =>
      dsimp only
      split
      · exact absurd rfl noMark
      · rfl
    | unknown directive notKeyword =>
      obtain ⟨tail, rfl, isKeyword⟩ := directive.mark
      simp only [keywords, List.mem_cons, List.not_mem_nil, or_false, not_or] at notKeyword
      obtain ⟨notProperty, notReport, notFault, notDone⟩ := notKeyword
      simp only [isKeyword, if_neg notProperty, if_neg notReport, if_neg notFault, notDone,
        decide_false, Bool.false_and, Bool.false_eq_true, if_false]
    | undone directive more =>
      obtain ⟨tail, rfl, isKeyword⟩ := directive.mark
      have notAll : isAllBlank _ = false := Bool.eq_false_iff.mpr (isAllBlank_iff.not.mpr more)
      simp only [isKeyword, notAll]
      rfl
  | malformed malformed =>
    cases malformed with
    | property directive notThree =>
      obtain ⟨tail, rfl, isKeyword⟩ := directive.mark
      simp only [isKeyword, if_true, change?_eq_none notThree]
    | report directive noPath =>
      obtain ⟨tail, rfl, isKeyword⟩ := directive.mark
      simp only [isKeyword, isAllBlank_iff.mpr noPath]
      rfl

/-- A line is read as what its content says, and as nothing else. -/
theorem parse_eq_iff (isContent : Content line content) :
    parse line = result ↔ Means content result := by
  obtain rfl := dropLineEnds_eq_iff.mpr isContent
  refine ⟨?_, parse_of_means⟩
  rintro rfl
  obtain ⟨result, meant⟩ := exists_means (dropLineEnds line)
  rwa [parse_of_means meant]

theorem means_error_iff : Means content (.error failure) ↔ Malformed content failure :=
  ⟨fun | .malformed malformed => malformed, .malformed⟩

theorem means_output_iff {text : String} :
    Means content (.ok (.output text)) ↔ text = String.ofList content ∧ Ordinary content :=
  ⟨fun | .output ordinary => ⟨rfl, ordinary⟩, fun ⟨same, ordinary⟩ => same ▸ .output ordinary⟩

/-! ### Rendering -/

/-- Whether an event can be told by a line. -/
def Tellable : Event → Prop
  | .property c => IsWord c.name.toList ∧ IsWord c.old.toList ∧ IsWord c.new.toList
  | .report path => path.text ≠ "" ∧ Bounded path.text.toList
  | .fault message => Bounded message.toList
  | .done => True
  | .output text => Ordinary text.toList ∧ ∀ c ∈ text.toList.getLast?, ¬ IsLineEnd c

/-- An event that a content says can be told. -/
theorem tellable_of_means (isContent : Content line content) (meant : Means content (.ok e)) :
    Tellable e := by
  cases meant with
  | property directive three =>
    have areWords := three.isWord
    simp only [List.mem_cons, List.not_mem_nil, or_false, forall_eq_or_imp, forall_eq] at areWords
    simpa only [Tellable, String.toList_ofList] using areWords
  | report directive trimmed notEmpty =>
    exact ⟨by simpa using notEmpty, by simpa only [String.toList_ofList] using trimmed.1⟩
  | fault directive trimmed => simpa only [Tellable, String.toList_ofList] using trimmed.1
  | done directive nothing => trivial
  | output ordinary =>
    simpa only [Tellable, String.toList_ofList] using ⟨ordinary, isContent.last⟩

/-- A keyword and a text without blanks at its ends make a directive that is all content. -/
theorem directive_of_bounded (noSpace : ' ' ∉ word) (bounded : Bounded rest) :
    Content ('@' :: (word ++ ' ' :: rest)) ('@' :: (word ++ ' ' :: rest)) ∧
      Directive ('@' :: (word ++ ' ' :: rest)) word rest := by
  refine ⟨content_self fun c last => ?_, .spaced noSpace⟩
  rw [← List.cons_append, List.getLast?_append_of_ne_nil _ (List.cons_ne_nil _ _)] at last
  cases rest with
  | nil =>
    obtain rfl : ' ' = c := by simpa using last
    rintro (isEnd | isEnd) <;> exact absurd isEnd (by decide)
  | cons d rest => exact bounded.not_lineEnd c (by simpa using last)

/-- The rendering of an event that can be told says it. -/
theorem means_render (tellable : Tellable e) :
    Content (render e).toList (render e).toList ∧ Means (render e).toList (.ok e) := by
  cases e with
  | property c =>
    obtain ⟨name, old, new⟩ := tellable
    have line : (render (.property c)).toList = '@' :: ("property".toList ++
        ' ' :: (c.name.toList ++ ((' ' :: (c.old.toList ++ [' '])) ++ c.new.toList))) := by
      simp [render]
    have three : Words (c.name.toList ++ ((' ' :: (c.old.toList ++ [' '])) ++ c.new.toList))
        [c.name.toList, c.old.toList, c.new.toList] := by
      simpa using Words.spaced name (Words.spaced old (Words.single new))
    obtain ⟨isContent, directive⟩ := directive_of_bounded (show ' ' ∉ "property".toList by decide)
      (name.bounded_append new (' ' :: (c.old.toList ++ [' '])))
    rw [line]
    have meant := Means.property directive three
    simp only [String.ofList_toList] at meant
    exact ⟨isContent, meant⟩
  | report path =>
    obtain ⟨notEmpty, bounded⟩ := tellable
    have line : (render (.report path)).toList =
        '@' :: ("report".toList ++ ' ' :: path.text.toList) := by
      simp [render]
    obtain ⟨isContent, directive⟩ :=
      directive_of_bounded (show ' ' ∉ "report".toList by decide) bounded
    rw [line]
    have meant := Means.report directive bounded.trimmed (by simpa using notEmpty)
    rw [String.ofList_toList] at meant
    exact ⟨isContent, meant⟩
  | fault message =>
    have bounded : Bounded message.toList := tellable
    have line : (render (.fault message)).toList =
        '@' :: ("fault".toList ++ ' ' :: message.toList) := by
      simp [render]
    obtain ⟨isContent, directive⟩ :=
      directive_of_bounded (show ' ' ∉ "fault".toList by decide) bounded
    rw [line]
    have meant := Means.fault directive bounded.trimmed
    rw [String.ofList_toList] at meant
    exact ⟨isContent, meant⟩
  | done =>
    have directive : Directive (render .done).toList "done".toList [] := .alone (by decide)
    have last : ∀ c ∈ (render .done).toList.getLast?, ¬ IsLineEnd c := by
      rintro c isLast (rfl | rfl) <;> exact absurd isLast (by decide)
    exact ⟨content_self last, .done directive (by simp [Blank])⟩
  | output text =>
    obtain ⟨ordinary, last⟩ := tellable
    have meant := Means.output ordinary
    rw [String.ofList_toList] at meant
    exact ⟨content_self last, meant⟩

/-- An event is read from its rendering just if it can be told. -/
theorem parse_render_iff : parse (render e).toList = .ok e ↔ Tellable e := by
  constructor
  · intro read
    have isContent := content_dropLineEnds (render e).toList
    exact tellable_of_means isContent ((parse_eq_iff isContent).mp read)
  · intro tellable
    obtain ⟨isContent, meant⟩ := means_render tellable
    exact (parse_eq_iff isContent).mpr meant

/-- Reading and rendering agree. An event that is read from a line is read again from its rendering,
and the events that are read from their renderings are those that can be told: a property of three
words, a report with a path and a fault without blanks at their ends, the end of a run, and a text
without line ends at its end that is not taken for another event. A line fails just as a property
event without exactly three words or as a report without a path. It is output, with all of its
content, just if it is no directive, has an unknown keyword, or says more than that the run is done.
-/
theorem line_format :
    (∀ line e, parse line = .ok e → parse (render e).toList = .ok e) ∧
      (∀ e, parse (render e).toList = .ok e ↔ Tellable e) ∧
      ∀ line, ∃ content, Content line content ∧
        (∀ failure, parse line = .error failure ↔ Malformed content failure) ∧
        ∀ text, parse line = .ok (.output text) ↔
          text = String.ofList content ∧ Ordinary content := by
  refine ⟨fun line e read => ?_, fun e => parse_render_iff, fun line => ?_⟩
  · have isContent := content_dropLineEnds line
    exact parse_render_iff.mpr (tellable_of_means isContent ((parse_eq_iff isContent).mp read))
  · have isContent := content_dropLineEnds line
    exact ⟨_, isContent, fun failure => (parse_eq_iff isContent).trans means_error_iff,
      fun text => (parse_eq_iff isContent).trans means_output_iff⟩

end SimWorkbench.Event
