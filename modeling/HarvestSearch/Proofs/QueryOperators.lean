/-
Which operators the expression of a text holds.

The query language of the engine has marks, characters with a meaning of their own, and three words,
`AND`, `OR` and `NOT`, that are operators when they are written in capitals. The expression of a
text (`gleaner_search::query::query_string_text`) is written with some of both: brackets around two
copies of the normalized text, an `OR` between them and a star behind the second. `tokens` takes an
expression apart as the engine does, at white space and at marks, and `operators` keeps what is no
plain word.

A text adds no marks to these, because no mark is a letter or a number (`not_isWordChar_of_mark`).
It can add operator words: normalizing deletes characters and not words, so a word is one of the
three when it was typed so or when its letters and numbers spell it. `tokens_expression` says what
an expression consists of and `expression_operators` draws the line.
-/
import HarvestSearch.Proofs.NormalizedText

set_option autoImplicit false

namespace HarvestSearch.QueryText

open Text

/-! ## The query language -/

/-- The characters that the query language gives a meaning. -/
def marks : List Char :=
  ['+', '-', '=', '&', '|', '>', '<', '!', '(', ')', '{', '}', '[', ']', '^', '"', '~', '*',
    '?', ':', '\\', '/']

/-- The words that the query language gives a meaning. -/
def operatorWords : List (List Char) := [['A', 'N', 'D'], ['O', 'R'], ['N', 'O', 'T']]

/-- The text with white space around every mark. -/
def setApart (cs : List Char) : List Char :=
  cs.flatMap fun c => if c ∈ marks then [' ', c, ' '] else [c]

/-- The parts of an expression: its marks, and the words between marks and white space. -/
def tokens (cs : List Char) : List (List Char) := words (setApart cs)

/-- The part is a mark or an operator word. -/
def isOperator (token : List Char) : Bool := token ∈ operatorWords || token ∈ marks.map fun c => [c]

/-- The operators of an expression, in order. -/
def operators (cs : List Char) : List (List Char) := (tokens cs).filter isOperator

/-! ## Taking an expression apart -/

theorem setApart_append (x y : List Char) : setApart (x ++ y) = setApart x ++ setApart y :=
  List.flatMap_append

theorem setApart_cons_of_mark {c : Char} (hc : c ∈ marks) (y : List Char) :
    setApart (c :: y) = ' ' :: c :: ' ' :: setApart y := by
  unfold setApart
  rw [List.flatMap_cons, if_pos hc]
  rfl

theorem setApart_of_forall_not {cs : List Char} (h : ∀ c ∈ cs, c ∉ marks) : setApart cs = cs := by
  induction cs with
  | nil => rfl
  | cons c cs ih =>
    have hrest : setApart cs = cs := ih fun d hd => h d (List.mem_cons_of_mem c hd)
    unfold setApart at hrest ⊢
    rw [List.flatMap_cons, if_neg (h c List.mem_cons_self), hrest]
    rfl

theorem isWhiteSpace_of_mark {c : Char} (hc : c ∈ marks) : isWhiteSpace c = false := by
  have hall : marks.all (fun mark => !isWhiteSpace mark) = true := by decide
  simpa using List.all_eq_true.1 hall c hc

/-- A mark is a part of its own wherever it stands. -/
theorem tokens_append_mark {c : Char} (hc : c ∈ marks) (x y : List Char) :
    tokens (x ++ c :: y) = tokens x ++ [c] :: tokens y := by
  have hmark : words [c] = [[c]] := by
    refine words_of_forall_not (List.cons_ne_nil c []) fun d hd => ?_
    rw [List.mem_singleton.1 hd]
    exact isWhiteSpace_of_mark hc
  unfold tokens
  rw [setApart_append, setApart_cons_of_mark hc, words_append_blank isWhiteSpace_space,
    ← List.singleton_append, words_append_blank isWhiteSpace_space, hmark]
  rfl

theorem tokens_append_space (x y : List Char) : tokens (x ++ ' ' :: y) = tokens x ++ tokens y := by
  have hspace : setApart (' ' :: y) = ' ' :: setApart y := by
    unfold setApart
    rw [List.flatMap_cons, if_neg (by decide)]
    rfl
  unfold tokens
  rw [setApart_append, hspace, words_append_blank isWhiteSpace_space]

theorem tokens_append_or (x y : List Char) :
    tokens (x ++ ' ' :: 'O' :: 'R' :: ' ' :: y) = tokens x ++ ['O', 'R'] :: tokens y := by
  have hor : tokens ['O', 'R'] = [['O', 'R']] := by decide
  have hback : tokens ('O' :: 'R' :: ' ' :: y) = tokens ['O', 'R'] ++ tokens y :=
    tokens_append_space ['O', 'R'] y
  rw [tokens_append_space, hback, hor]
  rfl

/-- Marks are neither letters nor numbers. -/
theorem not_isWordChar_of_mark {c : Char} (hc : c ∈ marks) : isWordChar c = false := by
  have hall : marks.all (fun mark => !isWordChar mark) = true := by decide +kernel
  simpa using List.all_eq_true.1 hall c hc

/-! ## The expression of a text -/

variable {cs : List Char}

/-- Normalized text holds no mark: it consists of letters, numbers and spaces. -/
theorem not_mark_of_mem_normalizeList : ∀ c ∈ normalizeList cs, c ∉ marks := by
  intro c hc hmark
  rw [normalizeList_eq] at hc
  rcases mem_joinWords hc with rfl | ⟨w, hw, hcw⟩
  · exact absurd hmark (by decide)
  · have hword : isWordChar c = true := ((of_mem_keptWords hw).2 c hcw).1
    rw [not_isWordChar_of_mark hmark] at hword
    exact absurd hword Bool.noConfusion

/-- The words of normalized text are the kept words. -/
theorem words_normalizeList (cs : List Char) : words (normalizeList cs) = keptWords cs := by
  rw [normalizeList_eq]
  exact words_joinWords fun w hw =>
    ⟨(of_mem_keptWords hw).1, fun c hc => ((of_mem_keptWords hw).2 c hc).2⟩

theorem tokens_normalizeList (cs : List Char) : tokens (normalizeList cs) = keptWords cs := by
  unfold tokens
  rw [setApart_of_forall_not not_mark_of_mem_normalizeList, words_normalizeList]

theorem normalizeList_eq_nil_iff : normalizeList cs = [] ↔ keptWords cs = [] := by
  constructor
  · intro h
    rw [← words_normalizeList, h, words_nil]
  · intro h
    rw [normalizeList_eq, h]
    rfl

/-- The expression that the builder writes for normalized text, behind its opening bracket. -/
def afterBracket (normalized : List Char) : List Char :=
  normalized ++ ' ' :: 'O' :: 'R' :: ' ' :: (normalized ++ ['*', ')'])

/-- **What an expression consists of**: what the builder writes, and the kept words twice. -/
theorem tokens_expression (cs : List Char) :
    tokens ('(' :: afterBracket (normalizeList cs))
      = ['('] :: (keptWords cs ++ ['O', 'R'] :: (keptWords cs ++ [['*'], [')']])) := by
  have hnil : tokens [] = [] := words_nil
  have hclosing : tokens [')'] = [[')']] := by decide
  have hsecond : tokens (normalizeList cs ++ ['*', ')']) = keptWords cs ++ [['*'], [')']] := by
    rw [tokens_append_mark (by decide), tokens_normalizeList, hclosing]
  have hboth : tokens (afterBracket (normalizeList cs))
      = keptWords cs ++ ['O', 'R'] :: (keptWords cs ++ [['*'], [')']]) := by
    rw [afterBracket, tokens_append_or, tokens_normalizeList, hsecond]
  have hopening := tokens_append_mark (show '(' ∈ marks by decide) []
    (afterBracket (normalizeList cs))
  rwa [hnil, hboth] at hopening

/-- A kept word is an operator exactly if it is one of the three words. -/
theorem isOperator_of_mem_keptWords {w : List Char} (hw : w ∈ keptWords cs) :
    isOperator w = decide (w ∈ operatorWords) := by
  have hno : w ∉ marks.map fun c => [c] := by
    intro h
    obtain ⟨c, hc, rfl⟩ := List.mem_map.1 h
    have hword : isWordChar c = true := ((of_mem_keptWords hw).2 c List.mem_cons_self).1
    rw [not_isWordChar_of_mark hc] at hword
    exact absurd hword Bool.noConfusion
  unfold isOperator
  rw [decide_eq_false hno, Bool.or_false]

/-- The operator words among the kept words of a text. -/
def keptOperators (cs : List Char) : List (List Char) := (keptWords cs).filter (· ∈ operatorWords)

theorem keptWords_forall_iff :
    (∀ w ∈ keptWords cs, w ∉ operatorWords) ↔ keptOperators cs = [] := by
  unfold keptOperators
  rw [List.filter_eq_nil_iff]
  exact forall₂_congr fun w _ => not_congr decide_eq_true_iff.symm

/-- There are none exactly if the letters and numbers of no word of the text spell one. -/
theorem keptOperators_eq_nil_iff :
    keptOperators cs = [] ↔ ∀ w ∈ words cs, w.filter isWordChar ∉ operatorWords := by
  unfold keptOperators keptWords
  rw [List.filter_filter, List.filter_eq_nil_iff, List.forall_mem_map]
  refine forall₂_congr fun w _ => ?_
  have hne : w.filter isWordChar ∈ operatorWords → w.filter isWordChar ≠ [] := by
    intro h hnil
    rw [hnil] at h
    exact absurd h (by decide)
  constructor
  · intro h hmem
    have hkept : (w.filter isWordChar).isEmpty = false := List.isEmpty_eq_false_iff.2 (hne hmem)
    refine h ?_
    rw [hkept, decide_eq_true hmem]
    rfl
  · intro h hmem
    exact h (of_decide_eq_true (Bool.and_eq_true_iff.1 hmem).1)

/-- The operators of an expression are those the builder writes, and the kept ones twice. -/
theorem operators_expression (cs : List Char) :
    operators ('(' :: afterBracket (normalizeList cs))
      = ['('] :: (keptOperators cs ++ ['O', 'R'] :: (keptOperators cs ++ [['*'], [')']])) := by
  have hkept : (keptWords cs).filter isOperator = keptOperators cs :=
    List.filter_congr fun w hw => isOperator_of_mem_keptWords hw
  have hopening : isOperator ['('] = true := by decide
  have hor : isOperator ['O', 'R'] = true := by decide
  have hclosing : [['*'], [')']].filter isOperator = [['*'], [')']] := by decide
  unfold operators
  rw [tokens_expression, List.filter_cons_of_pos hopening, List.filter_append, hkept,
    List.filter_cons_of_pos hor, List.filter_append, hkept, hclosing]

/-! ## The main statement -/

theorem toList_normalize (text : String) : (normalize text).toList = normalizeList text.toList :=
  String.toList_ofList

theorem isEmpty_normalize_iff (text : String) :
    (normalize text).isEmpty = true ↔ keptWords text.toList = [] := by
  rw [String.isEmpty_iff, ← String.toList_inj, toList_normalize]
  exact normalizeList_eq_nil_iff

/-- A text without kept words asks for everything. -/
theorem expression_of_keptWords_nil {text : String} (h : keptWords text.toList = []) :
    expression text = matchAll := if_pos ((isEmpty_normalize_iff text).2 h)

theorem expression_of_keptWords {text : String} (h : keptWords text.toList ≠ []) :
    expression text = "(" ++ normalize text ++ " OR " ++ normalize text ++ "*)" :=
  if_neg fun hempty => h ((isEmpty_normalize_iff text).1 hempty)

theorem toList_expression (text : String) :
    ("(" ++ normalize text ++ " OR " ++ normalize text ++ "*)").toList
      = '(' :: afterBracket (normalizeList text.toList) := by
  simp only [String.toList_append, toList_normalize]
  simp [afterBracket]

/-- **Operator words are the only operators that a text can add.** Normalized text holds no mark,
and its words are the kept words of the text. A text of which no word is kept is the expression that
matches everything; the expression of any other has the operators that the builder writes, one
bracket at each end, one `OR` and one star, and the operator words among the kept words, twice. So
it has no others exactly if none of the kept words is an operator word, which is to say that the
letters and numbers of no word of the text spell one. -/
theorem expression_operators (text : String) :
    let n := normalize text
    let kept := keptOperators text.toList
    (∀ c ∈ n.toList, c ∉ marks) ∧
    words n.toList = keptWords text.toList ∧
    ((∀ w ∈ words n.toList, w ∉ operatorWords) ↔
      ∀ w ∈ words text.toList, w.filter isWordChar ∉ operatorWords) ∧
    (keptWords text.toList = [] → expression text = matchAll) ∧
    (keptWords text.toList ≠ [] →
      expression text = "(" ++ n ++ " OR " ++ n ++ "*)" ∧
      operators (expression text).toList
        = ['('] :: (kept ++ ['O', 'R'] :: (kept ++ [['*'], [')']])) ∧
      (operators (expression text).toList = [['('], ['O', 'R'], ['*'], [')']] ↔
        ∀ w ∈ words n.toList, w ∉ operatorWords)) := by
  intro n kept
  have hn : n.toList = normalizeList text.toList := toList_normalize text
  have hnone : (∀ w ∈ words n.toList, w ∉ operatorWords) ↔ kept = [] := by
    rw [hn, words_normalizeList]
    exact keptWords_forall_iff
  refine ⟨?_, ?_, hnone.trans keptOperators_eq_nil_iff, fun hkept => ?_, fun hkept => ?_⟩
  · rw [hn]
    exact not_mark_of_mem_normalizeList
  · rw [hn, words_normalizeList]
  · exact expression_of_keptWords_nil hkept
  · have hoperators : operators (expression text).toList
        = ['('] :: (kept ++ ['O', 'R'] :: (kept ++ [['*'], [')']])) := by
      rw [expression_of_keptWords hkept, toList_expression]
      exact operators_expression text.toList
    refine ⟨expression_of_keptWords hkept, hoperators, ?_⟩
    rw [hoperators, hnone]
    constructor
    · intro h
      -- the builder writes four operators, so there is no room for kept ones
      have hlength := congrArg List.length h
      simp only [List.length_cons, List.length_append, List.length_nil] at hlength
      exact List.length_eq_zero_iff.1 (by omega)
    · intro h
      rw [h]
      rfl

/-- An `OR` that is typed is an operator of the expression, in both copies of the text; a `NOT`
comes about where the marks between its letters are deleted. -/
theorem operators_of_typed_or :
    expression "salt OR pepper" = "(salt OR pepper OR salt OR pepper*)" ∧
    operators (expression "salt OR pepper").toList
      = [['('], ['O', 'R'], ['O', 'R'], ['O', 'R'], ['*'], [')']] ∧
    ['N', 'O', 'T'] ∈ words (normalize "N.O.T here").toList := by
  have hor : keptWords "salt OR pepper".toList
      = [['s', 'a', 'l', 't'], ['O', 'R'], ['p', 'e', 'p', 'p', 'e', 'r']] := by decide +kernel
  have hnot : keptWords "N.O.T here".toList = [['N', 'O', 'T'], ['h', 'e', 'r', 'e']] := by
    decide +kernel
  obtain ⟨-, -, -, -, hkept⟩ := expression_operators "salt OR pepper"
  obtain ⟨hexpression, hoperators, -⟩ := hkept (by rw [hor]; exact List.cons_ne_nil _ _)
  obtain ⟨-, hwords, -⟩ := expression_operators "N.O.T here"
  have hnormalized : normalize "salt OR pepper" = "salt OR pepper" := by
    rw [← String.toList_inj, toList_normalize, normalizeList_eq, hor]
    decide
  have hoperatorWords : keptOperators "salt OR pepper".toList = [['O', 'R']] := by
    unfold keptOperators
    rw [hor]
    decide
  refine ⟨?_, ?_, ?_⟩
  · rw [hexpression, hnormalized]
    decide
  · rw [hoperators, hoperatorWords]
    rfl
  · rw [hwords, hnot]
    exact List.mem_cons_self

end HarvestSearch.QueryText
