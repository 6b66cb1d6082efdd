/-
What normalizing leaves of a text: its words.

Normalizing (`gleaner_search::query::normalize_text`) deletes characters, trims, and makes every run
of white space one space, in this order. What comes out can be said without these steps. The words
of a text are its longest pieces without white space; of each of them the letters and numbers are
kept, a word of which nothing is kept drops out, and one space stands between any two that are left
(`QueryText.normalizeList_eq`).

`Text.words` cuts a text with `List.splitOnP`, and nearly all that is needed of it follows from one
equation, `words_append_blank`: a text falls into its words at any white space. Deleting characters
joins no two words, because white space is not deleted (`words_keepWords`), but it can shorten a
word to another one: this is how words come about that were not typed.
-/
import HarvestSearch.QueryText
import Mathlib.Data.List.TakeWhile

set_option autoImplicit false

namespace HarvestSearch

/-! ## Words -/

namespace Text

/-- The words of a text: its longest pieces without white space. -/
def words (cs : List Char) : List (List Char) :=
  (cs.splitOnP isWhiteSpace).filter fun w => !w.isEmpty

/-- Words with one space between any two of them. -/
def joinWords (ws : List (List Char)) : List Char := [' '].intercalate ws

theorem isWhiteSpace_space : isWhiteSpace ' ' = true := by decide

@[simp] theorem words_nil : words [] = [] := by
  unfold words
  rw [List.splitOnP_nil]
  rfl

/-- **A text falls into its words at any white space.** -/
theorem words_append_blank {c : Char} (hc : isWhiteSpace c = true) (x y : List Char) :
    words (x ++ c :: y) = words x ++ words y := by
  unfold words
  rw [List.splitOnP_append_cons x y hc, List.filter_append]

theorem words_cons_blank {c : Char} (hc : isWhiteSpace c = true) (y : List Char) :
    words (c :: y) = words y := by
  have h := words_append_blank hc [] y
  rwa [List.nil_append, words_nil, List.nil_append] at h

/-- A text without white space is one word, unless it is empty. -/
theorem words_of_forall_not {w : List Char} (hne : w ≠ []) (hw : ∀ c ∈ w, isWhiteSpace c = false) :
    words w = [w] := by
  unfold words
  have hkeep : (!w.isEmpty) = true := by simpa using hne
  rw [List.splitOnP_eq_singleton hw]
  exact List.filter_cons_of_pos hkeep

/-- No piece of a text holds what the text was cut at. -/
theorem not_of_mem_splitOnP {cs w : List Char} (hw : w ∈ cs.splitOnP isWhiteSpace) :
    ∀ c ∈ w, isWhiteSpace c = false := by
  induction cs generalizing w with
  | nil =>
    rw [List.splitOnP_nil, List.mem_singleton] at hw
    rw [hw]
    exact fun c hc => absurd hc List.not_mem_nil
  | cons d cs ih =>
    rw [List.splitOnP_cons_eq_if_modifyHead] at hw
    by_cases hd : isWhiteSpace d = true
    · rw [if_pos hd] at hw
      rcases List.mem_cons.1 hw with rfl | hw
      · exact fun c hc => absurd hc List.not_mem_nil
      · exact ih hw
    · rw [if_neg hd] at hw
      obtain ⟨first, rest, hsplit⟩ :=
        List.exists_cons_of_ne_nil (List.splitOnP_ne_nil isWhiteSpace cs)
      rw [hsplit, List.modifyHead_cons] at hw
      rcases List.mem_cons.1 hw with rfl | hw
      · intro c hc
        rcases List.mem_cons.1 hc with rfl | hc
        · simpa using hd
        · exact ih (hsplit ▸ List.mem_cons_self) c hc
      · exact ih (hsplit ▸ List.mem_cons_of_mem first hw)

/-- A word is not empty and holds no white space. -/
theorem of_mem_words {cs w : List Char} (hw : w ∈ words cs) :
    w ≠ [] ∧ ∀ c ∈ w, isWhiteSpace c = false := by
  obtain ⟨hmem, hne⟩ := List.mem_filter.1 hw
  exact ⟨by simpa using hne, not_of_mem_splitOnP hmem⟩

theorem words_of_blank {cs : List Char} (h : ∀ c ∈ cs, isWhiteSpace c = true) : words cs = [] := by
  induction cs with
  | nil => exact words_nil
  | cons c cs ih =>
    rw [words_cons_blank (h c List.mem_cons_self)]
    exact ih fun d hd => h d (List.mem_cons_of_mem c hd)

/-- White space at the end belongs to no word. -/
theorem words_append_of_blank (x : List Char) {cs : List Char}
    (h : ∀ c ∈ cs, isWhiteSpace c = true) : words (x ++ cs) = words x := by
  cases cs with
  | nil => rw [List.append_nil]
  | cons c cs =>
    have hrest : words cs = [] := words_of_blank fun d hd => h d (List.mem_cons_of_mem c hd)
    rw [words_append_blank (h c List.mem_cons_self), hrest, List.append_nil]

/-- A text that does not end in white space has a word, unless it is empty. -/
theorem words_ne_nil {cs : List Char} (hne : cs ≠ [])
    (hlast : ∀ c ∈ cs.getLast?, isWhiteSpace c = false) : words cs ≠ [] := by
  induction cs with
  | nil => exact absurd rfl hne
  | cons c cs ih =>
    by_cases hc : isWhiteSpace c = true
    · rw [words_cons_blank hc]
      cases cs with
      | nil =>
        have hnot := hlast c rfl
        rw [hc] at hnot
        exact absurd hnot Bool.noConfusion
      | cons d cs => exact ih (List.cons_ne_nil d cs) hlast
    · intro hnil
      unfold words at hnil
      rw [List.splitOnP_cons_eq_if_modifyHead, if_neg hc] at hnil
      obtain ⟨first, rest, hsplit⟩ :=
        List.exists_cons_of_ne_nil (List.splitOnP_ne_nil isWhiteSpace cs)
      rw [hsplit, List.modifyHead_cons, List.filter_cons_of_pos rfl] at hnil
      exact absurd hnil (List.cons_ne_nil _ _)

theorem joinWords_singleton (w : List Char) : joinWords [w] = w := List.intercalate_singleton

theorem joinWords_cons_cons (w v : List Char) (ws : List (List Char)) :
    joinWords (w :: v :: ws) = w ++ ' ' :: joinWords (v :: ws) := by
  unfold joinWords
  rw [List.intercalate_cons_cons, List.append_assoc]
  rfl

theorem joinWords_nil_cons (v : List Char) (ws : List (List Char)) :
    joinWords ([] :: v :: ws) = ' ' :: joinWords (v :: ws) := joinWords_cons_cons [] v ws

theorem joinWords_cons_char (c : Char) (w : List Char) (ws : List (List Char)) :
    joinWords ((c :: w) :: ws) = c :: joinWords (w :: ws) := by
  cases ws with
  | nil => rw [joinWords_singleton, joinWords_singleton]
  | cons v ws => rw [joinWords_cons_cons, joinWords_cons_cons, List.cons_append]

/-- Words are read off the text in which they stand with spaces between them. -/
theorem words_joinWords {ws : List (List Char)}
    (h : ∀ w ∈ ws, w ≠ [] ∧ ∀ c ∈ w, isWhiteSpace c = false) : words (joinWords ws) = ws := by
  induction ws with
  | nil => exact words_nil
  | cons w ws ih =>
    obtain ⟨hne, hw⟩ := h w List.mem_cons_self
    have hrest : words (joinWords ws) = ws := ih fun v hv => h v (List.mem_cons_of_mem w hv)
    cases ws with
    | nil =>
      rw [joinWords_singleton]
      exact words_of_forall_not hne hw
    | cons v ws =>
      rw [joinWords_cons_cons, words_append_blank isWhiteSpace_space, hrest,
        words_of_forall_not hne hw]
      rfl

/-- Between words stand no characters but spaces. -/
theorem mem_joinWords {ws : List (List Char)} {c : Char} (hc : c ∈ joinWords ws) :
    c = ' ' ∨ ∃ w ∈ ws, c ∈ w := by
  induction ws with
  | nil => exact absurd hc List.not_mem_nil
  | cons w ws ih =>
    cases ws with
    | nil =>
      rw [joinWords_singleton] at hc
      exact .inr ⟨w, List.mem_cons_self, hc⟩
    | cons v ws =>
      rw [joinWords_cons_cons, List.mem_append, List.mem_cons] at hc
      rcases hc with hc | hc | hc
      · exact .inr ⟨w, List.mem_cons_self, hc⟩
      · exact .inl hc
      · rcases ih hc with hspace | ⟨u, hu, hcu⟩
        · exact .inl hspace
        · exact .inr ⟨u, List.mem_cons_of_mem w hu, hcu⟩

/-! ## Trimming -/

theorem words_trimStart (cs : List Char) : words (trimStart cs) = words cs := by
  unfold trimStart
  induction cs with
  | nil => rfl
  | cons c cs ih =>
    by_cases hc : isWhiteSpace c = true
    · rw [List.dropWhile_cons_of_pos hc, ih, words_cons_blank hc]
    · rw [List.dropWhile_cons_of_neg hc]

theorem words_trimEnd (cs : List Char) : words (trimEnd cs) = words cs := by
  have hparts : trimEnd cs ++ (cs.reverse.takeWhile isWhiteSpace).reverse = cs := by
    unfold trimEnd
    rw [← List.reverse_append, List.takeWhile_append_dropWhile, List.reverse_reverse]
  have hblank : ∀ c ∈ (cs.reverse.takeWhile isWhiteSpace).reverse, isWhiteSpace c = true :=
    fun c hc => List.mem_takeWhile_imp (List.mem_reverse.1 hc)
  rw [← words_append_of_blank (trimEnd cs) hblank, hparts]

theorem words_trimList (cs : List Char) : words (trimList cs) = words cs := by
  unfold trimList
  rw [words_trimEnd, words_trimStart]

end Text

/-! ## Normalizing -/

namespace QueryText

open Text

/-- Deleting characters leaves the pieces of a text apart, since white space stays. -/
theorem splitOnP_keepWords (cs : List Char) : (keepWords cs).splitOnP isWhiteSpace
    = (cs.splitOnP isWhiteSpace).map fun w => w.filter isWordChar := by
  induction cs with
  | nil =>
    unfold keepWords
    rw [List.filter_nil, List.splitOnP_nil]
    rfl
  | cons c cs ih =>
    obtain ⟨first, rest, hsplit⟩ :=
      List.exists_cons_of_ne_nil (List.splitOnP_ne_nil isWhiteSpace cs)
    rw [hsplit] at ih
    rw [List.splitOnP_cons_eq_if_modifyHead, hsplit]
    by_cases hc : isWhiteSpace c = true
    · have hkept : keepWords (c :: cs) = c :: keepWords cs :=
        List.filter_cons_of_pos (by rw [hc, Bool.or_true])
      rw [hkept, List.splitOnP_cons_eq_if_modifyHead, if_pos hc, if_pos hc, ih]
      rfl
    · rw [if_neg hc, List.modifyHead_cons, List.map_cons]
      by_cases hw : isWordChar c = true
      · have hkept : keepWords (c :: cs) = c :: keepWords cs :=
          List.filter_cons_of_pos (by rw [hw, Bool.true_or])
        rw [hkept, List.splitOnP_cons_eq_if_modifyHead, if_neg hc, ih, List.map_cons,
          List.modifyHead_cons, List.filter_cons_of_pos hw]
      · have hdropped : keepWords (c :: cs) = keepWords cs :=
          List.filter_cons_of_neg (by rw [Bool.or_eq_true]; exact fun h => h.elim hw hc)
        rw [hdropped, ih, List.map_cons, List.filter_cons_of_neg hw]

/-- What is kept of the words of a text: the letters and numbers of each, if it has any. -/
def keptWords (cs : List Char) : List (List Char) :=
  ((words cs).map fun w => w.filter isWordChar).filter fun w => !w.isEmpty

theorem words_keepWords (cs : List Char) : words (keepWords cs) = keptWords cs := by
  unfold keptWords words
  rw [splitOnP_keepWords, List.filter_map, List.filter_map, List.filter_filter]
  refine congrArg _ (List.filter_congr fun w _ => ?_)
  -- a piece that is empty has nothing to keep
  cases w with
  | nil => rfl
  | cons c w => simp

/-- A kept word is not empty, and all of it are letters and numbers. -/
theorem of_mem_keptWords {cs w : List Char} (hw : w ∈ keptWords cs) :
    w ≠ [] ∧ ∀ c ∈ w, isWordChar c = true ∧ isWhiteSpace c = false := by
  obtain ⟨hmem, hne⟩ := List.mem_filter.1 hw
  obtain ⟨v, hv, rfl⟩ := List.mem_map.1 hmem
  refine ⟨by simpa using hne, fun c hc => ?_⟩
  obtain ⟨hcv, hword⟩ := List.mem_filter.1 hc
  exact ⟨hword, (of_mem_words hv).2 c hcv⟩

/-- A text that does not end in white space, with every run of it made one space: its first piece,
which is empty before white space, and the words after that. -/
theorem collapseBlanks_eq {cs : List Char} (hlast : ∀ c ∈ cs.getLast?, isWhiteSpace c = false)
    {first : List Char} {rest : List (List Char)}
    (hsplit : cs.splitOnP isWhiteSpace = first :: rest) :
    collapseBlanks cs = joinWords (first :: rest.filter fun w => !w.isEmpty) := by
  induction cs generalizing first rest with
  | nil =>
    rw [List.splitOnP_nil] at hsplit
    obtain ⟨rfl, rfl⟩ := List.cons.inj hsplit
    rfl
  | cons c cs ih =>
    obtain ⟨v, vs, hcs⟩ := List.exists_cons_of_ne_nil (List.splitOnP_ne_nil isWhiteSpace cs)
    have hlast' : ∀ d ∈ cs.getLast?, isWhiteSpace d = false := by
      cases cs with
      | nil => exact fun d hd => absurd hd (Option.not_mem_none d)
      | cons e es => exact hlast
    have hrest := ih hlast' hcs
    rw [List.splitOnP_cons_eq_if_modifyHead, hcs] at hsplit
    by_cases hc : isWhiteSpace c = true
    · -- white space: one space, whether more of it follows or a word
      rw [if_pos hc] at hsplit
      obtain ⟨rfl, rfl⟩ := List.cons.inj hsplit
      rw [collapseBlanks, if_pos hc, hrest]
      cases v with
      | nil =>
        have hne : cs ≠ [] := by
          rintro rfl
          have hnot := hlast c rfl
          rw [hc] at hnot
          exact absurd hnot Bool.noConfusion
        have hwords : vs.filter (fun w => !w.isEmpty) ≠ [] := by
          have h := words_ne_nil hne hlast'
          unfold words at h
          rwa [hcs] at h
        obtain ⟨u, us, hus⟩ := List.exists_cons_of_ne_nil hwords
        rw [List.filter_cons_of_neg (by simp), hus, joinWords_nil_cons]
        rfl
      | cons d v =>
        have hd : isWhiteSpace d = false :=
          not_of_mem_splitOnP (hcs ▸ List.mem_cons_self) d List.mem_cons_self
        have hspace : d ≠ ' ' := by
          rintro rfl
          rw [isWhiteSpace_space] at hd
          exact absurd hd Bool.noConfusion
        rw [List.filter_cons_of_pos rfl, joinWords_nil_cons, joinWords_cons_char]
        split
        · next heq => exact absurd (List.cons.inj heq).1 hspace
        · rfl
    · rw [if_neg hc, List.modifyHead_cons] at hsplit
      obtain ⟨rfl, rfl⟩ := List.cons.inj hsplit
      rw [collapseBlanks, if_neg hc, hrest, joinWords_cons_char]

/-- **Normalizing leaves the kept words**, with one space between any two. -/
theorem normalizeList_eq (cs : List Char) : normalizeList cs = joinWords (keptWords cs) := by
  unfold normalizeList
  obtain ⟨first, rest, hsplit⟩ := List.exists_cons_of_ne_nil
    (List.splitOnP_ne_nil isWhiteSpace (trimList (keepWords cs)))
  have hwords : words (trimList (keepWords cs)) = keptWords cs := by
    rw [words_trimList, words_keepWords]
  rw [collapseBlanks_eq (getLast?_trimList _) hsplit, ← hwords]
  unfold words
  rw [hsplit]
  cases first with
  | cons c first => rw [List.filter_cons_of_pos rfl]
  | nil =>
    -- trimmed text has no empty first piece, unless there is nothing else
    have hnil : trimList (keepWords cs) = [] := by
      cases htrim : trimList (keepWords cs) with
      | nil => rfl
      | cons c more =>
        have hc : isWhiteSpace c = false := head?_trimList (keepWords cs) c (by rw [htrim]; rfl)
        rw [htrim, List.splitOnP_cons_eq_if_modifyHead, hc, if_neg Bool.false_ne_true] at hsplit
        obtain ⟨v, vs, hmore⟩ := List.exists_cons_of_ne_nil (List.splitOnP_ne_nil isWhiteSpace more)
        rw [hmore, List.modifyHead_cons] at hsplit
        cases (List.cons.inj hsplit).1
    rw [hnil, List.splitOnP_nil] at hsplit
    obtain ⟨-, rfl⟩ := List.cons.inj hsplit
    rfl

end QueryText

end HarvestSearch
