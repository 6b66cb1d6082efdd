/-
Normalized text as a normal form.

Normalizing (`gleaner_search::query::normalize_text`) works on the whole text three times: it
deletes characters, trims, and shrinks each run of white space. `reducedWords` works on one word at
a time: it cuts the text at white space, keeps the letters and numbers of each piece and drops the
pieces of which nothing is left. The two agree (`normalize_eq`), so that what normalizing does to a
long text follows from what it does to its parts (`keptWords_append`).

Normal text is what comes out: letters and numbers, with single spaces inside (`IsNormal`). On such
text none of the three passes has anything to do (`normalizeList_of_isNormal`), because a letter or a
number is never white space (`Text.not_isWordChar_of_isWhiteSpace`). So the normal texts are exactly
those that normalizing leaves alone, and normalizing twice is normalizing once.
-/
import HarvestSearch.Proofs.QueryOperators
import Mathlib.Data.List.Chain

set_option autoImplicit false

namespace HarvestSearch

namespace Text

/-- Letters and numbers are not white space. -/
theorem not_isWordChar_of_isWhiteSpace {c : Char} (hc : isWhiteSpace c = true) :
    isWordChar c = false := by
  -- no range of the one class meets a range of the other
  have hapart : whiteSpaceRanges.all (fun blank => (letterRanges ++ numberRanges).all fun word =>
      blank.2 < word.1 || word.2 < blank.1) = true := by decide +kernel
  obtain ⟨blank, hblank, hcblank⟩ := List.any_eq_true.1 hc
  by_contra h
  have hclasses : inRanges (letterRanges ++ numberRanges) c.toNat = isWordChar c := List.any_append
  rw [← hclasses, Bool.not_eq_false] at h
  obtain ⟨word, hword, hcword⟩ := List.any_eq_true.1 h
  have hdisjoint := List.all_eq_true.1 (List.all_eq_true.1 hapart blank hblank) word hword
  simp only [Bool.and_eq_true, Bool.or_eq_true, decide_eq_true_eq] at hcblank hcword hdisjoint
  omega

theorem not_isWhiteSpace_of_isWordChar {c : Char} (hc : isWordChar c = true) :
    isWhiteSpace c = false := by
  by_contra h
  rw [not_isWordChar_of_isWhiteSpace (by simpa using h)] at hc
  exact Bool.noConfusion hc

/-- White space in front of a text belongs to no word. -/
theorem words_blank_append {blank : List Char} (h : ∀ c ∈ blank, isWhiteSpace c = true)
    (cs : List Char) : words (blank ++ cs) = words cs := by
  induction blank with
  | nil => rfl
  | cons c blank ih =>
    rw [List.cons_append, words_cons_blank (h c List.mem_cons_self)]
    exact ih fun d hd => h d (List.mem_cons_of_mem c hd)

theorem joinWords_append {ws vs : List (List Char)} (hws : ws ≠ []) (hvs : vs ≠ []) :
    joinWords (ws ++ vs) = joinWords ws ++ ' ' :: joinWords vs := by
  obtain ⟨v, vs, rfl⟩ := List.exists_cons_of_ne_nil hvs
  induction ws with
  | nil => exact absurd rfl hws
  | cons w ws ih =>
    cases ws with
    | nil => rw [joinWords_singleton, List.singleton_append, joinWords_cons_cons]
    | cons u ws =>
      have hrest := ih (List.cons_ne_nil u ws)
      rw [List.cons_append] at hrest ⊢
      rw [List.cons_append, joinWords_cons_cons, joinWords_cons_cons, hrest, List.append_assoc,
        List.cons_append]

end Text

namespace QueryText

open Text

/-! ## Word by word -/

/-- The words of a text, each reduced to its letters and numbers, without those of which nothing is
left. -/
def reducedWords (text : String) : List String :=
  ((text.toList.splitOnP isWhiteSpace).map fun piece =>
    String.ofList (piece.filter fun c => isLetter c || isNumber c)).filter fun word => word ≠ ""

theorem toList_reducedWords (text : String) :
    (reducedWords text).map String.toList = keptWords text.toList := by
  rw [← words_keepWords]
  unfold words reducedWords
  rw [splitOnP_keepWords, List.filter_map, List.filter_map, List.map_map]
  have htoList : String.toList ∘ (fun piece : List Char =>
      String.ofList (piece.filter fun c => isLetter c || isNumber c))
        = fun piece => piece.filter isWordChar := by
    funext piece
    exact String.toList_ofList
  rw [htoList]
  refine congrArg _ (List.filter_congr fun piece _ => ?_)
  rw [Bool.eq_iff_iff]
  simp [isWordChar]

/-- **Normalizing is done word by word.** -/
theorem normalize_eq (text : String) : normalize text = " ".intercalate (reducedWords text) := by
  rw [← String.toList_inj, toList_normalize, normalizeList_eq, String.toList_intercalate,
    toList_reducedWords]
  rfl

/-- A text that is cut at white space has the kept words of its two parts. -/
theorem keptWords_append {blank : List Char} (hne : blank ≠ [])
    (hblank : ∀ c ∈ blank, isWhiteSpace c = true) (front back : List Char) :
    keptWords (front ++ blank ++ back) = keptWords front ++ keptWords back := by
  obtain ⟨c, blank, rfl⟩ := List.exists_cons_of_ne_nil hne
  have hwords : words (front ++ (c :: blank) ++ back) = words front ++ words back := by
    rw [List.append_assoc, List.cons_append, words_append_blank (hblank c List.mem_cons_self),
      words_blank_append fun d hd => hblank d (List.mem_cons_of_mem c hd)]
  unfold keptWords
  rw [hwords, List.map_append, List.filter_append]

/-- The normalized text of two parts that white space divides is made of theirs, with a space
between them if neither is empty. -/
theorem normalize_append {blank : String} (hne : blank ≠ "")
    (hblank : ∀ c ∈ blank.toList, isWhiteSpace c = true) (front back : String) :
    normalize (front ++ blank ++ back)
      = " ".intercalate ([normalize front, normalize back].filter fun part => part ≠ "") := by
  have hne' : blank.toList ≠ [] := fun h => hne (String.toList_eq_nil_iff.1 h)
  have hparts : ∀ part : String, normalize part = "" ↔ keptWords part.toList = [] := by
    intro part
    rw [← String.isEmpty_iff]
    exact isEmpty_normalize_iff part
  have hlists : (normalize (front ++ blank ++ back)).toList
      = joinWords (keptWords front.toList ++ keptWords back.toList) := by
    rw [toList_normalize, normalizeList_eq, String.toList_append, String.toList_append,
      keptWords_append hne' hblank]
  have hpart : ∀ part : String, (normalize part).toList = joinWords (keptWords part.toList) := by
    intro part
    rw [toList_normalize, normalizeList_eq]
  rw [← String.toList_inj, hlists, String.toList_intercalate]
  by_cases hfront : keptWords front.toList = []
  · by_cases hback : keptWords back.toList = []
    · simp [hparts, hfront, hback, joinWords]
    · simp [hparts, hfront, hback, hpart]
  · by_cases hback : keptWords back.toList = []
    · simp [hparts, hfront, hback, hpart]
    · rw [joinWords_append hfront hback]
      simp [hparts, hfront, hback, hpart, List.intercalate_cons_cons]

/-! ## Normal text -/

/-- Letters and numbers, with single spaces inside. -/
structure IsNormal (cs : List Char) : Prop where
  chars : ∀ c ∈ cs, isWordChar c = true ∨ c = ' '
  first : ∀ c ∈ cs.head?, isWordChar c = true
  last : ∀ c ∈ cs.getLast?, isWordChar c = true
  single : cs.IsChain fun c d => isWordChar c = true ∨ isWordChar d = true

theorem isNormal_nil : IsNormal [] where
  chars := by simp
  first := by simp
  last := by simp
  single := .nil

/-- A word of letters and numbers is normal. -/
theorem isNormal_of_forall {w : List Char} (hw : ∀ c ∈ w, isWordChar c = true) : IsNormal w where
  chars c hc := .inl (hw c hc)
  first c hc := hw c (List.mem_of_mem_head? hc)
  last c hc := hw c (List.mem_of_mem_getLast? hc)
  single := (List.pairwise_of_forall_mem_list fun c hc _ _ => .inl (hw c hc)).isChain

/-- Normal text stays normal with one more word in front. -/
theorem IsNormal.cons_word {w cs : List Char} (hne : w ≠ []) (hw : ∀ c ∈ w, isWordChar c = true)
    (hcs : IsNormal cs) (hcs' : cs ≠ []) : IsNormal (w ++ ' ' :: cs) where
  chars c hc := by
    rcases List.mem_append.1 hc with hc | hc
    · exact .inl (hw c hc)
    rcases List.mem_cons.1 hc with rfl | hc
    · exact .inr rfl
    · exact hcs.chars c hc
  first c hc := by
    rw [List.head?_append_of_ne_nil _ hne] at hc
    exact hw c (List.mem_of_mem_head? hc)
  last c hc := by
    rw [List.getLast?_append_of_ne_nil _ (List.cons_ne_nil ' ' cs),
      List.getLast?_cons_of_ne_nil hcs'] at hc
    exact hcs.last c hc
  single := by
    refine List.isChain_append.2 ⟨(isNormal_of_forall hw).single, ?_, ?_⟩
    · exact List.isChain_cons.2 ⟨fun d hd => .inr (hcs.first d hd), hcs.single⟩
    · exact fun c hc d _ => .inl (hw c (List.mem_of_mem_getLast? hc))

theorem isNormal_joinWords {ws : List (List Char)}
    (h : ∀ w ∈ ws, w ≠ [] ∧ ∀ c ∈ w, isWordChar c = true) : IsNormal (joinWords ws) := by
  induction ws with
  | nil => exact isNormal_nil
  | cons w ws ih =>
    obtain ⟨hne, hw⟩ := h w List.mem_cons_self
    have hrest : IsNormal (joinWords ws) := ih fun v hv => h v (List.mem_cons_of_mem w hv)
    cases ws with
    | nil =>
      rw [joinWords_singleton]
      exact isNormal_of_forall hw
    | cons v ws =>
      obtain ⟨hv, -⟩ := h v (List.mem_cons_of_mem w List.mem_cons_self)
      have hne' : joinWords (v :: ws) ≠ [] := by
        obtain ⟨c, v, rfl⟩ := List.exists_cons_of_ne_nil hv
        rw [joinWords_cons_char]
        exact List.cons_ne_nil c _
      rw [joinWords_cons_cons]
      exact hrest.cons_word hne hw hne'

/-- **What comes out of normalizing is normal.** -/
theorem isNormal_normalizeList (cs : List Char) : IsNormal (normalizeList cs) := by
  rw [normalizeList_eq]
  exact isNormal_joinWords fun w hw =>
    ⟨(of_mem_keptWords hw).1, fun c hc => ((of_mem_keptWords hw).2 c hc).1⟩

/-! ## Nothing to do -/

/-- Single spaces are not shrunk. -/
theorem collapseBlanks_eq_self {cs : List Char} (hchars : ∀ c ∈ cs, isWordChar c = true ∨ c = ' ')
    (hsingle : cs.IsChain fun c d => isWordChar c = true ∨ isWordChar d = true) :
    collapseBlanks cs = cs := by
  induction cs with
  | nil => rfl
  | cons c cs ih =>
    obtain ⟨hnext, hrest⟩ := List.isChain_cons.1 hsingle
    have hcs : collapseBlanks cs = cs := ih (fun d hd => hchars d (List.mem_cons_of_mem c hd)) hrest
    rcases hchars c List.mem_cons_self with hc | rfl
    · rw [collapseBlanks, not_isWhiteSpace_of_isWordChar hc, if_neg Bool.false_ne_true, hcs]
    · -- a letter or a number comes behind a space, unless nothing does
      rw [collapseBlanks, isWhiteSpace_space, if_pos rfl, hcs]
      split
      · next rest heq =>
        have hspace : isWordChar ' ' = true := by simpa using hnext ' ' rfl
        rw [not_isWordChar_of_isWhiteSpace isWhiteSpace_space] at hspace
        exact absurd hspace Bool.false_ne_true
      · rfl

/-- **Normal text is left alone**, by each of the three passes. -/
theorem normalizeList_of_isNormal {cs : List Char} (h : IsNormal cs) : normalizeList cs = cs := by
  have hkeep : keepWords cs = cs := by
    refine List.filter_eq_self.2 fun c hc => ?_
    rcases h.chars c hc with hc | rfl
    · rw [hc, Bool.true_or]
    · rw [isWhiteSpace_space, Bool.or_true]
  have htrim : trimList cs = cs := trimList_eq_self
    (fun c hc => not_isWhiteSpace_of_isWordChar (h.first c hc))
    (fun c hc => not_isWhiteSpace_of_isWordChar (h.last c hc))
  unfold normalizeList
  rw [hkeep, htrim, collapseBlanks_eq_self h.chars h.single]

/-- The normal texts are those that normalizing leaves alone. -/
theorem normalize_eq_self_iff (text : String) : normalize text = text ↔ IsNormal text.toList := by
  rw [← String.toList_inj, toList_normalize]
  constructor
  · intro h
    rw [← h]
    exact isNormal_normalizeList text.toList
  · exact normalizeList_of_isNormal

/-- A second time there is nothing to normalize. -/
theorem normalize_normalize (text : String) : normalize (normalize text) = normalize text := by
  rw [normalize_eq_self_iff, toList_normalize]
  exact isNormal_normalizeList text.toList

/-! ## Texts without words -/

theorem collapseBlanks_eq_nil_iff {cs : List Char} : collapseBlanks cs = [] ↔ cs = [] := by
  cases cs with
  | nil => exact ⟨fun _ => rfl, fun _ => rfl⟩
  | cons c cs =>
    refine ⟨fun h => ?_, fun h => absurd h (List.cons_ne_nil c cs)⟩
    rw [collapseBlanks] at h
    split at h
    · split at h <;> exact absurd h (List.cons_ne_nil _ _)
    · exact absurd h (List.cons_ne_nil _ _)

/-- Nothing is kept of a text exactly if it has no letter and no number. -/
theorem normalizeList_eq_nil_iff_forall {cs : List Char} :
    normalizeList cs = [] ↔ ∀ c ∈ cs, isWordChar c = false := by
  unfold normalizeList
  rw [collapseBlanks_eq_nil_iff, trimList_eq_nil_iff]
  unfold isBlankList keepWords
  rw [List.all_filter, List.all_eq_true]
  refine forall₂_congr fun c _ => ?_
  cases hblank : isWhiteSpace c with
  | true => simp [not_isWordChar_of_isWhiteSpace hblank]
  | false => simp

/-- The expression of a text with words begins with a bracket, so it is not the star. -/
theorem expression_eq_matchAll_iff (text : String) :
    expression text = matchAll ↔ keptWords text.toList = [] := by
  refine ⟨fun h => ?_, expression_of_keptWords_nil⟩
  by_contra hne
  rw [expression_of_keptWords hne, ← String.toList_inj, toList_expression] at h
  cases h

/-! ## The main statement -/

/-- **Normalizing is done word by word.** Normalized text consists of the words of the text, reduced
to their letters and numbers, without those of which nothing is left, with one space between any two.
It is normal text, and normal text is what normalizing leaves alone, so a second time there is
nothing to do. A text in two parts with white space between them is normalized part by part. The
expression of a text is that of its normalized text, and it matches everything exactly if the text
has no letter and no number. -/
theorem normalize_wordwise (text : String) :
    normalize text = " ".intercalate (reducedWords text) ∧
    IsNormal (normalize text).toList ∧
    (normalize text = text ↔ IsNormal text.toList) ∧
    normalize (normalize text) = normalize text ∧
    (∀ blank more : String, blank ≠ "" → (∀ c ∈ blank.toList, isWhiteSpace c = true) →
      normalize (text ++ blank ++ more)
        = " ".intercalate ([normalize text, normalize more].filter fun part => part ≠ "")) ∧
    expression (normalize text) = expression text ∧
    (expression text = "*" ↔ ∀ c ∈ text.toList, isLetter c = false ∧ isNumber c = false) := by
  refine ⟨normalize_eq text, ?_, normalize_eq_self_iff text, normalize_normalize text,
    fun blank more hne hblank => normalize_append hne hblank text more, ?_, ?_⟩
  · rw [toList_normalize]
    exact isNormal_normalizeList text.toList
  · unfold expression
    rw [normalize_normalize]
  · have hnone : expression text = "*" ↔ ∀ c ∈ text.toList, isWordChar c = false := by
      rw [← normalizeList_eq_nil_iff_forall, normalizeList_eq_nil_iff]
      exact expression_eq_matchAll_iff text
    simpa [isWordChar] using hnone

/-- Marks between white space are no word, neither at the ends of a text nor inside it, and white
space of any kind divides. -/
theorem normalize_marks_between_words :
    "\u3000\n " ≠ "" ∧ (∀ c ∈ "\u3000\n ".toList, isWhiteSpace c = true) ∧
    normalize (" -- N.O. " ++ "\u3000\n " ++ "* 42?! ß") = "NO 42 ß" ∧
    normalize (" -- N.O. " ++ "\u3000\n " ++ "*") = "NO" := by
  have hne : "\u3000\n " ≠ "" := by decide
  have hblank : ∀ c ∈ "\u3000\n ".toList, isWhiteSpace c = true := List.all_eq_true.1 (by decide)
  obtain ⟨-, -, -, -, hparts, -⟩ := normalize_wordwise " -- N.O. "
  have hfront : normalize " -- N.O. " = "NO" := by
    rw [← String.toList_inj, toList_normalize]
    decide +kernel
  have hback : normalize "* 42?! ß" = "42 ß" := by
    rw [← String.toList_inj, toList_normalize]
    decide +kernel
  have hmark : normalize "*" = "" := by
    rw [← String.toList_inj, toList_normalize]
    decide +kernel
  refine ⟨hne, hblank, ?_, ?_⟩
  · rw [hparts _ "* 42?! ß" hne hblank, hfront, hback]
    decide
  · rw [hparts _ "*" hne hblank, hfront, hmark]
    decide

end QueryText

end HarvestSearch
