/-
Trimming, blank text, and cutting text at a separator.

Everything is defined over `List Char` first and lifted to `String`, so that lemmas are about lists.
`trimList` removes white space from both ends, and leaves text alone that has none there
(`trimList_eq_self`); `isBlankList` says that nothing else is there. `Pads` is the other way round, a
text with white space put around it, and `trim_eq_iff` ties the two. `dropTrailingSlashes` does the
same for slashes at the end, of which it takes any number. The two cuts, `cutFirst` and
`cutLast`, split at the first and at the last occurrence of a separator and drop it:
`cutFirst_eq_some_iff` and `cutLast_eq_some_iff` say that the parts and the separator are the whole
text, and `cutLast_eq_none_iff` that a cut fails only without a separator.

`trim` is `str::trim`, `cutFirst` is `str::split_once`, and `cutLast` is `str::rsplit_once`.
-/
import HarvestSearch.Text.Category

set_option autoImplicit false

namespace HarvestSearch.Text

/-! ## Blank text and trimming -/

def trimStart (cs : List Char) : List Char := cs.dropWhile isWhiteSpace

def trimEnd (cs : List Char) : List Char := (cs.reverse.dropWhile isWhiteSpace).reverse

/-- White space removed from both ends. -/
def trimList (cs : List Char) : List Char := trimEnd (trimStart cs)

/-- The text without white space at its ends. -/
def trim (s : String) : String := String.ofList (trimList s.toList)

def isBlankList (cs : List Char) : Bool := cs.all isWhiteSpace

/-- The text is empty or holds white space only. -/
def isBlank (s : String) : Bool := isBlankList s.toList

/-- A text, unless it is blank. -/
def unlessBlank (text : Option String) : Option String := text.filter fun s => !isBlank s

/-- The text without slashes at its end. -/
def dropTrailingSlashes (s : String) : String :=
  String.ofList (s.toList.reverse.dropWhile (· == '/')).reverse

theorem dropWhile_eq_nil_iff {α : Type} {p : α → Bool} {xs : List α} :
    xs.dropWhile p = [] ↔ xs.all p = true := by
  induction xs with
  | nil => simp
  | cons x xs ih => by_cases h : p x <;> simp [List.dropWhile, h, ih]

/-- Text is blank exactly when trimming leaves nothing of it. -/
theorem trimList_eq_nil_iff {cs : List Char} : trimList cs = [] ↔ isBlankList cs = true := by
  have start : trimStart cs = [] ↔ isBlankList cs = true := dropWhile_eq_nil_iff
  rw [← start]
  constructor
  · intro h
    have all : (trimStart cs).all isWhiteSpace = true := by
      have := List.reverse_eq_nil_iff.1 h
      simpa using dropWhile_eq_nil_iff.1 this
    cases hs : trimStart cs with
    | nil => rfl
    | cons c rest =>
      have first : isWhiteSpace c = false := by
        have := List.head?_dropWhile_not isWhiteSpace cs
        rw [trimStart] at hs
        simpa [hs] using this
      simp [hs, first] at all
  · intro h
    simp [trimList, trimEnd, h]

theorem isEmpty_trimList (cs : List Char) : (trimList cs).isEmpty = isBlankList cs := by
  rw [Bool.eq_iff_iff, List.isEmpty_iff]
  exact trimList_eq_nil_iff

/-- Trimmed text does not end in white space. -/
theorem getLast?_trimList (cs : List Char) :
    ∀ c ∈ (trimList cs).getLast?, isWhiteSpace c = false := by
  intro c hc
  have hfirst := List.head?_dropWhile_not isWhiteSpace (trimStart cs).reverse
  unfold trimList trimEnd at hc
  rw [List.getLast?_reverse] at hc
  rw [Option.mem_def.1 hc] at hfirst
  exact hfirst

/-- Trimmed text does not begin with white space. -/
theorem head?_trimList (cs : List Char) : ∀ c ∈ (trimList cs).head?, isWhiteSpace c = false := by
  intro c hc
  have hfirst := List.head?_dropWhile_not isWhiteSpace cs
  have hfront : trimList cs <+: trimStart cs := by
    have hsuffix : (trimStart cs).reverse.dropWhile isWhiteSpace <:+ (trimStart cs).reverse :=
      List.dropWhile_suffix isWhiteSpace
    have hprefix := List.reverse_prefix.2 hsuffix
    rwa [List.reverse_reverse] at hprefix
  obtain ⟨back, hback⟩ := hfront
  have hhead : (trimStart cs).head? = some c := by
    rw [← hback, List.head?_append, Option.mem_def.1 hc]
    rfl
  unfold trimStart at hhead
  rw [hhead] at hfirst
  exact hfirst

theorem dropWhile_eq_self {α : Type} {p : α → Bool} {xs : List α}
    (h : ∀ x ∈ xs.head?, p x = false) : xs.dropWhile p = xs := by
  cases xs with
  | nil => rfl
  | cons x xs => exact List.dropWhile_cons_of_neg (by simp [h x rfl])

/-- Text that neither begins nor ends with white space has nothing to trim. -/
theorem trimList_eq_self {cs : List Char} (hfirst : ∀ c ∈ cs.head?, isWhiteSpace c = false)
    (hlast : ∀ c ∈ cs.getLast?, isWhiteSpace c = false) : trimList cs = cs := by
  have hstart : trimStart cs = cs := dropWhile_eq_self hfirst
  have hend : cs.reverse.dropWhile isWhiteSpace = cs.reverse :=
    dropWhile_eq_self (by rwa [List.head?_reverse])
  unfold trimList trimEnd
  rw [hstart, hend, List.reverse_reverse]

theorem trimList_trimList (cs : List Char) : trimList (trimList cs) = trimList cs :=
  trimList_eq_self (head?_trimList cs) (getLast?_trimList cs)

theorem mem_of_mem_trimList {cs : List Char} {c : Char} (h : c ∈ trimList cs) : c ∈ cs := by
  have hend : c ∈ (trimStart cs).reverse :=
    (List.dropWhile_suffix isWhiteSpace).subset (List.mem_reverse.1 h)
  exact (List.dropWhile_suffix isWhiteSpace).subset (List.mem_reverse.1 hend)

theorem trim_trim (s : String) : trim (trim s) = trim s := by
  rw [trim, trim, String.toList_ofList, trimList_trimList]

theorem trim_eq_empty_iff {s : String} : trim s = "" ↔ isBlank s = true := by
  rw [trim, String.ofList_eq_empty_iff]
  exact trimList_eq_nil_iff

theorem trim_ne_empty {s : String} (h : isBlank s = false) : trim s ≠ "" := by
  rw [Ne, trim_eq_empty_iff, h]
  exact Bool.false_ne_true

/-- Text that is trimmed already is blank only if it is empty. -/
theorem isBlank_of_trim_eq {s : String} (hne : s ≠ "") (htrim : trim s = s) : isBlank s = false := by
  rw [← Bool.not_eq_true, ← trim_eq_empty_iff, htrim]
  exact hne

/-! ## White space around a text -/

/-- The padded text is the text with white space around it, or with none. -/
def Pads (padded text : String) : Prop :=
  ∃ before after, padded = before ++ text ++ after ∧ isBlank before = true ∧ isBlank after = true

theorem trimEnd_append {blank : List Char} (h : isBlankList blank = true) (cs : List Char) :
    trimEnd (cs ++ blank) = trimEnd cs := by
  unfold trimEnd
  rw [List.reverse_append, List.dropWhile_append_of_pos]
  exact fun c hc => List.all_eq_true.1 h c (List.mem_reverse.1 hc)

theorem trimList_append {before after : List Char} (hbefore : isBlankList before = true)
    (hafter : isBlankList after = true) (cs : List Char) :
    trimList (before ++ cs ++ after) = trimList cs := by
  have hfront : trimStart (before ++ cs ++ after) = trimStart (cs ++ after) := by
    rw [List.append_assoc]
    exact List.dropWhile_append_of_pos (List.all_eq_true.1 hbefore)
  have hnone : trimStart after = [] := dropWhile_eq_nil_iff.2 hafter
  unfold trimList
  rw [hfront]
  unfold trimStart at hnone ⊢
  rw [List.dropWhile_append, hnone]
  by_cases hempty : (cs.dropWhile isWhiteSpace).isEmpty = true
  · rw [if_pos hempty, List.isEmpty_iff.1 hempty]
  · rw [if_neg hempty, trimEnd_append hafter]

/-- What trimming takes away is white space at the two ends. -/
theorem exists_append_trimList (cs : List Char) : ∃ before after,
    cs = before ++ trimList cs ++ after ∧ isBlankList before = true ∧ isBlankList after = true := by
  refine ⟨cs.takeWhile isWhiteSpace, ((trimStart cs).reverse.takeWhile isWhiteSpace).reverse,
    ?_, List.all_takeWhile, ?_⟩
  · have hend : trimList cs ++ ((trimStart cs).reverse.takeWhile isWhiteSpace).reverse
        = trimStart cs := by
      unfold trimList trimEnd
      rw [← List.reverse_append, List.takeWhile_append_dropWhile, List.reverse_reverse]
    rw [List.append_assoc, hend]
    exact List.takeWhile_append_dropWhile.symm
  · unfold isBlankList
    rw [List.all_reverse]
    exact List.all_takeWhile

theorem trim_of_pads {padded text : String} (h : Pads padded text) : trim padded = trim text := by
  obtain ⟨before, after, rfl, hbefore, hafter⟩ := h
  unfold trim
  rw [String.toList_append, String.toList_append, trimList_append hbefore hafter]

theorem pads_trim (s : String) : Pads s (trim s) := by
  obtain ⟨before, after, hs, hbefore, hafter⟩ := exists_append_trimList s.toList
  refine ⟨String.ofList before, String.ofList after, ?_, ?_, ?_⟩
  · rw [← String.toList_inj, String.toList_append, String.toList_append, trim]
    simpa only [String.toList_ofList] using hs
  · rwa [isBlank, String.toList_ofList]
  · rwa [isBlank, String.toList_ofList]

/-- Trimming finds the text that stands between the white space at the ends. -/
theorem trim_eq_iff {padded text : String} :
    trim padded = text ↔ trim text = text ∧ Pads padded text := by
  constructor
  · rintro rfl
    exact ⟨trim_trim padded, pads_trim padded⟩
  · rintro ⟨htrim, hpads⟩
    rw [trim_of_pads hpads, htrim]

/-! ## Text that counts as absent -/

theorem unlessBlank_eq_some_iff {text : Option String} {s : String} :
    unlessBlank text = some s ↔ text = some s ∧ isBlank s = false := by
  rw [unlessBlank, Option.filter_eq_some_iff]
  simp

/-- An absent text is treated like a blank one. -/
theorem unlessBlank_cases (text : Option String) :
    (unlessBlank text = none ∧ isBlank (text.getD "") = true) ∨
    ∃ s, text = some s ∧ isBlank s = false := by
  cases text with
  | none => exact .inl ⟨rfl, rfl⟩
  | some s =>
    cases h : isBlank s with
    | true => exact .inl ⟨by simp [unlessBlank, h], h⟩
    | false => exact .inr ⟨s, rfl, h⟩

theorem unlessBlank_eq_self_iff {text : Option String} :
    unlessBlank text = text ↔ ∀ s, text = some s → isBlank s = false := by
  constructor
  · intro h s hs
    exact (unlessBlank_eq_some_iff.1 (h.trans hs)).2
  · intro h
    cases text with
    | none => rfl
    | some s => exact unlessBlank_eq_some_iff.2 ⟨rfl, h s rfl⟩

/-! ## Slashes at the end -/

/-- So many slashes. -/
def slashes (n : Nat) : String := String.ofList (List.replicate n '/')

theorem getLast?_dropTrailingSlashes (s : String) :
    (dropTrailingSlashes s).toList.getLast? ≠ some '/' := by
  intro h
  have hfirst := List.head?_dropWhile_not (· == '/') s.toList.reverse
  rw [dropTrailingSlashes, String.toList_ofList, List.getLast?_reverse] at h
  rw [h] at hfirst
  exact Bool.false_ne_true hfirst.symm

theorem dropTrailingSlashes_eq_self_iff {s : String} :
    dropTrailingSlashes s = s ↔ s.toList.getLast? ≠ some '/' := by
  constructor
  · intro h
    rw [← h]
    exact getLast?_dropTrailingSlashes s
  · intro h
    have hkept : s.toList.reverse.dropWhile (· == '/') = s.toList.reverse := by
      refine dropWhile_eq_self fun c hc => ?_
      rw [List.head?_reverse] at hc
      exact beq_false_of_ne fun hslash => h (hslash ▸ hc)
    rw [dropTrailingSlashes, hkept, List.reverse_reverse, String.ofList_toList]

theorem dropTrailingSlashes_dropTrailingSlashes (s : String) :
    dropTrailingSlashes (dropTrailingSlashes s) = dropTrailingSlashes s :=
  dropTrailingSlashes_eq_self_iff.2 (getLast?_dropTrailingSlashes s)

theorem dropTrailingSlashes_append_slashes (s : String) (n : Nat) :
    dropTrailingSlashes (s ++ slashes n) = dropTrailingSlashes s := by
  have hslashes : ∀ c ∈ List.replicate n '/', (c == '/') = true := fun c hc =>
    beq_of_eq (List.eq_of_mem_replicate hc)
  rw [dropTrailingSlashes, dropTrailingSlashes, String.toList_append, List.reverse_append, slashes,
    String.toList_ofList, List.reverse_replicate, List.dropWhile_append_of_pos hslashes]

/-! ## Cutting at a separator -/

/-- The text before and after the first separator, or nothing when there is none. -/
def cutFirst (sep : Char) : List Char → Option (List Char × List Char)
  | [] => none
  | c :: cs =>
    if c = sep then some ([], cs)
    else (cutFirst sep cs).map fun parts => (c :: parts.1, parts.2)

/-- The text before and after the last separator, or nothing when there is none. -/
def cutLast (sep : Char) : List Char → Option (List Char × List Char)
  | [] => none
  | c :: cs =>
    match cutLast sep cs with
    | some parts => some (c :: parts.1, parts.2)
    | none => if c = sep then some ([], cs) else none

theorem append_of_cutFirst {sep : Char} {cs front back : List Char}
    (h : cutFirst sep cs = some (front, back)) : cs = front ++ sep :: back ∧ sep ∉ front := by
  induction cs generalizing front with
  | nil => simp [cutFirst] at h
  | cons c cs ih =>
    by_cases hc : c = sep
    · simp only [cutFirst, hc, if_true, Option.some.injEq, Prod.mk.injEq] at h
      obtain ⟨rfl, rfl⟩ := h
      simp [hc]
    · simp only [cutFirst, hc, if_false, Option.map_eq_some_iff] at h
      obtain ⟨⟨f, b⟩, hf, heq⟩ := h
      obtain ⟨rfl, rfl⟩ := Prod.mk.injEq .. ▸ heq
      obtain ⟨rfl, hn⟩ := ih hf
      exact ⟨rfl, by simp [hn, Ne.symm hc]⟩

theorem cutFirst_append {sep : Char} {front : List Char} (h : sep ∉ front) (back : List Char) :
    cutFirst sep (front ++ sep :: back) = some (front, back) := by
  induction front with
  | nil => simp [cutFirst]
  | cons c front ih =>
    have hc : c ≠ sep := (List.ne_of_not_mem_cons h).symm
    rw [List.cons_append, cutFirst, if_neg hc, ih (List.not_mem_of_not_mem_cons h)]
    rfl

/-- The first cut is the one with no separator in front of it. -/
theorem cutFirst_eq_some_iff {sep : Char} {cs front back : List Char} :
    cutFirst sep cs = some (front, back) ↔ cs = front ++ sep :: back ∧ sep ∉ front := by
  refine ⟨append_of_cutFirst, ?_⟩
  rintro ⟨rfl, h⟩
  exact cutFirst_append h back

theorem cutLast_eq_none_iff {sep : Char} {cs : List Char} :
    cutLast sep cs = none ↔ sep ∉ cs := by
  induction cs with
  | nil => simp [cutLast]
  | cons c cs ih =>
    cases hcut : cutLast sep cs with
    | some parts =>
      have : sep ∈ cs := by
        by_cases hm : sep ∈ cs
        · exact hm
        · rw [ih.2 hm] at hcut; simp at hcut
      simp [cutLast, hcut, this]
    | none =>
      have hn := ih.1 hcut
      by_cases h : c = sep
      · simp [cutLast, hcut, h]
      · simp [cutLast, hcut, h, hn, Ne.symm h]

theorem append_of_cutLast {sep : Char} {cs front back : List Char}
    (h : cutLast sep cs = some (front, back)) : cs = front ++ sep :: back ∧ sep ∉ back := by
  induction cs generalizing front with
  | nil => simp [cutLast] at h
  | cons c cs ih =>
    cases hcut : cutLast sep cs with
    | some parts =>
      simp only [cutLast, hcut, Option.some.injEq, Prod.mk.injEq] at h
      obtain ⟨rfl, rfl⟩ := h
      obtain ⟨rfl, hn⟩ := ih hcut
      exact ⟨rfl, hn⟩
    | none =>
      by_cases hc : c = sep
      · simp only [cutLast, hcut, hc, if_true, Option.some.injEq, Prod.mk.injEq] at h
        obtain ⟨rfl, rfl⟩ := h
        exact ⟨by simp [hc], cutLast_eq_none_iff.1 hcut⟩
      · simp [cutLast, hcut, hc] at h

theorem cutLast_append {sep : Char} {back : List Char} (h : sep ∉ back) (front : List Char) :
    cutLast sep (front ++ sep :: back) = some (front, back) := by
  induction front with
  | nil =>
    rw [List.nil_append, cutLast, cutLast_eq_none_iff.2 h]
    exact if_pos rfl
  | cons c front ih => rw [List.cons_append, cutLast, ih]

/-- The last cut is the one with no separator behind it. -/
theorem cutLast_eq_some_iff {sep : Char} {cs front back : List Char} :
    cutLast sep cs = some (front, back) ↔ cs = front ++ sep :: back ∧ sep ∉ back := by
  refine ⟨append_of_cutLast, ?_⟩
  rintro ⟨rfl, h⟩
  exact cutLast_append h front

/-! ## ASCII case -/

/-- Capital ASCII letters made small; every other character stays. -/
def lowerAscii (s : String) : String := String.ofList (s.toList.map Char.toLower)

/-- There is no white space from the first capital ASCII letter to the last small one. -/
theorem isWhiteSpace_of_ascii_letter {c : Char} (hlow : 65 ≤ c.toNat) (hhigh : c.toNat ≤ 122) :
    isWhiteSpace c = false := by
  have hapart : whiteSpaceRanges.all (fun blank => blank.2 < 65 || 122 < blank.1) = true := by
    decide
  refine Bool.eq_false_iff.2 fun h => ?_
  obtain ⟨blank, hblank, hc⟩ := List.any_eq_true.1 h
  have hoff := List.all_eq_true.1 hapart blank hblank
  simp only [Bool.and_eq_true, Bool.or_eq_true, decide_eq_true_eq] at hc hoff
  omega

theorem isWhiteSpace_toLower (c : Char) : isWhiteSpace c.toLower = isWhiteSpace c := by
  by_cases hcapital : c.val ≥ 'A'.val ∧ c.val ≤ 'Z'.val
  · have hlow : 65 ≤ c.toNat := hcapital.1
    have hhigh : c.toNat ≤ 90 := hcapital.2
    have hsmall : c.toLower.toNat = c.toNat + 32 := by
      have hword : c.toNat + 32 < UInt32.size := by
        have hsize : UInt32.size = 4294967296 := rfl
        omega
      have hshifted : c.toLower.val = c.val + 32 := congrArg Char.val (dif_pos hcapital)
      show c.toLower.val.toNat = _
      rw [hshifted]
      exact (UInt32.toNat_add ..).trans (Nat.mod_eq_of_lt hword)
    rw [isWhiteSpace_of_ascii_letter hlow (by omega),
      isWhiteSpace_of_ascii_letter (c := c.toLower) (by omega) (by omega)]
  · exact congrArg isWhiteSpace (dif_neg hcapital)

/-- The case of letters does not matter to trimming. -/
theorem trim_lowerAscii (s : String) : trim (lowerAscii s) = lowerAscii (trim s) := by
  have hstart : ∀ cs : List Char, (cs.map Char.toLower).dropWhile isWhiteSpace
      = (cs.dropWhile isWhiteSpace).map Char.toLower := by
    intro cs
    have hcase : isWhiteSpace ∘ Char.toLower = isWhiteSpace := funext isWhiteSpace_toLower
    rw [List.dropWhile_map, hcase]
  unfold trim lowerAscii trimList trimEnd trimStart
  simp only [String.toList_ofList, hstart, ← List.map_reverse]

end HarvestSearch.Text
