/-
Indented text, read again.

`Json.pretty` writes the members of an object as they stand, with blanks around them, as
`serde_json::to_string_pretty` does, and `parse?`, which stands for `serde_json::from_str`, puts
them in the order of their names. So what is read is `Json.sorted`: the value that was written, with
the members of every object in it in name order. `parse?_pretty` says so of every value whose whole
numbers are words, that holds no doubles, and that is not too deep (`Plain`).

The text of a value is followed by the text of its container, so nothing is proved about whole texts
before the end: `ReadAs` speaks of a text in front of any other that does not go on with a number.
The steps of the recursion are bounded by twice the length of all there is to read, which every part
of a container keeps.
-/
import HarvestSearch.Json.Parser
import HarvestSearch.Json.Printer

set_option autoImplicit false

namespace HarvestSearch.Json

/-! ## Blanks -/

theorem skipBlanks_append {blanks : List Char} (h : ∀ c ∈ blanks, isBlankChar c = true)
    (cs : List Char) : skipBlanks (blanks ++ cs) = skipBlanks cs :=
  List.dropWhile_append_of_pos h

theorem skipBlanks_cons {c : Char} (h : isBlankChar c = false) (cs : List Char) :
    skipBlanks (c :: cs) = c :: cs := by
  unfold skipBlanks
  rw [List.dropWhile_cons, h]
  rfl

theorem skipBlanks_skipBlanks (cs : List Char) : skipBlanks (skipBlanks cs) = skipBlanks cs := by
  induction cs with
  | nil => rfl
  | cons c cs ih =>
    cases hc : isBlankChar c with
    | true =>
      have hskip : skipBlanks (c :: cs) = skipBlanks cs := List.dropWhile_cons_of_pos hc
      rw [hskip, ih]
    | false => rw [skipBlanks_cons hc, skipBlanks_cons hc]

/-! ## Numbers -/

/-- The text does not go on with a number. -/
def EndsNumber (rest : List Char) : Prop :=
  ∀ c ∈ rest.head?, c.isDigit = false ∧ c ≠ '.' ∧ c ≠ 'e' ∧ c ≠ 'E'

theorem takeWhile_digits {digits rest : List Char} (hdigits : ∀ c ∈ digits, c.isDigit = true)
    (hrest : EndsNumber rest) : (digits ++ rest).takeWhile Char.isDigit = digits := by
  have hnone : rest.takeWhile Char.isDigit = [] := by
    cases rest with
    | nil => rfl
    | cons c rest =>
      rw [List.takeWhile_cons, (hrest c rfl).1]
      rfl
  rw [List.takeWhile_append_of_pos hdigits, hnone, List.append_nil]

theorem dropWhile_digits {digits rest : List Char} (hdigits : ∀ c ∈ digits, c.isDigit = true)
    (hrest : EndsNumber rest) : (digits ++ rest).dropWhile Char.isDigit = rest := by
  rw [List.dropWhile_append_of_pos hdigits]
  cases rest with
  | nil => rfl
  | cons c rest =>
    rw [List.dropWhile_cons, (hrest c rfl).1]
    rfl

theorem le_ofDigitChars (digits : List Char) :
    ∀ word : Nat, word ≤ Nat.ofDigitChars 10 digits word := by
  induction digits with
  | nil => exact fun word => Nat.le_refl word
  | cons c digits ih =>
    intro word
    have hnext : 10 * word + digitValue c ≤ Nat.ofDigitChars 10 (c :: digits) word := ih _
    omega

/-- Digits that stand for a word are gathered to the last. -/
theorem gather_of_le (digits : List Char) : ∀ {word taken : Nat},
    Nat.ofDigitChars 10 digits word ≤ maxWord →
      gather word taken digits = (Nat.ofDigitChars 10 digits word, taken + digits.length) := by
  induction digits with
  | nil => exact fun _ => rfl
  | cons c digits ih =>
    intro word taken h
    have hrest : Nat.ofDigitChars 10 digits (10 * word + digitValue c) ≤ maxWord := h
    have hnext : 10 * word + digitValue c ≤ maxWord :=
      Nat.le_trans (le_ofDigitChars digits _) hrest
    rw [gather]
    simp only [if_pos hnext, ih hrest, List.length_cons]
    exact congrArg (Prod.mk _) (by omega)

/-- Only the digits of zero begin with a zero. -/
theorem head?_toDigits_ne {n : Nat} (h : n ≠ 0) : (Nat.toDigits 10 n).head? ≠ some '0' := by
  induction n using Nat.strongRecOn with
  | ind n ih =>
    by_cases hlt : n < 10
    · rw [Nat.toDigits_of_lt_base hlt, List.head?_cons, Ne, Option.some_inj, Nat.digitChar_eq_zero]
      exact h
    · -- the first digit is that of the number without its last digit
      have hquotient : (Nat.toDigits 10 (n / 10)).head? ≠ some '0' :=
        ih (n / 10) (by omega) (by omega)
      rw [Nat.toDigits_of_base_le (by decide) (by omega), List.head?_append]
      cases hdigits : Nat.toDigits 10 (n / 10) with
      | nil => exact absurd hdigits Nat.toDigits_ne_nil
      | cons c digits => rwa [hdigits] at hquotient

theorem fraction?_of_ends {rest : List Char} (h : EndsNumber rest) :
    fraction? rest = some (none, rest) := by
  unfold fraction?
  split
  · exact absurd rfl (h _ rfl).2.1
  · rfl

theorem exponent?_of_ends {rest : List Char} (h : EndsNumber rest) :
    exponent? rest = some (none, rest) := by
  cases rest with
  | nil => rfl
  | cons c rest =>
    obtain ⟨-, -, he, hE⟩ := h c rfl
    have hletter : (c == 'e' || c == 'E') = false := by
      rw [beq_false_of_ne he, beq_false_of_ne hE, Bool.or_false]
    simp only [exponent?, hletter, Bool.false_eq_true, if_false]

/-- The digits of a word are read as the word. -/
theorem number?_toDigits {n : Nat} (hn : n ≤ maxWord) (negative : Bool) {rest : List Char}
    (hrest : EndsNumber rest) : number? negative (Nat.toDigits 10 n ++ rest)
      = (wordNumber negative n).map (·, rest) := by
  have hdigits : ∀ c ∈ Nat.toDigits 10 n, c.isDigit = true := fun c hc =>
    Nat.isDigit_of_mem_toDigits (by decide) (by decide) hc
  have hword : Nat.ofDigitChars 10 (Nat.toDigits 10 n) 0 = n := Nat.ofDigitChars_ten_toDigits
  have hgather : gather 0 0 (Nat.toDigits 10 n) = (n, (Nat.toDigits 10 n).length) := by
    rw [gather_of_le _ (by rw [hword]; exact hn), hword, Nat.zero_add]
  have hzero :
      ((Nat.toDigits 10 n).head? == some '0' && (Nat.toDigits 10 n).length != 1) = false := by
    by_cases h : n = 0
    · rw [h]
      rfl
    · rw [beq_false_of_ne (head?_toDigits_ne h), Bool.false_and]
  have hempty : (Nat.toDigits 10 n).isEmpty = false := by
    rw [List.isEmpty_eq_false_iff]
    exact Nat.toDigits_ne_nil
  unfold number?
  simp only [takeWhile_digits hdigits hrest, dropWhile_digits hdigits hrest, hempty, hzero,
    fraction?_of_ends hrest, Option.bind_eq_bind, Option.bind_some, exponent?_of_ends hrest,
    hgather]
  cases wordNumber negative n <;> simp

/-! ## Strings -/

theorem hexValue?_digits : ∀ n < 32,
    hexValue? [Nat.digitChar (n / 4096 % 16), Nat.digitChar (n / 256 % 16),
      Nat.digitChar (n / 16 % 16), Nat.digitChar (n % 16)] = some n := by
  decide

/-- A control character is read from its code. -/
theorem stringFrom?_unicodeEscape {c : Char} (hc : c.toNat < 32) (before cs : List Char) :
    stringFrom? before (unicodeEscape c ++ cs) = stringFrom? (c :: before) cs := by
  have hhigh : isHighHalf c.toNat = false := by
    rw [isHighHalf, decide_eq_false (by omega), Bool.false_and]
  have hlow : isLowHalf c.toNat = false := by
    rw [isLowHalf, decide_eq_false (by omega), Bool.false_and]
  simp only [unicodeEscape, List.cons_append, List.nil_append]
  rw [stringFrom?]
  simp only [hexValue?_digits c.toNat hc, hhigh, hlow, Bool.false_eq_true, if_false,
    Char.ofNat_toNat]

theorem stringFrom?_of_plain {c : Char} (hquote : c ≠ '"') (hslash : c ≠ '\\')
    (hcode : ¬c.toNat < 32) (before cs : List Char) :
    stringFrom? before (c :: cs) = stringFrom? (c :: before) cs := by
  have hplain : (c.toNat < 32 || c == '\\') = false := by
    rw [beq_false_of_ne hslash, decide_eq_false hcode, Bool.or_false]
  rw [stringFrom?]
  · rw [hplain]
    rfl
  all_goals simp [hquote, hslash]

/-- A character inside quotes is read as it was, whatever is before it and behind. -/
theorem stringFrom?_escapeChar (c : Char) (before cs : List Char) :
    stringFrom? before (escapeChar c ++ cs) = stringFrom? (c :: before) cs := by
  have hcode : ∀ {n : Nat}, c.toNat = n → c = Char.ofNat n := fun h => by
    rw [← h, Char.ofNat_toNat]
  unfold escapeChar
  -- the characters with an escape of their own first, in the order of the definition
  by_cases hquote : c = '"'
  · rw [hquote]
    rfl
  by_cases hslash : c = '\\'
  · rw [hslash]
    rfl
  by_cases hline : c = '\n'
  · rw [hline]
    rfl
  by_cases hreturn : c = '\r'
  · rw [hreturn]
    rfl
  by_cases htab : c = '\t'
  · rw [htab]
    rfl
  by_cases hback : c.toNat = 8
  · rw [hcode hback]
    rfl
  by_cases hfeed : c.toNat = 12
  · rw [hcode hfeed]
    rfl
  by_cases hcontrol : c.toNat < 32
  · simp only [hquote, hslash, hline, hreturn, htab, hback, hfeed, hcontrol, if_true, if_false]
    exact stringFrom?_unicodeEscape hcontrol before cs
  · simp only [hquote, hslash, hline, hreturn, htab, hback, hfeed, hcontrol, if_false]
    exact stringFrom?_of_plain hquote hslash hcontrol before cs

theorem stringFrom?_flatMap (s rest before : List Char) :
    stringFrom? before (s.flatMap escapeChar ++ '"' :: rest)
      = some (String.ofList (before.reverse ++ s), rest) := by
  induction s generalizing before with
  | nil =>
    rw [List.append_nil]
    rfl
  | cons c s ih =>
    rw [List.flatMap_cons, List.append_assoc, stringFrom?_escapeChar, ih, List.reverse_cons,
      List.append_assoc, List.singleton_append]

theorem toList_quote (s : String) :
    (quote s).toList = '"' :: (s.toList.flatMap escapeChar ++ ['"']) := String.toList_ofList

/-- A string is read as it was written. -/
theorem string?_quote (s : String) (rest : List Char) :
    string? ((quote s).toList ++ rest) = some (s, rest) := by
  rw [toList_quote, List.cons_append, List.append_assoc, List.singleton_append]
  show stringFrom? [] _ = _
  rw [stringFrom?_flatMap, List.reverse_nil, List.nil_append, String.ofList_toList]

theorem skipBlanks_quote (s : String) (rest : List Char) :
    skipBlanks ((quote s).toList ++ rest) = (quote s).toList ++ rest := by
  rw [toList_quote]
  exact skipBlanks_cons rfl _

/-! ## Values in front of other text -/

/-- The text is read as the value, whatever follows, unless a number would go on there. Twice the
length of all there is to read bounds the steps. -/
def ReadAs (depth : Nat) (text : List Char) (value : Json) : Prop :=
  ∀ (steps : Nat) (rest : List Char), EndsNumber rest → 2 * (text ++ rest).length ≤ steps →
    valueFrom? steps depth (text ++ rest) = some (value, rest)

/-- A text is read if it is read with any step left. -/
theorem readAs_of_succ {depth : Nat} {text : List Char} {value : Json} (hne : text ≠ [])
    (h : ∀ (steps : Nat) (rest : List Char), EndsNumber rest →
      2 * (text ++ rest).length ≤ steps + 1 →
        valueFrom? (steps + 1) depth (text ++ rest) = some (value, rest)) :
    ReadAs depth text value := by
  intro steps rest hrest hsteps
  have hpositive : steps ≠ 0 := by
    have hlength : text.length ≠ 0 := fun hzero => hne (List.length_eq_zero_iff.1 hzero)
    rw [List.length_append] at hsteps
    omega
  obtain ⟨steps, rfl⟩ := Nat.exists_eq_succ_of_ne_zero hpositive
  exact h steps rest hrest hsteps

/-! ### Leaves -/

theorem readAs_null (depth : Nat) : ReadAs depth "null".toList .null :=
  readAs_of_succ (by decide) fun _ _ _ _ => rfl

theorem readAs_bool (depth : Nat) (b : Bool) : ReadAs depth (boolText b).toList (.bool b) := by
  cases b with
  | true => exact readAs_of_succ (by decide) fun _ _ _ _ => rfl
  | false => exact readAs_of_succ (by decide) fun _ _ _ _ => rfl

theorem readAs_quote (depth : Nat) (s : String) : ReadAs depth (quote s).toList (.string s) := by
  refine readAs_of_succ (by simp [toList_quote]) fun steps rest _ _ => ?_
  have hread : stringFrom? [] (s.toList.flatMap escapeChar ++ ['"'] ++ rest) = some (s, rest) := by
    rw [← string?_quote s rest, toList_quote]
    rfl
  rw [toList_quote, List.cons_append, valueFrom?, skipBlanks_cons rfl]
  show (stringFrom? [] (s.toList.flatMap escapeChar ++ ['"'] ++ rest)).map _ = _
  rw [hread]
  rfl

/-- A digit begins a number. -/
theorem valueFrom?_of_isDigit {c : Char} (hc : c.isDigit = true) (steps depth : Nat)
    (cs : List Char) : valueFrom? (steps + 1) depth (c :: cs) = number? false (c :: cs) := by
  have hne : ∀ other : Char, other.isDigit = false → c ≠ other := by
    rintro other hother rfl
    rw [hc] at hother
    exact Bool.noConfusion hother
  have hblank : isBlankChar c = false := by
    simp [isBlankChar, hne ' ' rfl, hne '\n' rfl, hne '\t' rfl, hne '\r' rfl]
  rw [valueFrom?, skipBlanks_cons hblank]
  simp only [hne 'n' rfl, hne 't' rfl, hne 'f' rfl, hne '"' rfl, hne '-' rfl, hc, if_true, if_false]

/-- The whole numbers that are kept: words and signed words. -/
def InWords (n : Int) : Prop := -(signedMagnitude : Int) ≤ n ∧ n ≤ maxWord

theorem readAs_intText (depth : Nat) {n : Int} (hn : InWords n) :
    ReadAs depth (intText n).toList (.int n) := by
  obtain ⟨hlow, hhigh⟩ := hn
  cases n with
  | ofNat n =>
    have hne : Nat.toDigits 10 n ≠ [] := Nat.toDigits_ne_nil
    obtain ⟨c, digits, hdigits⟩ := List.exists_cons_of_ne_nil hne
    have hc : c.isDigit = true :=
      Nat.isDigit_of_mem_toDigits (n := n) (by decide) (by decide) (hdigits ▸ List.mem_cons_self)
    rw [intText, String.toList_ofList, hdigits]
    refine readAs_of_succ (List.cons_ne_nil _ _) fun steps rest hrest _ => ?_
    have hread := number?_toDigits (Int.ofNat_le.1 hhigh) false hrest
    rw [hdigits] at hread
    rw [List.cons_append, valueFrom?_of_isDigit hc]
    exact hread
  | negSucc n =>
    have hword : wordNumber true (n + 1) = some (.int (.negSucc n)) := by
      have hsmall : ¬(n + 1 = 0 ∨ signedMagnitude < n + 1) := by omega
      rw [wordNumber, if_neg (by decide), if_neg hsmall]
      rfl
    have hfits : n + 1 ≤ maxWord := by
      have hle : signedMagnitude ≤ maxWord := by decide
      omega
    rw [intText, String.toList_ofList]
    refine readAs_of_succ (List.cons_ne_nil _ _) fun steps rest hrest _ => ?_
    have hread := number?_toDigits hfits true hrest
    rw [hword] at hread
    rw [List.cons_append, valueFrom?, skipBlanks_cons rfl]
    exact hread

/-! ### The parts of a container -/

/-- Blanks in front of a value do not count. -/
theorem valueFrom?_congr {cs other : List Char} (h : skipBlanks cs = skipBlanks other)
    (steps depth : Nat) : valueFrom? steps depth cs = valueFrom? steps depth other := by
  cases steps with
  | zero => rfl
  | succ steps => rw [valueFrom?, valueFrom?, h]

theorem itemsFrom?_congr {cs other : List Char} (h : skipBlanks cs = skipBlanks other)
    (steps depth : Nat) (before : List Json) :
    itemsFrom? steps depth before cs = itemsFrom? steps depth before other := by
  cases steps with
  | zero => rfl
  | succ steps => rw [itemsFrom?, itemsFrom?, valueFrom?_congr h]

theorem membersFrom?_congr {cs other : List Char} (h : skipBlanks cs = skipBlanks other)
    (steps depth : Nat) (before : FieldMap Json) :
    membersFrom? steps depth before cs = membersFrom? steps depth before other := by
  cases steps with
  | zero => rfl
  | succ steps => rw [membersFrom?, membersFrom?, h]

/-- The text behind the first part: the other parts, each behind a comma and blanks, and the end. -/
def behindFirst (blanks ending : List Char) : List String → List Char
  | [] => ending
  | part :: parts => ',' :: (blanks ++ (part.toList ++ behindFirst blanks ending parts))

theorem toList_intercalate_append (blanks : String) (ending : List Char) (parts : List String) :
    ∀ part : String, (("," ++ blanks).intercalate (part :: parts)).toList ++ ending
      = part.toList ++ behindFirst blanks.toList ending parts := by
  induction parts with
  | nil => exact fun _ => rfl
  | cons next parts ih =>
    intro part
    rw [String.intercalate_cons_cons, String.toList_append, String.toList_append,
      String.toList_append, List.append_assoc, ih next, behindFirst]
    simp

/-- The end of a container, or the comma in front of its next part, ends a number. -/
theorem endsNumber_behindFirst {blanks ending : List Char} (hends : EndsNumber ending)
    (parts : List String) : EndsNumber (behindFirst blanks ending parts) := by
  cases parts with
  | nil => exact hends
  | cons part parts =>
    rintro c ⟨⟩
    decide

section

variable {steps depth : Nat} {cs ending rest : List Char}

theorem itemsFrom?_last {item : Json} (hitem : valueFrom? steps depth cs = some (item, ending))
    (hending : skipBlanks ending = ']' :: rest) (before : List Json) :
    itemsFrom? (steps + 1) depth before cs = some (.array (before.reverse ++ [item]), rest) := by
  rw [itemsFrom?, hitem]
  simp only [hending, List.reverse_cons]

theorem itemsFrom?_next {item : Json} (hitem : valueFrom? steps depth cs = some (item, ',' :: rest))
    (before : List Json) :
    itemsFrom? (steps + 1) depth before cs = itemsFrom? steps depth (item :: before) rest := by
  rw [itemsFrom?, hitem]
  simp only [skipBlanks_cons (c := ',') rfl]

theorem membersFrom?_last {key : String} {value : Json}
    (hvalue : valueFrom? steps depth cs = some (value, ending))
    (hending : skipBlanks ending = '}' :: rest) (before : FieldMap Json) :
    membersFrom? (steps + 1) depth before ((quote key).toList ++ ':' :: ' ' :: cs)
      = some (ofMap (before.insert key value), rest) := by
  have hblank : skipBlanks (' ' :: cs) = skipBlanks cs := rfl
  rw [membersFrom?, skipBlanks_quote, string?_quote]
  simp only [skipBlanks_cons (c := ':') rfl, valueFrom?_congr hblank, hvalue, hending]

theorem membersFrom?_next {key : String} {value : Json}
    (hvalue : valueFrom? steps depth cs = some (value, ',' :: rest)) (before : FieldMap Json) :
    membersFrom? (steps + 1) depth before ((quote key).toList ++ ':' :: ' ' :: cs)
      = membersFrom? steps depth (before.insert key value) rest := by
  have hblank : skipBlanks (' ' :: cs) = skipBlanks cs := rfl
  rw [membersFrom?, skipBlanks_quote, string?_quote]
  simp only [skipBlanks_cons (c := ':') rfl, valueFrom?_congr hblank, hvalue,
    skipBlanks_cons (c := ',') rfl]

end

section

variable {depth : Nat} {blanks ending rest : List Char} {text : Json → String}
  {value : Json → Json}

/-- The items of an array are read one after the other, if each of them is. -/
theorem itemsFrom?_behindFirst (hblanks : ∀ cs, skipBlanks (blanks ++ cs) = skipBlanks cs)
    (hending : skipBlanks ending = ']' :: rest) (hends : EndsNumber ending) (items : List Json) :
    ∀ {item : Json}, (∀ other ∈ item :: items, ReadAs depth (text other).toList (value other)) →
      ∀ (steps : Nat) (before : List Json),
        2 * ((text item).toList ++ behindFirst blanks ending (items.map text)).length < steps →
          itemsFrom? steps depth before
              ((text item).toList ++ behindFirst blanks ending (items.map text))
            = some (.array (before.reverse ++ (item :: items).map value), rest) := by
  induction items with
  | nil =>
    intro item hread steps before hsteps
    obtain ⟨steps, rfl⟩ := Nat.exists_eq_succ_of_ne_zero (Nat.ne_zero_of_lt hsteps)
    have hitem := hread item List.mem_cons_self steps ending hends (Nat.le_of_lt_succ hsteps)
    exact itemsFrom?_last hitem hending before
  | cons next items ih =>
    intro item hread steps before hsteps
    obtain ⟨steps, rfl⟩ := Nat.exists_eq_succ_of_ne_zero (Nat.ne_zero_of_lt hsteps)
    have hitem := hread item List.mem_cons_self steps _
      (endsNumber_behindFirst hends ((next :: items).map text)) (Nat.le_of_lt_succ hsteps)
    have hshorter :
        2 * ((text next).toList ++ behindFirst blanks ending (items.map text)).length < steps := by
      simp only [List.map_cons, behindFirst, List.length_append, List.length_cons] at hsteps ⊢
      omega
    have hrest := fun other hother => hread other (List.mem_cons_of_mem item hother)
    rw [itemsFrom?_next hitem, itemsFrom?_congr (hblanks _),
      ih hrest _ _ hshorter, List.reverse_cons, List.append_assoc]
    rfl

/-- The line of a member. -/
def memberText (text : Json → String) (e : String × Json) : String := quote e.1 ++ ": " ++ text e.2

theorem toList_memberText_append (e : String × Json) (cs : List Char) :
    (memberText text e).toList ++ cs
      = (quote e.1).toList ++ ':' :: ' ' :: ((text e.2).toList ++ cs) := by
  rw [memberText, String.toList_append, String.toList_append, List.append_assoc, List.append_assoc]
  rfl

/-- The members of an object are read one after the other, if the value of each of them is. -/
theorem membersFrom?_behindFirst (hblanks : ∀ cs, skipBlanks (blanks ++ cs) = skipBlanks cs)
    (hending : skipBlanks ending = '}' :: rest) (hends : EndsNumber ending)
    (members : List (String × Json)) :
    ∀ {member : String × Json},
      (∀ e ∈ member :: members, ReadAs depth (text e.2).toList (value e.2)) →
        ∀ (steps : Nat) (before : FieldMap Json),
          2 * ((memberText text member).toList
              ++ behindFirst blanks ending (members.map (memberText text))).length < steps →
            membersFrom? steps depth before ((memberText text member).toList
                ++ behindFirst blanks ending (members.map (memberText text)))
              = some (ofMap (before.insertAll ((member :: members).map fun e => (e.1, value e.2))),
                  rest) := by
  induction members with
  | nil =>
    intro member hread steps before hsteps
    obtain ⟨steps, rfl⟩ := Nat.exists_eq_succ_of_ne_zero (Nat.ne_zero_of_lt hsteps)
    rw [toList_memberText_append] at hsteps ⊢
    have hshorter : 2 * ((text member.2).toList ++ ending).length ≤ steps := by
      simp only [List.map_nil, behindFirst, List.length_append, List.length_cons] at hsteps ⊢
      omega
    have hvalue := hread member List.mem_cons_self steps ending hends hshorter
    exact membersFrom?_last hvalue hending before
  | cons next members ih =>
    intro member hread steps before hsteps
    obtain ⟨steps, rfl⟩ := Nat.exists_eq_succ_of_ne_zero (Nat.ne_zero_of_lt hsteps)
    rw [toList_memberText_append] at hsteps ⊢
    have hshorter : 2 * ((text member.2).toList
          ++ behindFirst blanks ending ((next :: members).map (memberText text))).length
        ≤ steps := by
      simp only [List.length_append, List.length_cons] at hsteps ⊢
      omega
    have hvalue := hread member List.mem_cons_self steps _
      (endsNumber_behindFirst hends ((next :: members).map (memberText text))) hshorter
    have hnext : 2 * ((memberText text next).toList
          ++ behindFirst blanks ending (members.map (memberText text))).length < steps := by
      simp only [List.map_cons, behindFirst, List.length_append, List.length_cons] at hsteps ⊢
      omega
    have hrest := fun e he => hread e (List.mem_cons_of_mem member he)
    rw [membersFrom?_next hvalue, membersFrom?_congr (hblanks _), ih hrest _ _ hnext]
    rfl

end

/-! ### Containers -/

/-- Items that are read make an array behind its bracket. No item begins with a closing one. -/
theorem valueFrom?_of_itemsFrom? {steps depth : Nat} {cs : List Char} {read : Json × List Char}
    (h : itemsFrom? steps depth [] cs = some read) :
    valueFrom? (steps + 1) (depth + 1) ('[' :: cs) = some read := by
  have hopen : ∀ rest, skipBlanks cs ≠ ']' :: rest := by
    intro rest heq
    cases steps with
    | zero => cases h
    | succ steps =>
      cases steps with
      | zero => cases h
      | succ steps =>
        rw [itemsFrom?, valueFrom?, heq] at h
        cases h
  have hitems : itemsFrom? steps depth [] (skipBlanks cs) = some read :=
    (itemsFrom?_congr (skipBlanks_skipBlanks cs) steps depth []).trans h
  rw [valueFrom?, skipBlanks_cons rfl]
  -- the closing bracket that `hopen` rules out would end the value here
  simp only [Char.reduceEq, Char.reduceIsDigit, Bool.false_eq_true, if_true, if_false]
  exact hitems

theorem valueFrom?_of_membersFrom? {steps depth : Nat} {cs : List Char} {read : Json × List Char}
    (h : membersFrom? steps depth .empty cs = some read) :
    valueFrom? (steps + 1) (depth + 1) ('{' :: cs) = some read := by
  have hopen : ∀ rest, skipBlanks cs ≠ '}' :: rest := by
    intro rest heq
    cases steps with
    | zero => cases h
    | succ steps =>
      rw [membersFrom?, heq] at h
      cases h
  have hmembers : membersFrom? steps depth .empty (skipBlanks cs) = some read :=
    (membersFrom?_congr (skipBlanks_skipBlanks cs) steps depth .empty).trans h
  rw [valueFrom?, skipBlanks_cons rfl]
  simp only [Char.reduceEq, Char.reduceIsDigit, Bool.false_eq_true, if_true, if_false]
  exact hmembers

theorem skipBlanks_newLine (depth : Nat) (cs : List Char) :
    skipBlanks ((newLine depth).toList ++ cs) = skipBlanks cs := by
  refine skipBlanks_append (fun c h => ?_) cs
  rw [newLine, String.toList_append] at h
  rcases List.mem_append.1 h with h | h
  · rw [List.mem_singleton.1 h]
    rfl
  · rw [String.toList_ofList] at h
    rw [(List.mem_replicate.1 h).2]
    rfl

theorem toList_block_append (opening closing : String) (depth : Nat) (part : String)
    (parts : List String) (rest : List Char) :
    (block opening closing depth (part :: parts)).toList ++ rest
      = opening.toList ++ ((newLine (depth + 1)).toList ++ (part.toList
          ++ behindFirst (newLine (depth + 1)).toList
            ((newLine depth).toList ++ (closing.toList ++ rest)) parts)) := by
  rw [← toList_intercalate_append]
  simp [block]

/-- What stands behind the last part of a container. -/
theorem endsNumber_newLine (depth : Nat) (cs : List Char) :
    EndsNumber ((newLine depth).toList ++ cs) := by
  rw [newLine, String.toList_append, List.append_assoc]
  rintro c ⟨⟩
  decide

/-- An array is read if its items are. -/
theorem readAs_array {depth indent : Nat} {text : Json → String} {value : Json → Json}
    {items : List Json} (h : ∀ item ∈ items, ReadAs depth (text item).toList (value item)) :
    ReadAs (depth + 1) (block "[" "]" indent (items.map text)).toList
      (.array (items.map value)) := by
  cases items with
  | nil =>
    show ReadAs (depth + 1) ("[" ++ "]").toList (.array [])
    rw [String.toList_append]
    exact readAs_of_succ (List.cons_ne_nil '[' [']']) fun _ _ _ _ => rfl
  | cons item items =>
    refine readAs_of_succ (by simp [block]) fun steps rest _ hsteps => ?_
    have hending : skipBlanks ((newLine indent).toList ++ ("]".toList ++ rest)) = ']' :: rest :=
      skipBlanks_newLine indent _
    have hparts := itemsFrom?_behindFirst (skipBlanks_newLine (indent + 1)) hending
      (endsNumber_newLine indent _) items h steps []
    rw [List.map_cons, toList_block_append] at hsteps ⊢
    refine valueFrom?_of_itemsFrom? ((itemsFrom?_congr (skipBlanks_newLine _ _) _ _ _).trans ?_)
    refine hparts ?_
    rw [List.length_append, List.length_append] at hsteps
    have hopening : "[".toList.length = 1 := rfl
    omega

/-- An object is read if the values of its members are. -/
theorem readAs_object {depth indent : Nat} {text : Json → String} {value : Json → Json}
    {members : List (String × Json)}
    (h : ∀ e ∈ members, ReadAs depth (text e.2).toList (value e.2)) :
    ReadAs (depth + 1) (block r"{" r"}" indent (members.map (memberText text))).toList
      (.ofMembers (members.map fun e => (e.1, value e.2))) := by
  cases members with
  | nil =>
    show ReadAs (depth + 1) (r"{" ++ r"}").toList (.object [])
    rw [String.toList_append]
    exact readAs_of_succ (List.cons_ne_nil '{' ['}']) fun _ _ _ _ => rfl
  | cons member members =>
    refine readAs_of_succ (by simp [block]) fun steps rest _ hsteps => ?_
    have hending : skipBlanks ((newLine indent).toList ++ (r"}".toList ++ rest)) = '}' :: rest :=
      skipBlanks_newLine indent _
    have hparts := membersFrom?_behindFirst (skipBlanks_newLine (indent + 1)) hending
      (endsNumber_newLine indent _) members h steps .empty
    rw [List.map_cons, toList_block_append] at hsteps ⊢
    refine valueFrom?_of_membersFrom?
      ((membersFrom?_congr (skipBlanks_newLine _ _) _ _ _).trans ?_)
    refine hparts ?_
    rw [List.length_append, List.length_append] at hsteps
    have hopening : r"{".toList.length = 1 := rfl
    omega

/-! ## Whole values -/

mutual

/-- The value, with the members of every object in it in the order of their names. Of a repeated
name the last value counts. -/
def sorted : Json → Json
  | .array items => .array (sortedItems items)
  | .object members => .ofMembers (sortedMembers members)
  | leaf => leaf

def sortedItems : List Json → List Json
  | [] => []
  | item :: items => item.sorted :: sortedItems items

def sortedMembers : List (String × Json) → List (String × Json)
  | [] => []
  | (key, value) :: members => (key, value.sorted) :: sortedMembers members

end

theorem sortedItems_eq_map (items : List Json) : sortedItems items = items.map sorted := by
  induction items with
  | nil => rfl
  | cons item items ih => rw [sortedItems, ih, List.map_cons]

theorem sortedMembers_eq_map (members : List (String × Json)) :
    sortedMembers members = members.map fun e => (e.1, e.2.sorted) := by
  induction members with
  | nil => rfl
  | cons e members ih =>
    obtain ⟨key, value⟩ := e
    rw [sortedMembers, ih, List.map_cons]

@[simp] theorem sorted_array (items : List Json) :
    (Json.array items).sorted = .array (items.map sorted) := by
  rw [sorted, sortedItems_eq_map]

@[simp] theorem sorted_object (members : List (String × Json)) :
    (Json.object members).sorted = .ofMembers (members.map fun e => (e.1, e.2.sorted)) := by
  rw [sorted, sortedMembers_eq_map]

theorem prettyItems_eq_map (depth : Nat) (items : List Json) :
    prettyItems depth items = items.map (prettyAt depth) := by
  induction items with
  | nil => rfl
  | cons item items ih => rw [prettyItems, ih, List.map_cons]

theorem prettyMembers_eq_map (depth : Nat) (members : List (String × Json)) :
    prettyMembers depth members = members.map (memberText (prettyAt depth)) := by
  induction members with
  | nil => rfl
  | cons e members ih =>
    obtain ⟨key, value⟩ := e
    rw [prettyMembers, ih, List.map_cons]
    rfl

/-- Values that come back from their text: no doubles, whole numbers that are kept, and no more
containers open at the same time than the depth. -/
inductive Plain : Nat → Json → Prop where
  | null {depth : Nat} : Plain depth .null
  | bool {depth : Nat} (b : Bool) : Plain depth (.bool b)
  | int {depth : Nat} {n : Int} (h : InWords n) : Plain depth (.int n)
  | string {depth : Nat} (s : String) : Plain depth (.string s)
  | array {depth : Nat} {items : List Json} (h : ∀ item ∈ items, Plain depth item) :
    Plain (depth + 1) (.array items)
  | object {depth : Nat} {members : List (String × Json)} (h : ∀ e ∈ members, Plain depth e.2) :
    Plain (depth + 1) (.object members)

theorem Plain.readAs {depth : Nat} {j : Json} (h : Plain depth j) :
    ∀ indent, ReadAs depth (j.prettyAt indent).toList j.sorted := by
  induction h with
  | null => exact fun _ => readAs_null _
  | bool b => exact fun _ => readAs_bool _ b
  | int h => exact fun _ => readAs_intText _ h
  | string s => exact fun _ => readAs_quote _ s
  | array _ ih =>
    intro indent
    rw [prettyAt, prettyItems_eq_map, sorted_array]
    exact readAs_array fun item hitem => ih item hitem (indent + 1)
  | object _ ih =>
    intro indent
    rw [prettyAt, prettyMembers_eq_map, sorted_object]
    exact readAs_object fun e he => ih e he (indent + 1)

/-- **A value on lines of its own is read back** with its members in the order of their names. -/
theorem parse?_pretty {j : Json} (h : Plain maxDepth j) :
    parse? (j.pretty ++ "\n") = some j.sorted := by
  have hread : valueFrom? (2 * (j.pretty ++ "\n").toList.length + 2) maxDepth
      (j.pretty ++ "\n").toList = some (j.sorted, ['\n']) := by
    rw [String.toList_append]
    refine h.readAs 0 _ ['\n'] ?_ (Nat.le_add_right _ 2)
    rintro c ⟨⟩
    decide
  rw [parse?, parseList?, hread]
  rfl

end HarvestSearch.Json
