/-
The spellings of a sort order.

A sort order is a field and a direction, but there are many ways to write it: with white space
around both, with capital letters in the word of the direction, with colons in the field, and with
no direction at all. All that reading does (`gleaner_search::request::SortOrder::parse`) is decided
by the last colon. `SortOrder.Parts` says what stands before it and what behind it, and
`SortOrder.parse?_of_parts` what is made of the two parts.

`SortOrder.Spells` are the spellings that name the direction, `SortOrder.print` being one of them. The
field may hold any number of colons, because the text behind it holds none: neither white space nor a
letter of either word is a colon (`SortDirection.colon_not_mem_of_spells`). So the colon that divides
the two is the last one. `SortOrder.parse_undoes_print` is the main statement.
-/
import HarvestSearch.SortOrder

set_option autoImplicit false

namespace HarvestSearch

/-! ## Directions -/

namespace SortDirection

/-- The text is the word of the direction, in letters of either case, with white space around it. -/
def Spells (text : String) (d : SortDirection) : Prop :=
  ∃ word, Text.Pads text word ∧ Text.lowerAscii word = d.word

/-- The direction that stands behind the last colon. Where there is no colon it is the ascending one. -/
def ofPart : Option String → SortDirection
  | some text => ofWord text
  | none => .asc

theorem trim_word (d : SortDirection) : Text.trim d.word = d.word := by
  cases d with
  | asc => decide
  | desc => decide

/-- Trimming and small letters leave the word of every spelling. -/
theorem lowerAscii_trim_of_spells {text : String} {d : SortDirection} (h : Spells text d) :
    Text.lowerAscii (Text.trim text) = d.word := by
  obtain ⟨word, hpads, hword⟩ := h
  rw [Text.trim_of_pads hpads, ← Text.trim_lowerAscii, hword, trim_word]

theorem ofWord_of_spells {text : String} {d : SortDirection} (h : Spells text d) :
    ofWord text = d := by
  rw [ofWord, lowerAscii_trim_of_spells h]
  cases d with
  | asc => exact if_neg (by decide)
  | desc => exact if_pos rfl

/-- Only spellings of its word ask for the descending direction. -/
theorem ofWord_eq_desc_iff {text : String} : ofWord text = .desc ↔ Spells text .desc := by
  refine ⟨fun h => ?_, ofWord_of_spells⟩
  by_cases hword : Text.lowerAscii (Text.trim text) = "desc"
  · exact ⟨Text.trim text, Text.pads_trim text, hword⟩
  · rw [ofWord, if_neg hword] at h
    cases h

theorem spells_word (d : SortDirection) : Spells d.word d :=
  ⟨d.word, ⟨"", "", by simp, rfl, rfl⟩, by cases d <;> decide⟩

theorem colon_not_mem_of_spells {text : String} {d : SortDirection} (h : Spells text d) :
    ':' ∉ text.toList := by
  obtain ⟨word, ⟨before, after, rfl, hbefore, hafter⟩, hword⟩ := h
  have hblank : Text.isWhiteSpace ':' = false := by decide
  have hout : ∀ blank : String, Text.isBlank blank = true → ':' ∉ blank.toList := by
    intro blank hall hcolon
    rw [List.all_eq_true.1 hall ':' hcolon] at hblank
    cases hblank
  have hin : ':' ∉ word.toList := by
    intro hcolon
    have hmem : ':' ∈ (Text.lowerAscii word).toList := by
      rw [Text.lowerAscii, String.toList_ofList]
      exact List.mem_map.2 ⟨':', hcolon, rfl⟩
    rw [hword] at hmem
    cases d with
    | asc => exact absurd hmem (by decide)
    | desc => exact absurd hmem (by decide)
  rw [String.toList_append, String.toList_append, List.mem_append, List.mem_append]
  rintro ((hcolon | hcolon) | hcolon)
  · exact hout before hbefore hcolon
  · exact hin hcolon
  · exact hout after hafter hcolon

end SortDirection

/-! ## The parts of a text -/

namespace SortOrder

/-- What stands before the last colon of a text and what stands behind it. Without a colon all of the
text counts as standing before it. -/
inductive Parts : String → String → Option String → Prop where
  | cut (front : String) {back : String} (h : ':' ∉ back.toList) :
    Parts (front ++ ":" ++ back) front (some back)
  | whole {raw : String} (h : ':' ∉ raw.toList) : Parts raw raw none

theorem exists_parts (raw : String) : ∃ front back, Parts raw front back := by
  cases hcut : Text.cutLast ':' raw.toList with
  | none => exact ⟨raw, none, .whole (Text.cutLast_eq_none_iff.1 hcut)⟩
  | some parts =>
    obtain ⟨front, back⟩ := parts
    obtain ⟨hraw, hback⟩ := Text.cutLast_eq_some_iff.1 hcut
    have hjoin : raw = String.ofList front ++ ":" ++ String.ofList back := by
      rw [← String.toList_inj, hraw]
      simp
    rw [hjoin]
    exact ⟨_, _, .cut _ (by rwa [String.toList_ofList])⟩

/-- The parts are what cutting at the last colon makes. -/
theorem Parts.cutLast_cases {raw front : String} {back : Option String} (h : Parts raw front back) :
    (Text.cutLast ':' raw.toList = none ∧ front = raw ∧ back = none) ∨
    ∃ text, Text.cutLast ':' raw.toList = some (front.toList, text.toList) ∧ back = some text := by
  cases h with
  | @cut _ text htext =>
    have hjoin : (front ++ ":" ++ text).toList = front.toList ++ ':' :: text.toList := by simp
    exact .inr ⟨text, by rw [hjoin, Text.cutLast_append htext], rfl⟩
  | whole hraw => exact .inl ⟨Text.cutLast_eq_none_iff.2 hraw, rfl, rfl⟩

theorem Parts.unique {raw front other : String} {back more : Option String}
    (h : Parts raw front back) (hother : Parts raw other more) : front = other ∧ back = more := by
  rcases h.cutLast_cases with ⟨hcut, rfl, rfl⟩ | ⟨text, hcut, rfl⟩
  · rcases hother.cutLast_cases with ⟨-, rfl, rfl⟩ | ⟨text, hcut', rfl⟩
    · exact ⟨rfl, rfl⟩
    · rw [hcut] at hcut'
      cases hcut'
  · rcases hother.cutLast_cases with ⟨hcut', rfl, rfl⟩ | ⟨text', hcut', rfl⟩
    · rw [hcut] at hcut'
      cases hcut'
    · rw [hcut, Option.some_inj, Prod.mk.injEq] at hcut'
      exact ⟨String.toList_inj.1 hcut'.1, congrArg some (String.toList_inj.1 hcut'.2)⟩

/-- The field is what stands before the last colon, trimmed, and there has to be one. -/
theorem parse?_of_parts {raw front : String} {back : Option String} (h : Parts raw front back) :
    parse? raw = if Text.isBlank front = true then none
      else some ⟨Text.trim front, .ofPart back⟩ := by
  unfold parse?
  rcases h.cutLast_cases with ⟨hcut, rfl, rfl⟩ | ⟨text, hcut, rfl⟩
  · simp only [hcut, Option.getD_none, Text.isEmpty_trimList]
    rfl
  · simp only [hcut, Option.getD_some, Text.isEmpty_trimList, String.ofList_toList]
    rfl

theorem parse?_eq_none_iff {raw : String} :
    parse? raw = none ↔ ∃ front back, Parts raw front back ∧ Text.isBlank front = true := by
  constructor
  · intro hnone
    obtain ⟨front, back, hparts⟩ := exists_parts raw
    rw [parse?_of_parts hparts, ite_eq_left_iff] at hnone
    refine ⟨front, back, hparts, ?_⟩
    by_cases hblank : Text.isBlank front = true
    · exact hblank
    · exact absurd (hnone hblank) (Option.some_ne_none _)
  · rintro ⟨front, back, hparts, hblank⟩
    rw [parse?_of_parts hparts, if_pos hblank]

theorem parse?_eq_some_iff {raw : String} {order : SortOrder} :
    parse? raw = some order ↔ ∃ front back, Parts raw front back ∧ Text.isBlank front = false ∧
      order = ⟨Text.trim front, .ofPart back⟩ := by
  constructor
  · intro hsome
    obtain ⟨front, back, hparts⟩ := exists_parts raw
    rw [parse?_of_parts hparts, Option.ite_none_left_eq_some, Bool.not_eq_true] at hsome
    exact ⟨front, back, hparts, hsome.1, (Option.some.inj hsome.2).symm⟩
  · rintro ⟨front, back, hparts, hblank, rfl⟩
    rw [parse?_of_parts hparts, hblank, if_neg Bool.false_ne_true]

/-! ## Spellings -/

/-- The order names a field, and without white space at its ends. -/
structure IsTidy (order : SortOrder) : Prop where
  not_empty : order.field ≠ ""
  trimmed : Text.trim order.field = order.field

/-- The text is the field of the order, a colon and a spelling of the direction, with white space
around the field. -/
def Spells (raw : String) (order : SortOrder) : Prop :=
  ∃ field direction, raw = field ++ ":" ++ direction ∧ Text.Pads field order.field ∧
    SortDirection.Spells direction order.direction

theorem spells_print (order : SortOrder) : Spells order.print order :=
  ⟨order.field, order.direction.word, rfl, ⟨"", "", by simp, rfl, rfl⟩,
    SortDirection.spells_word order.direction⟩

theorem parse?_of_spells {raw : String} {order : SortOrder} (htidy : order.IsTidy)
    (h : Spells raw order) : parse? raw = some order := by
  obtain ⟨field, direction, rfl, hfield, hdirection⟩ := h
  have htrim : Text.trim field = order.field := Text.trim_eq_iff.2 ⟨htidy.trimmed, hfield⟩
  refine parse?_eq_some_iff.2 ⟨field, some direction,
    .cut field (SortDirection.colon_not_mem_of_spells hdirection), ?_, ?_⟩
  · rw [← Bool.not_eq_true, ← Text.trim_eq_empty_iff, htrim]
    exact htidy.not_empty
  · rw [htrim, SortDirection.ofPart, SortDirection.ofWord_of_spells hdirection]

theorem isTidy_of_parse? {raw : String} {order : SortOrder} (h : parse? raw = some order) :
    order.IsTidy := by
  obtain ⟨front, back, -, hblank, rfl⟩ := parse?_eq_some_iff.1 h
  exact ⟨Text.trim_ne_empty hblank, Text.trim_trim front⟩

/-! ## The main statement -/

/-- **Reading undoes writing.** An order with a tidy field is read from each of its spellings, of which
printing makes one. Whatever an order is read from, its field is tidy, so that it is read again when it
is printed. Nothing is read exactly from the texts with nothing but white space before their last
colon, or without a colon at all. -/
theorem parse_undoes_print :
    (∀ (order : SortOrder) (raw : String), order.IsTidy → Spells raw order →
      parse? raw = some order) ∧
    (∀ order : SortOrder, Spells order.print order) ∧
    (∀ (raw : String) (order : SortOrder), parse? raw = some order →
      order.IsTidy ∧ parse? order.print = some order) ∧
    ∀ raw : String, parse? raw = none ↔
      ∃ front back, Parts raw front back ∧ Text.isBlank front = true :=
  ⟨fun _ _ => parse?_of_spells, spells_print,
    fun _ order h => ⟨isTidy_of_parse? h, parse?_of_spells (isTidy_of_parse? h) order.spells_print⟩,
    fun _ => parse?_eq_none_iff⟩

/-- A field with a colon of its own, in a spelling with white space of several kinds and in capitals,
and a text in which only a direction stands. -/
theorem parse_of_padded_date :
    let order : SortOrder := ⟨"dc:date", .desc⟩
    let raw := "\u2003dc:date\t: DeSC\n"
    order.IsTidy ∧ Spells raw order ∧ parse? raw = some order ∧
    parse? order.print = some order ∧
    (∃ front back, Parts "\u3000 :desc" front back ∧ Text.isBlank front = true) ∧
    parse? "\u3000 :desc" = none := by
  intro order raw
  obtain ⟨hread, -, hagain, hnone⟩ := parse_undoes_print
  have htidy : order.IsTidy := ⟨by decide, by decide⟩
  have hspells : Spells raw order :=
    ⟨"\u2003dc:date\t", " DeSC\n", rfl, ⟨"\u2003", "\t", rfl, by decide, by decide⟩,
      "DeSC", ⟨" ", "\n", rfl, by decide, by decide⟩, by decide⟩
  have hblank : ∃ front back, Parts "\u3000 :desc" front back ∧ Text.isBlank front = true :=
    ⟨"\u3000 ", some "desc", @Parts.cut "\u3000 " "desc" (by decide), by decide⟩
  have hraw : parse? raw = some order := hread order raw htidy hspells
  exact ⟨htidy, hspells, hraw, (hagain raw order hraw).2, hblank, (hnone _).2 hblank⟩

end SortOrder

end HarvestSearch
