/-
Pairs collected by field.

A list of `field:value` pairs is walked once (`gleaner_search::filter::collect_pairs`). Each pair
that tells a value adds it to the filter of its field, and that filter changes its shape when a
second value comes. The outcome can be said without the walk: the values that the pairs tell for a
field, each at its first place only, make the filter of the field in one step
(`FilterValue.ofValues?`). This holds after every pair of the list, and `get?_ofPairs` is the
induction over it.

What a pair tells is said by `Tells`, and `toldValues` gathers it for one field. A pair that tells
nothing, or what was told before, adds no first place (`eraseDups_append_middle`), and the same pairs
in another order tell the same values in another order.
-/
import HarvestSearch.Filter
import HarvestSearch.Proofs.FirstOccurrences
import Mathlib.Data.List.Induction

set_option autoImplicit false

namespace HarvestSearch

/-! ## What a pair tells -/

/-- The pair tells the value for the field: its first colon stands between the two, neither is blank,
and white space around them does not count. -/
def Tells (pair field value : String) : Prop :=
  ∃ front back : String, pair = front ++ ":" ++ back ∧ ':' ∉ front.toList ∧
    Text.isBlank front = false ∧ Text.isBlank back = false ∧
    Text.trim front = field ∧ Text.trim back = value

/-- Some pair of the list tells the value for the field. -/
def Told (pairs : List String) (field value : String) : Prop :=
  ∃ pair ∈ pairs, Tells pair field value

/-- Splitting a pair reads off what it tells. -/
theorem splitPair_eq_some_iff {pair field value : String} :
    splitPair pair = some (field, value) ↔ Tells pair field value := by
  constructor
  · intro h
    obtain ⟨⟨front, back⟩, hcut, hparts⟩ := Option.bind_eq_some_iff.1 h
    simp only [Text.isEmpty_trimList] at hparts
    obtain ⟨hpair, hcolon⟩ := Text.cutFirst_eq_some_iff.1 hcut
    by_cases hblank : (Text.isBlankList front || Text.isBlankList back) = true
    · rw [if_pos hblank] at hparts
      cases hparts
    · rw [if_neg hblank] at hparts
      cases hparts
      rw [Bool.or_eq_true, not_or, Bool.not_eq_true, Bool.not_eq_true] at hblank
      refine ⟨String.ofList front, String.ofList back, ?_, ?_, ?_, ?_, ?_, ?_⟩
      · rw [← String.toList_inj, hpair]
        simp
      · rwa [String.toList_ofList]
      · rw [Text.isBlank, String.toList_ofList, hblank.1]
      · rw [Text.isBlank, String.toList_ofList, hblank.2]
      · rw [Text.trim, String.toList_ofList]
      · rw [Text.trim, String.toList_ofList]
  · rintro ⟨front, back, rfl, hcolon, hfront, hback, rfl, rfl⟩
    have hcut : Text.cutFirst ':' (front ++ ":" ++ back).toList
        = some (front.toList, back.toList) := by
      refine Text.cutFirst_eq_some_iff.2 ⟨?_, hcolon⟩
      simp
    unfold Text.isBlank at hfront hback
    refine Option.bind_eq_some_iff.2 ⟨_, hcut, ?_⟩
    simp only [Text.isEmpty_trimList, hfront, hback, Bool.or_self, if_neg Bool.false_ne_true]
    rfl

/-- The values that the pairs tell for a field, pair by pair. -/
def toldValues (pairs : List String) (field : String) : List String :=
  ((pairs.filterMap splitPair).filter fun told => told.1 = field).map (·.2)

theorem mem_toldValues {pairs : List String} {field value : String} :
    value ∈ toldValues pairs field ↔ Told pairs field value := by
  unfold toldValues
  rw [List.mem_map]
  constructor
  · rintro ⟨⟨f, v⟩, hmem, rfl⟩
    obtain ⟨htold, hf⟩ := List.mem_filter.1 hmem
    obtain ⟨pair, hpair, hsplit⟩ := List.mem_filterMap.1 htold
    obtain rfl : f = field := of_decide_eq_true hf
    exact ⟨pair, hpair, splitPair_eq_some_iff.1 hsplit⟩
  · rintro ⟨pair, hpair, htells⟩
    have htold : (field, value) ∈ pairs.filterMap splitPair :=
      List.mem_filterMap.2 ⟨pair, hpair, splitPair_eq_some_iff.2 htells⟩
    exact ⟨(field, value), List.mem_filter.2 ⟨htold, decide_eq_true rfl⟩, rfl⟩

theorem toldValues_append (front back : List String) (field : String) :
    toldValues (front ++ back) field = toldValues front field ++ toldValues back field := by
  unfold toldValues
  rw [List.filterMap_append, List.filter_append, List.map_append]

theorem toldValues_cons_of_tells {pair field value : String} (h : Tells pair field value)
    (pairs : List String) (q : String) :
    toldValues (pair :: pairs) q
      = if field = q then value :: toldValues pairs q else toldValues pairs q := by
  unfold toldValues
  rw [List.filterMap_cons_some (splitPair_eq_some_iff.2 h)]
  by_cases hq : field = q
  · simp [hq]
  · simp [hq]

/-! ## A filter of several values -/

namespace FilterValue

/-- The filter of the values that are told for a field: one alone, or several. -/
def ofValues? : List String → Option FilterValue
  | [] => none
  | [value] => some (.one value)
  | values => some (.many values)

theorem ofValues?_eq_none_iff {values : List String} : ofValues? values = none ↔ values = [] := by
  match values with
  | [] => simp [ofValues?]
  | [_] => simp [ofValues?]
  | _ :: _ :: _ => simp [ofValues?]

theorem ofValues?_eq_one_iff {values : List String} {value : String} :
    ofValues? values = some (.one value) ↔ values = [value] := by
  match values with
  | [] => simp [ofValues?]
  | [_] => simp [ofValues?]
  | _ :: _ :: _ => simp [ofValues?]

theorem ofValues?_eq_many_iff {values several : List String} :
    ofValues? values = some (.many several) ↔ several = values ∧ 2 ≤ several.length := by
  match values with
  | [] =>
    constructor
    · intro h
      cases h
    · rintro ⟨rfl, hlength⟩
      simp at hlength
  | [_] =>
    constructor
    · intro h
      cases h
    · rintro ⟨rfl, hlength⟩
      simp at hlength
  | _ :: _ :: _ =>
    constructor
    · intro h
      cases h
      simp
    · rintro ⟨rfl, -⟩
      rfl

/-- One more value makes the filter of the values with it at the end, unless it is among them. -/
theorem ofValues?_push (values : List String) (value : String) :
    some ((ofValues? values).elim (.one value) (push value))
      = ofValues? (if value ∈ values then values else values ++ [value]) := by
  match values with
  | [] => rfl
  | [first] =>
    by_cases h : first = value
    · simp [ofValues?, push, h]
    · simp [ofValues?, push, h, Ne.symm h]
  | first :: second :: rest =>
    by_cases h : value ∈ first :: second :: rest
    · rw [if_pos h]
      simp only [ofValues?, Option.elim_some, push, if_pos h]
    · rw [if_neg h]
      simp only [ofValues?, Option.elim_some, push, if_neg h, List.cons_append]

/-- Filters of one shape with the same values. -/
inductive SameValues : FilterValue → FilterValue → Prop
  | one (value : String) : SameValues (.one value) (.one value)
  | many {values others : List String} (h : values.Perm others) :
    SameValues (.many values) (.many others)

/-- The same values in another order make a filter of the same shape. -/
theorem rel_ofValues? {values others : List String} (h : values.Perm others) :
    Option.Rel SameValues (ofValues? values) (ofValues? others) := by
  match values, h with
  | [], h =>
    obtain rfl := h.nil_eq
    exact .none
  | [value], h =>
    obtain rfl := List.singleton_perm.1 h
    exact .some (.one value)
  | first :: second :: rest, h =>
    have hothers : ofValues? others = some (.many others) := by
      refine ofValues?_eq_many_iff.2 ⟨rfl, ?_⟩
      rw [← h.length_eq]
      simp
    rw [hothers]
    exact .some (.many h)

end FilterValue

/-! ## The walk -/

namespace FilterMap

theorem get?_addValue (filters : FilterMap) (field value q : String) :
    (filters.addValue field value).get? q
      = if field = q then
          some ((filters.get? field).elim (.one value) (FilterValue.push value))
        else filters.get? q := by
  unfold addValue
  cases filters.get? field with
  | none => exact FieldMap.get?_insert ..
  | some existing => exact FieldMap.get?_insert ..

theorem ofPairs_append_singleton (pairs : List String) (pair : String) :
    ofPairs (pairs ++ [pair]) = (ofPairs pairs).addPair pair := by
  unfold ofPairs
  rw [List.foldl_append, List.foldl_cons, List.foldl_nil]

/-- **Every field has the filter of the values told for it**, each at its first place only. -/
theorem get?_ofPairs (pairs : List String) (field : String) :
    (ofPairs pairs).get? field = FilterValue.ofValues? (toldValues pairs field).eraseDups := by
  induction pairs using List.reverseRecOn with
  | nil => rfl
  | append_singleton pairs pair ih =>
    rw [ofPairs_append_singleton, toldValues_append, addPair]
    cases hsplit : splitPair pair with
    | none =>
      have hnone : toldValues [pair] field = [] := by simp [toldValues, hsplit]
      rw [hnone, List.append_nil]
      exact ih
    | some told =>
      obtain ⟨f, value⟩ := told
      rw [get?_addValue]
      by_cases hf : f = field
      · subst hf
        have hone : toldValues [pair] f = [value] := by simp [toldValues, hsplit]
        have hmem : value ∈ (toldValues pairs f).eraseDups ↔ value ∈ toldValues pairs f :=
          List.mem_eraseDups
        rw [if_pos rfl, ih, FilterValue.ofValues?_push, hone, eraseDups_append_singleton]
        simp only [hmem]
      · have hnone : toldValues [pair] field = [] := by simp [toldValues, hsplit, hf]
        rw [if_neg hf, ih, hnone, List.append_nil]

/-- The fields are those for which some pair tells a value. -/
theorem mem_keys_ofPairs {pairs : List String} {field : String} :
    field ∈ (ofPairs pairs).keys ↔ ∃ value, Told pairs field value := by
  rw [FieldMap.mem_keys_iff, ← Option.isSome_iff_exists, ← Option.ne_none_iff_isSome, get?_ofPairs,
    Ne, FilterValue.ofValues?_eq_none_iff, List.eq_nil_iff_forall_not_mem, not_forall]
  refine exists_congr fun value => ?_
  rw [not_not, List.mem_eraseDups, mem_toldValues]

/-- Pairs that tell nothing but what was told before can be put in anywhere after that. -/
theorem ofPairs_append_middle {front more : List String}
    (h : ∀ field value, Told more field value → Told front field value) (back : List String) :
    ofPairs (front ++ more ++ back) = ofPairs (front ++ back) := by
  refine FieldMap.ext_get? fun field => ?_
  have hmore : ∀ value ∈ toldValues more field, value ∈ toldValues front field := by
    intro value hvalue
    exact mem_toldValues.2 (h field value (mem_toldValues.1 hvalue))
  rw [get?_ofPairs, get?_ofPairs, toldValues_append, toldValues_append, toldValues_append,
    eraseDups_append_middle hmore]

/-- The pairs in another order give each field a filter of the same shape with the same values. -/
theorem rel_get?_ofPairs {pairs other : List String} (h : pairs.Perm other) (field : String) :
    Option.Rel FilterValue.SameValues ((ofPairs pairs).get? field) ((ofPairs other).get? field) := by
  have htold : (toldValues pairs field).Perm (toldValues other field) :=
    ((h.filterMap splitPair).filter _).map _
  rw [get?_ofPairs, get?_ofPairs]
  exact FilterValue.rel_ofValues? (perm_eraseDups htold)

end FilterMap

/-! ## The main statement -/

/-- **Pairs are grouped by field.** A pair alone is a list of one. Normalizing a list of pairs gives
filters to the fields for which some pair tells a value, and to no others. The filter of a field is
one value if all its pairs tell the same; else it is the list of its values by first occurrence, which
are at least two, all different and all that were told. Pairs that tell nothing, or what was told
before, can be put in anywhere after that, and the same pairs in any other order give the same fields
filters of the same shapes with the same values. -/
theorem FilterInput.normalize_groups (pairs : List String) :
    (∀ pair, (FilterInput.single pair).normalize = (FilterInput.list [pair]).normalize) ∧
    let filters := (FilterInput.list pairs).normalize
    (∀ field, field ∈ filters.keys ↔ ∃ value, Told pairs field value) ∧
    (∀ field value, filters.get? field = some (.one value) ↔
      Told pairs field value ∧ ∀ other, Told pairs field other → other = value) ∧
    (∀ field values, filters.get? field = some (.many values) ↔
      values = (toldValues pairs field).eraseDups ∧ 2 ≤ values.length) ∧
    (∀ field values, filters.get? field = some (.many values) →
      values.Nodup ∧ ∀ value, value ∈ values ↔ Told pairs field value) ∧
    (∀ front more back, pairs = front ++ back →
      (∀ field value, Told more field value → Told front field value) →
      (FilterInput.list (front ++ more ++ back)).normalize = filters) ∧
    ∀ other, pairs.Perm other → ∀ field,
      Option.Rel FilterValue.SameValues (filters.get? field)
        ((FilterInput.list other).normalize.get? field) := by
  refine ⟨fun pair => rfl, ?_⟩
  intro filters
  have hget : ∀ field, filters.get? field
      = FilterValue.ofValues? (toldValues pairs field).eraseDups := FilterMap.get?_ofPairs pairs
  have hmany : ∀ field values, filters.get? field = some (.many values) ↔
      values = (toldValues pairs field).eraseDups ∧ 2 ≤ values.length := by
    intro field values
    rw [hget, FilterValue.ofValues?_eq_many_iff]
  refine ⟨fun field => FilterMap.mem_keys_ofPairs, fun field value => ?_, hmany,
    fun field values h => ?_, ?_, fun other h field => FilterMap.rel_get?_ofPairs h field⟩
  · rw [hget, FilterValue.ofValues?_eq_one_iff, eraseDups_eq_singleton_iff]
    simp only [mem_toldValues]
  · obtain ⟨rfl, -⟩ := (hmany field values).1 h
    refine ⟨nodup_eraseDups _, fun value => ?_⟩
    rw [List.mem_eraseDups, mem_toldValues]
  · rintro front more back rfl h
    exact FilterMap.ofPairs_append_middle h back

/-- Three pairs of two fields, one value with a colon in it. Between them may stand a pair without a
colon, one without a field and one that was told before, and the order does not matter but for the
order of the two values. -/
theorem normalize_pairs_of_two_fields :
    let pairs := ["variant:item", "service_key:a:b", "variant : collection"]
    let more := ["variant item", " :item", " variant:\u3000item "]
    let reversed := ["variant : collection", "service_key:a:b", "variant:item"]
    (∀ field value, Told more field value → Told ["variant:item"] field value) ∧
    pairs.Perm reversed ∧
    (FilterInput.list pairs).normalize.get? "service_key" = some (.one "a:b") ∧
    (FilterInput.list (["variant:item"] ++ more ++ pairs.tail)).normalize.get? "variant"
      = some (.many ["item", "collection"]) ∧
    Option.Rel FilterValue.SameValues (some (.many ["item", "collection"]))
      ((FilterInput.list reversed).normalize.get? "variant") := by
  intro pairs more reversed
  have hsplit : more.map splitPair = [none, none, some ("variant", "item")] := by decide +kernel
  have hitem : splitPair "variant:item" = some ("variant", "item") := by decide +kernel
  have hvariant : (toldValues pairs "variant").eraseDups = ["item", "collection"] := by
    decide +kernel
  have hservice : toldValues pairs "service_key" = ["a:b"] := by decide +kernel
  have htold : ∀ field value, Told more field value → Told ["variant:item"] field value := by
    rintro field value ⟨pair, hpair, htells⟩
    have hmem : some (field, value) ∈ more.map splitPair :=
      List.mem_map.2 ⟨pair, hpair, splitPair_eq_some_iff.2 htells⟩
    rw [hsplit] at hmem
    simp only [List.mem_cons, List.not_mem_nil, or_false, false_or, reduceCtorEq,
      Option.some.injEq, Prod.mk.injEq] at hmem
    obtain ⟨rfl, rfl⟩ := hmem
    exact ⟨_, List.mem_cons_self, splitPair_eq_some_iff.1 hitem⟩
  have hperm : pairs.Perm reversed := (List.reverse_perm pairs).symm
  obtain ⟨-, -, hone, hmany, -, hmore, horder⟩ := FilterInput.normalize_groups pairs
  have hlist : (FilterInput.list pairs).normalize.get? "variant"
      = some (.many ["item", "collection"]) := (hmany _ _).2 ⟨hvariant.symm, by decide⟩
  refine ⟨htold, hperm, ?_, ?_, ?_⟩
  · refine (hone _ _).2 ⟨mem_toldValues.1 (by simp [hservice]), fun other hother => ?_⟩
    simpa [hservice] using mem_toldValues.2 hother
  · rw [hmore ["variant:item"] more pairs.tail rfl htold]
    exact hlist
  · rw [← hlist]
    exact horder reversed hperm "variant"

end HarvestSearch
