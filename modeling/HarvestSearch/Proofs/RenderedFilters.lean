/-
Filters written as pairs and collected again.

Filters are written as one `field:value` pair for each value. Collecting the pairs
(`gleaner_search::filter::FilterInput::normalize`) gives the filters back only if nothing is lost on
the way: a colon in a field moves the cut, white space at the ends is trimmed, what is blank is
skipped, a list of one value becomes this value, and a repeated value is kept once.
`FilterMap.Canonical` excludes these cases and no others.

Collected filters are canonical whatever the pairs are (`canonical_ofPairs`), so filters that are not
cannot come back. Canonical filters do, because the pairs written for a field tell the values of its
filter and nothing else (`toldValues_toPairs`).
-/
import HarvestSearch.Proofs.CollectedPairs

set_option autoImplicit false

namespace HarvestSearch

/-! ## Canonical filters -/

namespace FilterMap

/-- Filters of which nothing is lost when they are written as pairs. -/
structure Canonical (filters : FilterMap) : Prop where
  fields : ∀ field ∈ filters.keys, field ≠ "" ∧ ':' ∉ field.toList ∧ Text.trim field = field
  values : ∀ field filter, filters.get? field = some filter →
    ∀ value ∈ filter.values, value ≠ "" ∧ Text.trim value = value
  lists : ∀ field values, filters.get? field = some (.many values) →
    2 ≤ values.length ∧ values.Nodup

end FilterMap

/-- What is told is trimmed and not empty, and the field has no colon. -/
theorem Tells.canonical {pair field value : String} (h : Tells pair field value) :
    (field ≠ "" ∧ ':' ∉ field.toList ∧ Text.trim field = field) ∧
      value ≠ "" ∧ Text.trim value = value := by
  obtain ⟨front, back, -, hcolon, hfront, hback, rfl, rfl⟩ := h
  have hcolon' : ':' ∉ (Text.trim front).toList := by
    intro hmem
    rw [Text.trim, String.toList_ofList] at hmem
    exact hcolon (Text.mem_of_mem_trimList hmem)
  exact ⟨⟨Text.trim_ne_empty hfront, hcolon', Text.trim_trim front⟩,
    Text.trim_ne_empty hback, Text.trim_trim back⟩

/-- A field and a value of that kind are what the pair of the two tells. -/
theorem tells_append {field value : String}
    (hfield : field ≠ "" ∧ ':' ∉ field.toList ∧ Text.trim field = field)
    (hvalue : value ≠ "" ∧ Text.trim value = value) :
    Tells (field ++ ":" ++ value) field value :=
  ⟨field, value, rfl, hfield.2.1, Text.isBlank_of_trim_eq hfield.1 hfield.2.2,
    Text.isBlank_of_trim_eq hvalue.1 hvalue.2, hfield.2.2, hvalue.2⟩

theorem FilterValue.values_of_ofValues? {values : List String} {filter : FilterValue}
    (h : ofValues? values = some filter) : filter.values = values := by
  cases filter with
  | one value =>
    rw [ofValues?_eq_one_iff.1 h]
    rfl
  | many several => exact (ofValues?_eq_many_iff.1 h).1

namespace FilterMap

/-- **Collected filters are canonical.** -/
theorem canonical_ofPairs (pairs : List String) : (ofPairs pairs).Canonical where
  fields field hfield := by
    obtain ⟨value, pair, -, htells⟩ := mem_keys_ofPairs.1 hfield
    exact htells.canonical.1
  values field filter hfilter value hvalue := by
    rw [get?_ofPairs] at hfilter
    rw [FilterValue.values_of_ofValues? hfilter, List.mem_eraseDups, mem_toldValues] at hvalue
    obtain ⟨pair, -, htells⟩ := hvalue
    exact htells.canonical.2
  lists field values hfilter := by
    rw [get?_ofPairs, FilterValue.ofValues?_eq_many_iff] at hfilter
    obtain ⟨rfl, hlength⟩ := hfilter
    exact ⟨hlength, nodup_eraseDups _⟩

/-! ## Writing and collecting -/

/-- The pairs of one field tell its values for this field, and none for another. -/
theorem toldValues_map_pairs {field : String} {values : List String}
    (h : ∀ value ∈ values, Tells (field ++ ":" ++ value) field value) (q : String) :
    toldValues (values.map fun value => field ++ ":" ++ value) q
      = if field = q then values else [] := by
  induction values with
  | nil => simp [toldValues]
  | cons value values ih =>
    have hrest := ih fun v hv => h v (List.mem_cons_of_mem value hv)
    rw [List.map_cons, toldValues_cons_of_tells (h value List.mem_cons_self), hrest]
    by_cases hq : field = q
    · rw [if_pos hq, if_pos hq, if_pos hq]
    · rw [if_neg hq, if_neg hq, if_neg hq]

/-- The pairs written for filters tell of every field the values of its filter. -/
theorem toldValues_flatMap_pairs {entries : List (String × FilterValue)}
    (distinct : (entries.map (·.1)).Nodup)
    (h : ∀ e ∈ entries, ∀ value ∈ e.2.values, Tells (e.1 ++ ":" ++ value) e.1 value) (q : String) :
    toldValues (entries.flatMap fun e => e.2.values.map fun value => e.1 ++ ":" ++ value) q
      = ((FieldMap.lookupEntries q entries).map FilterValue.values).getD [] := by
  induction entries with
  | nil => rfl
  | cons e rest ih =>
    obtain ⟨field, filter⟩ := e
    obtain ⟨fresh, distinct⟩ := List.nodup_cons.1 distinct
    have hrest := ih distinct fun e he => h e (List.mem_cons_of_mem _ he)
    rw [List.flatMap_cons, toldValues_append, hrest,
      toldValues_map_pairs (h (field, filter) List.mem_cons_self), FieldMap.lookupEntries]
    by_cases hq : field = q
    · subst hq
      have hnone : FieldMap.lookupEntries field rest = none :=
        FieldMap.lookupEntries_eq_none_iff.2 fun e he heq =>
          fresh (List.mem_map.2 ⟨e, he, heq⟩)
      rw [if_pos rfl, if_pos rfl, hnone]
      exact List.append_nil _
    · rw [if_neg hq, if_neg hq, List.nil_append]

theorem toldValues_toPairs {filters : FilterMap} (h : filters.Canonical) (field : String) :
    toldValues filters.toPairs field
      = ((filters.get? field).map FilterValue.values).getD [] := by
  refine toldValues_flatMap_pairs (FieldMap.nodup_of_sorted filters.sorted) ?_ field
  rintro ⟨name, filter⟩ hmem value hvalue
  have hfilter : filters.get? name = some filter := FieldMap.mem_entries_iff.1 hmem
  exact tells_append (h.fields name (FieldMap.mem_keys_iff.2 ⟨filter, hfilter⟩))
    (h.values name filter hfilter value hvalue)

/-- **Canonical filters come back.** -/
theorem ofPairs_toPairs {filters : FilterMap} (h : filters.Canonical) :
    ofPairs filters.toPairs = filters := by
  refine FieldMap.ext_get? fun field => ?_
  rw [get?_ofPairs, toldValues_toPairs h]
  cases hfilter : filters.get? field with
  | none => rfl
  | some filter =>
    cases filter with
    | one value => rfl
    | many values =>
      obtain ⟨hlength, hnodup⟩ := h.lists field values hfilter
      have hkept : ((some (FilterValue.many values)).map FilterValue.values).getD [] = values := rfl
      rw [hkept, eraseDups_of_nodup hnodup]
      exact FilterValue.ofValues?_eq_many_iff.2 ⟨rfl, hlength⟩

end FilterMap

/-! ## The main statement -/

/-- **Which filters survive being written as pairs.** Filters written as pairs and normalized again
are the same exactly if every field is not empty, has no colon and no white space at its ends, every
value is not empty and has none at its ends, and every list has at least two values, all different.
Whatever pairs are normalized, the filters are of this kind, so writing and normalizing them changes
nothing. -/
theorem FilterInput.normalize_toPairs_iff (filters : FilterMap) (pairs : List String) :
    ((FilterInput.list filters.toPairs).normalize = filters ↔ filters.Canonical) ∧
    (FilterInput.list pairs).normalize.Canonical ∧
    (FilterInput.list (FilterInput.list pairs).normalize.toPairs).normalize
      = (FilterInput.list pairs).normalize := by
  have hcanonical : (FilterInput.list pairs).normalize.Canonical :=
    FilterMap.canonical_ofPairs pairs
  refine ⟨⟨fun h => ?_, FilterMap.ofPairs_toPairs⟩, hcanonical,
    FilterMap.ofPairs_toPairs hcanonical⟩
  rw [← h]
  exact FilterMap.canonical_ofPairs filters.toPairs

/-- A colon moves from the field into the value, and a list of one becomes its value. -/
example : (FilterInput.list (FilterMap.toPairs
    (.ofList [("variant", .many ["item"]), ("x:y", .one "z")]))).normalize
      = .ofList [("variant", .one "item"), ("x", .one "y:z")] := by decide +kernel

end HarvestSearch
