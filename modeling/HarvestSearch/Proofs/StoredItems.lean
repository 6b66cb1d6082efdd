/-
What the item of a stored document is.

A document, as `gleaner_domain::item::Item::from_source` reads it, tells its metadata in two ways:
pair by pair in the list `elements`, and value by value in the index fields of the elements that are
no system fields. `inlinePairs` and `indexedPairs` read the two off the JSON value, and
`Item.reference` says what the item is to be in terms of them: which fault is reported first, and
that every pair stands at its first place only.

Making an item drops the repeated pairs of all elements in one pass. That the values of a single
element then come out right needs two facts about such a pass: it commutes with keeping the pairs of
one name (`filter_eraseDups`), and on those it does the same to pairs and to values
(`map_eraseDups`). That the pairs of one name are those of one element is what a registry is for.
`ofSource_eq_reference` puts it together.
-/
import HarvestSearch.Item
import HarvestSearch.Proofs.FirstOccurrences

set_option autoImplicit false

namespace HarvestSearch

/-! ## First occurrences

`dedup` goes through a list once and remembers what it has seen. The list library has the same
operation without a memory, `List.eraseDups`, which is easier to reason about. -/

/-- What was seen before is left out first, and of the others every one is kept once. -/
theorem dedupAfter_eq_eraseDups {α : Type} [DecidableEq α] (seen xs : List α) :
    dedupAfter seen xs = (xs.filter fun x => x ∉ seen).eraseDups := by
  induction xs generalizing seen with
  | nil => rfl
  | cons x xs ih =>
    by_cases h : x ∈ seen
    · rw [dedupAfter, if_pos h, ih, List.filter_cons_of_neg (by simpa using h)]
    · have hrest : (xs.filter fun y => y ∉ x :: seen)
          = (xs.filter fun y => y ∉ seen).filter fun y => !y == x := by
        rw [List.filter_filter]
        refine List.filter_congr fun y _ => ?_
        by_cases hy : y = x
        · simp [hy]
        · simp [hy, beq_false_of_ne hy]
      rw [dedupAfter, if_neg h, ih, List.filter_cons_of_pos (by simpa using h),
        List.eraseDups_cons, hrest]

theorem dedup_eq_eraseDups {α : Type} [DecidableEq α] (xs : List α) : dedup xs = xs.eraseDups := by
  rw [dedup, dedupAfter_eq_eraseDups, List.filter_eq_self.2 fun _ _ => by simp]

theorem dedup_of_nodup {α : Type} [DecidableEq α] {xs : List α} (h : xs.Nodup) : dedup xs = xs :=
  (dedup_eq_eraseDups xs).trans (eraseDups_of_nodup h)

/-! ## The pairs of a document -/

namespace Item

/-- The scalars stored in a field, as text: one alone, or those in a list. -/
def storedScalars (source : Json) (field : String) : List String :=
  match source.get? field with
  | some (.array items) => items.filterMap Json.scalarText?
  | some value => value.scalarText?.toList
  | none => []

/-- The pairs that a document lists: those entries of `elements` whose name and value are both
scalars. -/
def inlinePairs (source : Json) : List ItemElement :=
  match source.get? Field.elements with
  | some (.array entries) => entries.filterMap fun entry =>
    match scalarAt? entry "name", scalarAt? entry "value" with
    | some name, some value => some ⟨name, value⟩
    | _, _ => none
  | _ => []

/-- The pairs that a document holds in the index fields of elements. System fields hold none. -/
def indexedPairs (source : Json) : List Element → List ItemElement
  | [] => []
  | e :: rest =>
    if e.source = .system then indexedPairs source rest
    else (storedScalars source e.indexedField).map (fun value => ⟨e.name, value⟩)
      ++ indexedPairs source rest

theorem inlineElement?_eq (entry : Json) : inlineElement? entry
    = match scalarAt? entry "name", scalarAt? entry "value" with
      | some name, some value => some ⟨name, value⟩
      | _, _ => none := by
  unfold inlineElement?
  cases scalarAt? entry "name" with
  | none => rfl
  | some name => cases scalarAt? entry "value" <;> rfl

theorem inlineElements_eq (source : Json) : inlineElements source = inlinePairs source := by
  unfold inlineElements inlinePairs
  cases source.get? Field.elements with
  | none => rfl
  | some list =>
    cases list with
    | array entries => exact congrArg (entries.filterMap ·) (funext inlineElement?_eq)
    | _ => rfl

theorem valuesAt_eq (source : Json) (e : Element) : valuesAt source e
    = (storedScalars source e.indexedField).map fun value => ⟨e.name, value⟩ := by
  unfold valuesAt storedScalars
  cases source.get? e.indexedField with
  | none => rfl
  | some raw => cases raw <;> rfl

theorem indexedElements_eq (source : Json) (registry : Registry) :
    indexedElements source registry = indexedPairs source registry.elements := by
  unfold indexedElements Registry.indexed
  induction registry.elements with
  | nil => rfl
  | cons e rest ih =>
    by_cases hsystem : e.source = .system
    · rw [List.filter_cons_of_neg (by simp [hsystem]), ih, indexedPairs, if_pos hsystem]
    · rw [List.filter_cons_of_pos (by simp [hsystem]), List.flatMap_cons, ih, indexedPairs,
        if_neg hsystem, valuesAt_eq]

/-- A pair comes from an element that is no system field and has its name. -/
theorem mem_indexedPairs {source : Json} {list : List Element} {pair : ItemElement} :
    pair ∈ indexedPairs source list ↔ ∃ e ∈ list, e.source ≠ .system ∧ e.name = pair.name ∧
      pair.value ∈ storedScalars source e.indexedField := by
  induction list with
  | nil => simp [indexedPairs]
  | cons e rest ih =>
    simp only [List.mem_cons, or_and_right, exists_or, exists_eq_left]
    rw [← ih, indexedPairs]
    by_cases hsystem : e.source = .system
    · simp [hsystem]
    · rw [if_neg hsystem, List.mem_append, List.mem_map]
      refine or_congr_left ⟨?_, ?_⟩
      · rintro ⟨value, hvalue, rfl⟩
        exact ⟨hsystem, rfl, hvalue⟩
      · rintro ⟨-, hname, hvalue⟩
        exact ⟨pair.value, hvalue, by rw [hname]⟩

/-! ### The pairs of one name -/

/-- The pairs of one element have one name, so all or none of them have a given name. -/
theorem filter_map_pair (values : List String) (own name : String) :
    (values.map fun value => ItemElement.mk own value).filter (fun pair => pair.name = name)
      = if own = name then values.map fun value => ItemElement.mk own value else [] := by
  rw [List.filter_map]
  by_cases h : own = name
  · rw [if_pos h, List.filter_eq_self.2 fun value _ => by simpa using h]
  · rw [if_neg h, List.filter_eq_nil_iff.2 fun value _ => by simpa using h, List.map_nil]

/-- A name that only system fields have is the name of no pair. -/
theorem filter_indexedPairs_of_forall_ne (source : Json) {name : String} {list : List Element}
    (h : ∀ e ∈ list, e.source ≠ .system → e.name ≠ name) :
    (indexedPairs source list).filter (fun pair => pair.name = name) = [] := by
  refine List.filter_eq_nil_iff.2 fun pair hpair => ?_
  obtain ⟨e, he, hsystem, hname, -⟩ := mem_indexedPairs.1 hpair
  simpa [← hname] using h e he hsystem

/-- The pairs of one name are those of one element, since no other element has the name. -/
theorem filter_indexedPairs_of_mem (source : Json) {e : Element} (hsystem : e.source ≠ .system)
    {list : List Element} (distinct : (list.map (·.name)).Nodup) (he : e ∈ list) :
    (indexedPairs source list).filter (fun pair => pair.name = e.name)
      = (storedScalars source e.indexedField).map fun value => ⟨e.name, value⟩ := by
  induction list with
  | nil => cases he
  | cons first rest ih =>
    obtain ⟨fresh, distinct⟩ := List.nodup_cons.1 distinct
    rw [indexedPairs]
    rcases List.mem_cons.1 he with rfl | he
    · have hrest : ∀ other ∈ rest, other.source ≠ .system → other.name ≠ e.name := by
        intro other hother _ hname
        exact fresh (List.mem_map.2 ⟨other, hother, hname⟩)
      rw [if_neg hsystem, List.filter_append, filter_indexedPairs_of_forall_ne source hrest,
        filter_map_pair, if_pos rfl, List.append_nil]
    · have hfirst : first.name ≠ e.name := fun hname => fresh (List.mem_map.2 ⟨e, he, hname.symm⟩)
      by_cases hfirstSystem : first.source = .system
      · rw [if_pos hfirstSystem, ih distinct he]
      · rw [if_neg hfirstSystem, List.filter_append, filter_map_pair, if_neg hfirst,
          ih distinct he, List.nil_append]

/-- The values of a name, when repeated pairs are left out of a list. -/
theorem values_eraseDups (pairs : List ItemElement) (name : String) :
    (pairs.eraseDups.filter fun pair => pair.name = name).map (·.value)
      = ((pairs.filter fun pair => pair.name = name).map (·.value)).eraseDups := by
  rw [filter_eraseDups, map_eraseDups]
  -- pairs of one name are told apart by their values
  intro a ha b hb hvalue
  have hname : a.name = b.name := by
    have hna := (List.mem_filter.1 ha).2
    have hnb := (List.mem_filter.1 hb).2
    simp only [decide_eq_true_eq] at hna hnb
    rw [hna, hnb]
  cases a
  cases b
  cases hname
  cases hvalue
  rfl

/-! ## The reference -/

/-- **What the item of a document is to be.** The identity and the address are scalars that are not
blank, and there is a pair; the first of the three that is missing is the fault. -/
def reference (source : Json) (list : List Element) : Except ItemFault Item :=
  match Text.unlessBlank (scalarAt? source Field.indexId),
    Text.unlessBlank (scalarAt? source Field.sourceUri),
    inlinePairs source ++ indexedPairs source list with
  | none, _, _ => .error .missingIndexId
  | some indexId, none, _ => .error (.missingSourceUri indexId)
  | some indexId, some _, [] => .error (.noElements indexId)
  | some indexId, some sourceUri, pairs => .ok {
      indexId := indexId
      sourceUri := sourceUri
      serviceKey := scalarAt? source Field.serviceKey
      variant := scalarAt? source Field.variant
      parentId := scalarAt? source Field.parentId
      elements := pairs.eraseDups }

/-- An item with nothing amiss is kept. -/
theorem validate_eq_ok {item : Item} (hid : Text.isBlank item.indexId = false)
    (huri : Text.isBlank item.sourceUri = false) (helements : item.elements ≠ []) :
    item.validate = .ok item := by
  have hne : item.elements.isEmpty = false := by simpa using helements
  simp [validate, fault?, hid, huri, hne]

theorem eraseDups_ne_nil {pairs : List ItemElement} (h : pairs ≠ []) : pairs.eraseDups ≠ [] := by
  cases pairs with
  | nil => exact absurd rfl h
  | cons pair rest =>
    rw [List.eraseDups_cons]
    exact List.cons_ne_nil _ _

/-- The item of a document is the reference. -/
theorem ofSource_eq (source : Json) (registry : Registry) :
    ofSource source registry
      = (reference source registry.elements).mapError ItemFault.toError := by
  unfold ofSource reference
  rw [inlineElements_eq, indexedElements_eq]
  rcases Text.unlessBlank_cases (scalarAt? source Field.indexId) with
    ⟨hid, hblank⟩ | ⟨indexId, hid, hidText⟩
  · simp only [hid, hblank, if_true]
    rfl
  have hidSome := Text.unlessBlank_eq_some_iff.2 ⟨rfl, hidText⟩
  rcases Text.unlessBlank_cases (scalarAt? source Field.sourceUri) with
    ⟨huri, hblank⟩ | ⟨sourceUri, huri, huriText⟩
  · simp only [hid, hidSome, hidText, huri, hblank, Option.getD_some, if_true, Bool.false_eq_true,
      if_false]
    rfl
  have huriSome := Text.unlessBlank_eq_some_iff.2 ⟨rfl, huriText⟩
  simp only [hid, hidSome, hidText, huri, huriSome, huriText, Option.getD_some, Bool.false_eq_true,
    if_false, dedup_eq_eraseDups]
  cases hpairs : inlinePairs source ++ indexedPairs source registry.elements with
  | nil =>
    simp only [validate, fault?, hidText, huriText, Bool.false_eq_true, if_false]
    rfl
  | cons pair pairs =>
    exact validate_eq_ok hidText huriText (eraseDups_ne_nil (List.cons_ne_nil pair pairs))

/-- A document that has no item has one of the faults of items. -/
theorem ofSource_error {source : Json} {registry : Registry} {error : DomainError}
    (h : ofSource source registry = .error error) : ∃ fault : ItemFault, error = fault.toError := by
  rw [ofSource_eq] at h
  cases hfault : reference source registry.elements with
  | error fault =>
    rw [hfault] at h
    cases h
    exact ⟨fault, rfl⟩
  | ok item =>
    rw [hfault] at h
    cases h

/-- A document has an item when there is an identity, an address and a pair, and then the item is
made of these. -/
theorem ofSource_eq_ok_iff {source : Json} {registry : Registry} {item : Item} :
    ofSource source registry = .ok item ↔
      (scalarAt? source Field.indexId = some item.indexId ∧ Text.isBlank item.indexId = false) ∧
      (scalarAt? source Field.sourceUri = some item.sourceUri ∧
        Text.isBlank item.sourceUri = false) ∧
      inlinePairs source ++ indexedPairs source registry.elements ≠ [] ∧
      item = {
        indexId := item.indexId
        sourceUri := item.sourceUri
        serviceKey := scalarAt? source Field.serviceKey
        variant := scalarAt? source Field.variant
        parentId := scalarAt? source Field.parentId
        elements := (inlinePairs source ++ indexedPairs source registry.elements).eraseDups } := by
  rw [ofSource_eq]
  unfold reference
  constructor
  · intro h
    split at h
    · cases h
    · cases h
    · cases h
    · next hid huri hne =>
      cases h
      exact ⟨Text.unlessBlank_eq_some_iff.1 hid, Text.unlessBlank_eq_some_iff.1 huri, hne, rfl⟩
  · rintro ⟨hid, huri, hne, hitem⟩
    rw [Text.unlessBlank_eq_some_iff.2 hid, Text.unlessBlank_eq_some_iff.2 huri]
    generalize inlinePairs source ++ indexedPairs source registry.elements = pairs at hne hitem
    cases pairs with
    | nil => exact absurd rfl hne
    | cons pair rest =>
      rw [hitem]
      rfl

/-! ## The main statement -/

/-- **The item of a document is its reference decoding.** Take any list of elements that makes a
registry and any document. The item, or the first fault, is that of `reference`: there is an item
exactly when identity and address are scalars that are not blank and the document has a pair. The
item has the pairs of the document, each at its first place, and none twice; it is valid, and making
an item of the same parts gives the same elements. The values of an element are those listed under
its name and then those in its index field, each once; the values of any other name are those listed
under it, each once. -/
theorem ofSource_eq_reference {list : List Element} {registry : Registry}
    (hlist : Registry.ofList list = .ok registry) (members : List (String × Json)) :
    let source := Json.object members
    let pairs := inlinePairs source ++ indexedPairs source list
    let inlineValues := fun name =>
      ((inlinePairs source).filter fun pair => pair.name = name).map (·.value)
    ofSource source registry = (reference source list).mapError ItemFault.toError ∧
    ((∃ item, ofSource source registry = .ok item) ↔
      (∃ text, scalarAt? source Field.indexId = some text ∧ Text.isBlank text = false) ∧
      (∃ text, scalarAt? source Field.sourceUri = some text ∧ Text.isBlank text = false) ∧
      pairs ≠ []) ∧
    ∀ item, ofSource source registry = .ok item →
      item.elements = pairs.eraseDups ∧ item.elements.Nodup ∧ item.validate = .ok item ∧
      (∀ parts, parts = pairs ∨ parts = item.elements →
        ofParts item.indexId item.sourceUri parts
          = .ok ⟨item.indexId, item.sourceUri, none, none, none, item.elements⟩) ∧
      (∀ e ∈ list, e.source ≠ .system → item.valuesOf e.name
        = (inlineValues e.name ++ storedScalars source e.indexedField).eraseDups) ∧
      ∀ name, (∀ e ∈ list, e.source ≠ .system → e.name ≠ name) →
        item.valuesOf name = (inlineValues name).eraseDups := by
  intro source pairs inlineValues
  have helements : registry.elements = list := Registry.elements_of_ofList hlist
  have distinct : (list.map (·.name)).Nodup := helements ▸ registry.distinct
  have hok := @ofSource_eq_ok_iff source registry
  rw [helements] at hok
  refine ⟨?_, ⟨?_, ?_⟩, ?_⟩
  · rw [ofSource_eq, helements]
  · rintro ⟨item, hitem⟩
    obtain ⟨hid, huri, hpairs, -⟩ := hok.1 hitem
    exact ⟨⟨_, hid⟩, ⟨_, huri⟩, hpairs⟩
  · rintro ⟨⟨indexId, hid⟩, ⟨sourceUri, huri⟩, hpairs⟩
    exact ⟨⟨indexId, sourceUri, _, _, _, _⟩, hok.2 ⟨hid, huri, hpairs, rfl⟩⟩
  intro item hitem
  obtain ⟨⟨-, hid⟩, ⟨-, huri⟩, hpairs, hmade⟩ := hok.1 hitem
  have hkept : item.elements = pairs.eraseDups := by rw [hmade]
  have hne : item.elements ≠ [] := hkept ▸ eraseDups_ne_nil hpairs
  have hnodup : item.elements.Nodup := by
    rw [hkept, ← dedup_eq_eraseDups]
    exact nodup_dedup pairs
  have hvalues : ∀ name, item.valuesOf name
      = (inlineValues name ++ ((indexedPairs source list).filter fun pair => pair.name = name).map
          (·.value)).eraseDups := by
    intro name
    rw [valuesOf, hkept, values_eraseDups, List.filter_append, List.map_append]
  refine ⟨hkept, hnodup, validate_eq_ok hid huri hne, ?_, ?_, ?_⟩
  · intro parts hparts
    have hsame : dedup parts = item.elements := by
      rcases hparts with rfl | rfl
      · rw [dedup_eq_eraseDups, hkept]
      · exact dedup_of_nodup hnodup
    rw [ofParts, hsame]
    exact validate_eq_ok hid huri hne
  · intro e he hsystem
    rw [hvalues, filter_indexedPairs_of_mem source hsystem distinct he, List.map_map]
    simp [Function.comp_def]
  · intro name hname
    rw [hvalues, filter_indexedPairs_of_forall_ne source hname, List.map_nil, List.append_nil]

/-- A document that tells a subject both ways, with a repetition, an entry that is no pair and a
value that is no scalar: the subjects are the one listed and then the two stored. -/
theorem valuesOf_subject_told_twice :
    let list := [Element.plain "title" .localVocabulary, Element.plain "subject" .harvested,
      Element.plain Field.serviceKey .system]
    let members : List (String × Json) := [
      (Field.indexId, .int 42), (Field.sourceUri, .string "http://example.org/42"),
      (Field.serviceKey, .string "svc"), ("local_title", .string "Harbor"),
      ("source_subject", .array [.string "Maps", .null, .string "Maps", .int 7]),
      (Field.elements, .array [
        .object [("name", .string "title"), ("value", .string "Harbor")],
        .object [("name", .string "subject"), ("value", .string "Ships")],
        .string "subject"])]
    ∃ registry item, Registry.ofList list = .ok registry ∧
      ofSource (.object members) registry = .ok item ∧
      item.elements = [⟨"title", "Harbor"⟩, ⟨"subject", "Ships"⟩, ⟨"subject", "Maps"⟩,
        ⟨"subject", "7"⟩] ∧
      item.valuesOf "subject" = ["Ships", "Maps", "7"] ∧ item.valuesOf Field.serviceKey = [] := by
  intro list members
  have hlist : Registry.ofList list = .ok ⟨list, by decide⟩ := rfl
  obtain ⟨-, hok, hitem⟩ := ofSource_eq_reference hlist members
  obtain ⟨item, hmade⟩ := hok.2
    ⟨⟨"42", rfl, by decide⟩, ⟨"http://example.org/42", rfl, by decide⟩, by decide⟩
  obtain ⟨helements, -, -, -, hvalues, hother⟩ := hitem item hmade
  refine ⟨_, item, hlist, hmade, helements.trans (by decide), ?_, ?_⟩
  · exact (hvalues _ (List.mem_cons_of_mem _ List.mem_cons_self) (by decide)).trans (by decide)
  · exact (hother Field.serviceKey (by decide)).trans (by decide)

end Item

end HarvestSearch
