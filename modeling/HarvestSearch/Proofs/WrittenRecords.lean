/-
What is written can be read.

Every record has a written form and a reader, a `serde::Serialize` and a `serde::Deserialize`, and
the two are defined apart: a reader takes members in any order, passes over members it does not
know, and is also used on files and replies that nothing here has written. `ReadsBack` says that
reading undoes writing. It is carried from the values of a list, of a map and of an optional member
to the list, the map and the member, and so to the records.

Filters are written without a word about their shape, as a string, a list of strings or an object,
and the reader tries the three in turn. That it always comes to the shape that was written is part of
`ReadsBack`. `FilterInput.toJson_of_ofJson?` goes the other way: whatever is read as filters is
written as it was, but for the order of the members of an object, which a map does not keep.

The last section is about the one reader that was not made for what is written: items are made of
stored documents, and the written form of an item is such a document.
-/
import HarvestSearch.Facet
import HarvestSearch.Filter
import HarvestSearch.Proofs.IndexFields
import HarvestSearch.Proofs.StoredItems
import HarvestSearch.SortOrder

set_option autoImplicit false

namespace HarvestSearch

/-! ## Reading what was written -/

section

variable {α : Type} {write : α → Json} {read : Json → Option α}

/-- Reading undoes writing. -/
def ReadsBack (write : α → Json) (read : Json → Option α) : Prop := ∀ a, read (write a) = some a

/-- What is read is written as it was. -/
def WritesBack (write : α → Json) (read : Json → Option α) : Prop :=
  ∀ j a, read j = some a → write a = j

/-- A list whose items are written and read one by one comes back whole. -/
theorem mapM_map_eq_some {β : Type} {encode : α → β} {decode : β → Option α}
    (h : ∀ a, decode (encode a) = some a) (as : List α) :
    (as.map encode).mapM decode = some as := by
  induction as with
  | nil => rfl
  | cons a as ih =>
    rw [List.map_cons, List.mapM_cons, h, ih]
    rfl

theorem map_eq_of_mapM {β : Type} {encode : α → β} {decode : β → Option α}
    (h : ∀ b a, decode b = some a → encode a = b) {bs : List β} {as : List α}
    (hread : bs.mapM decode = some as) : as.map encode = bs := by
  induction bs generalizing as with
  | nil =>
    cases hread
    rfl
  | cons b bs ih =>
    rw [List.mapM_cons] at hread
    obtain ⟨a, ha, hread⟩ := Option.bind_eq_some_iff.1 hread
    obtain ⟨rest, hrest, hread⟩ := Option.bind_eq_some_iff.1 hread
    cases hread
    rw [List.map_cons, h b a ha, ih hrest]

theorem readsBack_string : ReadsBack Json.string Json.asString? := fun _ => rfl

theorem writesBack_string : WritesBack Json.string Json.asString? := by
  intro j s h
  cases j with
  | string t =>
    cases h
    rfl
  | _ => cases h

theorem ReadsBack.listOf (h : ReadsBack write read) :
    ReadsBack (fun as => .array (as.map write)) (Json.listOf read) :=
  mapM_map_eq_some h

theorem WritesBack.listOf (h : WritesBack write read) :
    WritesBack (fun as => .array (as.map write)) (Json.listOf read) := by
  intro j as hread
  cases j with
  | array items => exact congrArg Json.array (map_eq_of_mapM h hread)
  | _ => cases hread

theorem ReadsBack.mapOf (h : ReadsBack write read) :
    ReadsBack (fun m : FieldMap α => .ofMap (m.mapValues fun _ a => write a)) (Json.mapOf read) := by
  intro m
  have hentries : (m.entries.map fun e => (e.1, write e.2)).mapM
      (fun e : String × Json => (read e.2).map fun a => (e.1, a)) = some m.entries := by
    refine mapM_map_eq_some (fun e => ?_) m.entries
    rw [h e.2]
    rfl
  show ((m.entries.map fun e => (e.1, write e.2)).mapM
      (fun e : String × Json => (read e.2).map fun a => (e.1, a))).bind
    (fun entries => some (FieldMap.ofList entries)) = some m
  rw [hentries, Option.bind_some, FieldMap.ofList_entries]

/-- A map is written in the order of its names, whatever order it was read in. -/
theorem WritesBack.mapOf (h : WritesBack write read) {members : List (String × Json)}
    {m : FieldMap α} (hread : Json.mapOf read (.object members) = some m) :
    Json.ofMap (m.mapValues fun _ a => write a) = .ofMembers members := by
  obtain ⟨entries, hentries, hm⟩ := Option.bind_eq_some_iff.1 hread
  cases hm
  have hmembers : (entries.map fun e => (e.1, write e.2)) = members := by
    refine map_eq_of_mapM (fun member e he => ?_) hentries
    obtain ⟨a, ha, rfl⟩ := Option.map_eq_some_iff.1 he
    rw [h member.2 a ha]
  rw [FieldMap.mapValues_ofList, hmembers]
  rfl

theorem readsBack_oneOf {names : List (String × α)} {word : α → String}
    (h : ∀ a, names.lookup (word a) = some a) :
    ReadsBack (fun a => .string (word a)) (Json.oneOf names) := h

/-! ### Members -/

/-- A required member comes back when its value does. -/
theorem ReadsBack.field (h : ReadsBack write read) {j : Json} {key : String} {a : α}
    (hget : j.get? key = some (write a)) : j.field key read = some a := by
  rw [Json.field, hget]
  exact h a

/-- An optional member comes back when its value does and is never written as `null`. -/
theorem ReadsBack.fieldOption (h : ReadsBack write read) (hnull : ∀ a, write a ≠ .null) {j : Json}
    {key : String} {o : Option α} (hget : j.get? key = some (Json.ofOption write o)) :
    j.fieldOption key read = some o := by
  rw [Json.fieldOption, hget]
  cases o with
  | none => rfl
  | some a =>
    have hread : read (write a) = some a := h a
    have hne : write a ≠ .null := hnull a
    rw [Json.ofOption]
    split
    · next heq => cases heq
    · next heq => exact absurd (Option.some.inj heq) hne
    · next value heq =>
      cases heq
      rw [hread]
      rfl

end

/-! ## Filters -/

theorem readsBack_strings : ReadsBack Json.ofStrings Json.asStrings? := readsBack_string.listOf

theorem writesBack_strings : WritesBack Json.ofStrings Json.asStrings? := writesBack_string.listOf

theorem readsBack_filterValue : ReadsBack FilterValue.toJson FilterValue.ofJson? := by
  intro v
  cases v with
  | one value => rfl
  | many values =>
    -- a list is no string, so the first shape is passed over
    show (Json.asStrings? (.ofStrings values)).map FilterValue.many = _
    rw [readsBack_strings values]
    rfl

theorem writesBack_filterValue : WritesBack FilterValue.toJson FilterValue.ofJson? := by
  intro j v h
  unfold FilterValue.ofJson? at h
  cases hstring : j.asString? with
  | some value =>
    rw [hstring] at h
    cases h
    exact writesBack_string j value hstring
  | none =>
    rw [hstring] at h
    obtain ⟨values, hvalues, rfl⟩ := Option.map_eq_some_iff.1 h
    exact writesBack_strings j values hvalues

theorem readsBack_filterInput : ReadsBack FilterInput.toJson FilterInput.ofJson? := by
  intro input
  cases input with
  | single pair => rfl
  | list pairs =>
    have hstrings : Json.asStrings? (FilterInput.list pairs).toJson = some pairs :=
      readsBack_strings pairs
    rw [FilterInput.ofJson?, hstrings]
    rfl
  | map filters =>
    -- an object is neither a string nor a list of strings
    show (Json.mapOf FilterValue.ofJson? filters.toJson).map FilterInput.map = _
    have hmap : Json.mapOf FilterValue.ofJson? filters.toJson = some filters :=
      readsBack_filterValue.mapOf filters
    rw [hmap]
    rfl

/-- The value, with the members of an object in the order of their names. Of a repeated name the last
value counts. -/
def Json.inNameOrder : Json → Json
  | .object members => .ofMembers members
  | other => other

/-- Members that stand in the order of their names stay where they are. -/
theorem Json.inNameOrder_of_sorted {j : Json}
    (h : ∀ members, j = .object members → SortedEntries members) : j.inNameOrder = j := by
  cases j with
  | object members =>
    have hmap := FieldMap.ofList_entries ⟨members, h members rfl⟩
    exact congrArg Json.ofMap hmap
  | _ => rfl

/-- Members with distinct names are found in any order. -/
theorem Json.get?_inNameOrder {members : List (String × Json)}
    (distinct : (members.map (·.1)).Nodup) (key : String) :
    (Json.object members).inNameOrder.get? key = (Json.object members).get? key :=
  (Json.get?_ofMembers key members).trans (FieldMap.lookupEntries_reverse distinct key)

/-- **What is read as filters is written as it was**, with the members of an object in order. -/
theorem FilterInput.toJson_of_ofJson? {j : Json} {input : FilterInput}
    (h : FilterInput.ofJson? j = some input) : input.toJson = j.inNameOrder := by
  unfold FilterInput.ofJson? at h
  cases j with
  | string pair =>
    cases h
    rfl
  | array items =>
    cases hpairs : (Json.array items).asStrings? with
    | some pairs =>
      rw [hpairs] at h
      cases h
      exact writesBack_strings _ pairs hpairs
    | none =>
      rw [hpairs] at h
      cases h
  | object members =>
    obtain ⟨filters, hfilters, rfl⟩ := Option.map_eq_some_iff.1 h
    exact writesBack_filterValue.mapOf hfilters
  | _ => cases h

/-! ## Words -/

theorem readsBack_sortDirection :
    ReadsBack (fun d : SortDirection => .string d.word) SortDirection.ofJson? :=
  readsBack_oneOf fun d => by cases d <;> rfl

theorem readsBack_dataType : ReadsBack (fun d : DataType => .string d.word) DataType.ofJson? :=
  readsBack_oneOf fun d => by cases d <;> rfl

theorem readsBack_facetOrder : ReadsBack (fun o : FacetOrder => .string o.word) FacetOrder.ofJson? :=
  readsBack_oneOf fun o => by cases o <;> rfl

theorem readsBack_elementSource :
    ReadsBack (fun s : ElementSource => .string s.word) ElementSource.ofJson? :=
  readsBack_oneOf fun s => by cases s <;> rfl

/-! ## Records -/

theorem readsBack_sortOrder : ReadsBack SortOrder.toJson SortOrder.ofJson? := by
  intro order
  have hdirection : order.toJson.field "direction" SortDirection.ofJson? = some order.direction :=
    readsBack_sortDirection.field rfl
  have hfield : order.toJson.field "field" Json.asString? = some order.field := rfl
  rw [SortOrder.ofJson?, hfield, hdirection]
  rfl

theorem readsBack_itemElement : ReadsBack ItemElement.toJson ItemElement.ofJson? := fun _ => rfl

theorem readsBack_item : ReadsBack Item.toJson Item.ofJson? := by
  intro item
  have hoption : ∀ {key : String} {o : Option String},
      item.toJson.get? key = some (Json.ofOption .string o) →
        item.toJson.fieldOption key Json.asString? = some o :=
    readsBack_string.fieldOption fun _ => Json.noConfusion
  have hid : item.toJson.field Field.indexId Json.asString? = some item.indexId := rfl
  have haddress : item.toJson.field Field.sourceUri Json.asString? = some item.sourceUri := rfl
  have hservice : item.toJson.fieldOption Field.serviceKey Json.asString? = some item.serviceKey :=
    hoption rfl
  have hvariant : item.toJson.fieldOption Field.variant Json.asString? = some item.variant :=
    hoption rfl
  have hparent : item.toJson.fieldOption Field.parentId Json.asString? = some item.parentId :=
    hoption rfl
  have helements : item.toJson.field Field.elements (Json.listOf ItemElement.ofJson?)
      = some item.elements := readsBack_itemElement.listOf.field rfl
  rw [Item.ofJson?, hid, haddress, hservice, hvariant, hparent, helements]
  rfl

/-- A word is a whole number that fits one. -/
theorem readsBack_uint64 : ReadsBack Json.ofUInt64 Json.asUInt64? := by
  intro n
  have hfits : (0 : Int) ≤ n.toNat ∧ (n.toNat : Int) ≤ Json.maxWord := by
    have hlt := n.toNat_lt
    unfold Json.maxWord
    omega
  have hint : Json.asIntIn? 0 Json.maxWord (.ofUInt64 n) = some (n.toNat : Int) := if_pos hfits
  rw [Json.asUInt64?, hint, Option.map_some, Int.toNat_natCast, UInt64.ofNat_toNat]

theorem readsBack_bucket : ReadsBack Bucket.toJson Bucket.ofJson? := by
  intro b
  have hname : b.toJson.field "name" Json.asString? = some b.name := rfl
  have hlabel : b.toJson.field "label" Json.asString? = some b.label := rfl
  have hcount : b.toJson.field "count" Json.asUInt64? = some b.count := readsBack_uint64.field rfl
  rw [Bucket.ofJson?, hname, hlabel, hcount]
  rfl

theorem readsBack_facet : ReadsBack Facet.toJson Facet.ofJson? := by
  intro f
  have hname : f.toJson.field "name" Json.asString? = some f.name := rfl
  have hfield : f.toJson.field "field" Json.asString? = some f.field := rfl
  have hbuckets : f.toJson.field "buckets" (Json.listOf Bucket.ofJson?) = some f.buckets :=
    readsBack_bucket.listOf.field rfl
  rw [Facet.ofJson?, hname, hfield, hbuckets]
  rfl

theorem readsBack_contentService : ReadsBack ContentService.toJson ContentService.ofJson? := by
  intro s
  have hkey : s.toJson.field "key" Json.asString? = some s.key := rfl
  have hname : s.toJson.field "name" Json.asString? = some s.name := rfl
  have huri : s.toJson.fieldOption "uri" Json.asString? = some s.uri :=
    readsBack_string.fieldOption (fun _ => Json.noConfusion) rfl
  rw [ContentService.ofJson?, hkey, hname, huri]
  rfl

/-- The weights that an element can be read with: signed half words. -/
def Element.WeightFits (e : Element) : Prop :=
  -(Json.signedHalfMagnitude : Int) ≤ e.weight ∧ e.weight ≤ Json.signedHalfMagnitude - 1

theorem Element.ofJson?_toJson_iff (e : Element) :
    Element.ofJson? e.toJson = some e ↔ e.WeightFits := by
  have hname : e.toJson.field "name" Json.asString? = some e.name := rfl
  have hlabel : e.toJson.field "label" Json.asString? = some e.label := rfl
  have htype : e.toJson.field "data_type" DataType.ofJson? = some e.dataType :=
    readsBack_dataType.field rfl
  have hsource : e.toJson.field "source" ElementSource.ofJson? = some e.source :=
    readsBack_elementSource.field rfl
  have hsearchable : e.toJson.field "searchable" Json.asBool? = some e.searchable := rfl
  have hsortable : e.toJson.field "sortable" Json.asBool? = some e.sortable := rfl
  have hfacetable : e.toJson.field "facetable" Json.asBool? = some e.facetable := rfl
  have horder : e.toJson.field "facet_order" FacetOrder.ofJson? = some e.facetOrder :=
    readsBack_facetOrder.field rfl
  rw [Element.ofJson?, hname, hlabel, htype, hsource, hsearchable, hsortable, hfacetable, horder]
  by_cases hfits : e.WeightFits
  · have hweight : e.toJson.field "weight" Json.asInt32? = some e.weight := if_pos hfits
    rw [hweight]
    exact ⟨fun _ => hfits, fun _ => rfl⟩
  · have hweight : e.toJson.field "weight" Json.asInt32? = none := if_neg hfits
    rw [hweight]
    exact ⟨fun h => absurd h (Option.some_ne_none e).symm, fun h => absurd h hfits⟩

/-! ## The main statement about records -/

/-- **What is written is read back.** Every filter value, filter input, sort order, item, facet,
bucket and content service, and every word for a direction, a data type, an order of buckets or a
vocabulary, is what the reader makes of its written form; so no shape of filters is taken for
another. The same holds of elements, if their weight is one that can be read at all. And what is read
as filters is written as it was: the very same value, if the members of an object stand in the order
of their names, and otherwise the value with its members in that order. -/
theorem written_records_read_back :
    ReadsBack FilterValue.toJson FilterValue.ofJson? ∧
    ReadsBack FilterInput.toJson FilterInput.ofJson? ∧
    ReadsBack SortOrder.toJson SortOrder.ofJson? ∧
    ReadsBack (fun d : SortDirection => .string d.word) SortDirection.ofJson? ∧
    ReadsBack Item.toJson Item.ofJson? ∧
    ReadsBack ItemElement.toJson ItemElement.ofJson? ∧
    ReadsBack Facet.toJson Facet.ofJson? ∧
    ReadsBack Bucket.toJson Bucket.ofJson? ∧
    ReadsBack ContentService.toJson ContentService.ofJson? ∧
    ReadsBack (fun d : DataType => .string d.word) DataType.ofJson? ∧
    ReadsBack (fun o : FacetOrder => .string o.word) FacetOrder.ofJson? ∧
    ReadsBack (fun s : ElementSource => .string s.word) ElementSource.ofJson? ∧
    (∀ e : Element, Element.ofJson? e.toJson = some e ↔ e.WeightFits) ∧
    ∀ (j : Json) (input : FilterInput), FilterInput.ofJson? j = some input →
      input.toJson = j.inNameOrder ∧
      ((∀ members, j = .object members → SortedEntries members) → input.toJson = j) := by
  refine ⟨readsBack_filterValue, readsBack_filterInput, readsBack_sortOrder,
    readsBack_sortDirection, readsBack_item, readsBack_itemElement, readsBack_facet,
    readsBack_bucket, readsBack_contentService, readsBack_dataType, readsBack_facetOrder,
    readsBack_elementSource, Element.ofJson?_toJson_iff, ?_⟩
  intro j input hread
  have hwritten : input.toJson = j.inNameOrder := FilterInput.toJson_of_ofJson? hread
  refine ⟨hwritten, fun hsorted => ?_⟩
  rw [hwritten, Json.inNameOrder_of_sorted hsorted]

/-- Filters by three fields, one of them without values: they are read as a map, and written again as
they were. -/
theorem filters_read_and_written :
    let j : Json := .object [("creator", .string "Smith"),
      ("variant", .array [.string "item", .string "collection"]), ("year", .array [])]
    ∃ filters : FilterMap, FilterInput.ofJson? j = some (.map filters) ∧
      filters.get? "creator" = some (.one "Smith") ∧ filters.get? "year" = some (.many []) ∧
      (FilterInput.map filters).toJson = j := by
  intro j
  obtain ⟨-, -, -, -, -, -, -, -, -, -, -, -, -, hwritten⟩ := written_records_read_back
  have hsorted : ∀ members, j = .object members → SortedEntries members := by
    intro members h
    rw [← Json.object.inj h, SortedEntries]
    decide
  have hread : FilterInput.ofJson? j = some (.map (.ofList [("creator", .one "Smith"),
      ("variant", .many ["item", "collection"]), ("year", .many [])])) := rfl
  exact ⟨_, hread, rfl, rfl, (hwritten j _ hread).2 hsorted⟩

/-! ## Items as stored documents -/

namespace Item

/-- The written form of an item has members under well-known fields only. -/
theorem get?_toJson_eq_none {item : Item} {field : String} (h : field ∉ Field.wellKnown) :
    item.toJson.get? field = none := by
  refine FieldMap.lookupEntries_eq_none_iff.2 fun e he heq => h ?_
  have hkeys : ∀ key ∈ Field.bookkeeping ++ [Field.elements], key ∈ Field.wellKnown := by decide
  rw [← heq]
  exact hkeys e.1 (List.mem_map_of_mem he)

/-- An optional member reads as the text it was written from, and `null` as none. -/
theorem scalarText?_ofOption (o : Option String) :
    (Json.ofOption .string o).scalarText? = o := by
  cases o with
  | none => rfl
  | some text => rfl

theorem inlinePairs_toJson (item : Item) : inlinePairs item.toJson = item.elements := by
  show (item.elements.map ItemElement.toJson).filterMap _ = _
  rw [List.filterMap_map]
  exact List.filterMap_some

/-- No element that is indexed elsewhere than in the address finds a value in a written item. -/
theorem indexedPairs_toJson (item : Item) {list : List Element}
    (hfields : ∀ e ∈ list, e.source ≠ .system → e.indexedField ≠ Field.sourceUri) :
    indexedPairs item.toJson list = [] := by
  refine List.eq_nil_iff_forall_not_mem.2 fun pair hpair => ?_
  obtain ⟨e, he, hsystem, -, hvalue⟩ := mem_indexedPairs.1 hpair
  have hunknown : e.indexedField ∉ Field.wellKnown := by
    intro hmem
    obtain ⟨hharvested, hname⟩ := (Element.indexedField_mem_wellKnown_iff hsystem).1 hmem
    refine hfields e he hsystem ?_
    rw [Element.indexedField, hharvested, hname]
    rfl
  rw [storedScalars, get?_toJson_eq_none hunknown] at hvalue
  exact absurd hvalue List.not_mem_nil

/-- A document is known by what is found in it. -/
theorem ofSource_congr {source other : Json} (h : ∀ key, source.get? key = other.get? key)
    (registry : Registry) : ofSource source registry = ofSource other registry := by
  have hscalar : scalarAt? source = scalarAt? other := funext fun key => by
    rw [scalarAt?, scalarAt?, h]
  have hinline : inlineElements source = inlineElements other := by
    rw [inlineElements, inlineElements, h]
  have hvalues : valuesAt source = valuesAt other := funext fun e => by
    rw [valuesAt, valuesAt, h]
  rw [ofSource, ofSource, hscalar, hinline, indexedElements, indexedElements, hvalues]

/-- A valid item has an identity, an address and an element. -/
theorem parts_of_validate {item : Item} (h : item.validate = .ok item) :
    Text.isBlank item.indexId = false ∧ Text.isBlank item.sourceUri = false ∧
      item.elements ≠ [] := by
  cases hid : Text.isBlank item.indexId with
  | true => simp [validate, fault?, hid] at h
  | false =>
    cases huri : Text.isBlank item.sourceUri with
    | true => simp [validate, fault?, hid, huri] at h
    | false =>
      refine ⟨rfl, rfl, fun hnil => ?_⟩
      simp [validate, fault?, hid, huri, hnil] at h

/-- **The written form of an item is a stored document of that item.** Take any valid item that
repeats no pair of name and value, and any list of elements that makes a registry and in which no
element but a system element is indexed in the address. -/
theorem ofSource_toJson {item : Item} (hvalid : item.validate = .ok item)
    (hnodup : item.elements.Nodup) {list : List Element} {registry : Registry}
    (hlist : Registry.ofList list = .ok registry)
    (hfields : ∀ e ∈ list, e.source ≠ .system → e.indexedField ≠ Field.sourceUri) :
    ofSource item.toJson registry = .ok item ∧
      ofSource item.toJson.inNameOrder registry = .ok item := by
  obtain ⟨hid, huri, hne⟩ := parts_of_validate hvalid
  have hpairs : inlinePairs item.toJson ++ indexedPairs item.toJson registry.elements
      = item.elements := by
    rw [Registry.elements_of_ofList hlist, inlinePairs_toJson, indexedPairs_toJson item hfields,
      List.append_nil]
  have hkept : item.elements.eraseDups = item.elements := by
    rw [← dedup_eq_eraseDups, dedup_of_nodup hnodup]
  have hitem : ofSource item.toJson registry = .ok item := by
    refine ofSource_eq_ok_iff.2 ⟨⟨rfl, hid⟩, ⟨rfl, huri⟩, hpairs.symm ▸ hne, ?_⟩
    rw [hpairs, hkept]
    -- what is left are the three optional members
    have hservice : scalarAt? item.toJson Field.serviceKey = item.serviceKey :=
      scalarText?_ofOption item.serviceKey
    have hvariant : scalarAt? item.toJson Field.variant = item.variant :=
      scalarText?_ofOption item.variant
    have hparent : scalarAt? item.toJson Field.parentId = item.parentId :=
      scalarText?_ofOption item.parentId
    rw [hservice, hvariant, hparent]
  have hnames : (Field.bookkeeping ++ [Field.elements]).Nodup := by decide
  have horder : ofSource item.toJson.inNameOrder registry = ofSource item.toJson registry := by
    refine ofSource_congr (fun key => ?_) registry
    refine Json.get?_inNameOrder ?_ key
    exact hnames
  exact ⟨hitem, horder.trans hitem⟩

/-- An item without a variant or a parent, and a registry that knows both of its elements and keeps
the address as a system element. -/
theorem ofSource_of_written_item :
    let item : Item := ⟨"x1", "http://example.org/x1", some "svc", none, none,
      [⟨"title", "Harbor"⟩, ⟨"subject", "Maps"⟩, ⟨"subject", "Ships"⟩]⟩
    let list := [Element.plain "title" .localVocabulary, Element.plain "subject" .harvested,
      Element.plain Field.sourceUri .system]
    item.validate = .ok item ∧ item.elements.Nodup ∧
      (∀ e ∈ list, e.source ≠ .system → e.indexedField ≠ Field.sourceUri) ∧
      ∃ registry, Registry.ofList list = .ok registry ∧
        ofSource item.toJson registry = .ok item := by
  intro item list
  have hvalid : item.validate = .ok item := validate_eq_ok (by decide) (by decide) (by decide)
  have hnodup : item.elements.Nodup := by decide
  have hfields : ∀ e ∈ list, e.source ≠ .system → e.indexedField ≠ Field.sourceUri := by decide
  have hlist : Registry.ofList list = .ok ⟨list, by decide⟩ := rfl
  exact ⟨hvalid, hnodup, hfields, _, hlist, (ofSource_toJson hvalid hnodup hlist hfields).1⟩

end Item

end HarvestSearch
