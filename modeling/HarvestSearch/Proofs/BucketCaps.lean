/-
How many buckets a document asks for.

The sizes in a document come from `gleaner_search::query::QueryBuilder::aggregations`. A cap is set
in three places. A configuration has one for facets ordered by count and one for alphanumeric
facets, the checks of the configuration keep both usable and in order, and a request may have a cap
of its own, in which zero means that it has none. `Config.caps_of_fault?` is what the checks are
worth here, `Aggregation.bucketLimit_eq_own` and `Aggregation.bucketLimit_eq_configured` say which
of the two caps counts, and `Aggregation.sizeFor` is the number of buckets that follows for each
order.

What is said of the sizes is said of the written document: `Aggregation.part?` reads the size and
the order of the buckets off the JSON. The map of the aggregations keeps one of several elements
under one field, so an aggregation is traced back to some element that is asked for, and its written
order tells which of the two sizes it has. `Document.bucket_caps_usable` is the main statement.
-/
import HarvestSearch.Proofs.CountedFacets

set_option autoImplicit false

namespace HarvestSearch

/-! ## The caps of a configuration -/

/-- A configuration without a fault has a positive cap for facets by count, and its cap for
alphanumeric facets is not below that. -/
theorem Config.caps_of_fault? {c : Config} (h : c.fault? = none) :
    1 ≤ c.search.bucketLimit ∧ c.search.bucketLimit ≤ c.search.alphanumericBucketLimit := by
  have hsound := Config.fault?_eq_none_iff.1 h
  refine ⟨?_, hsound.alphanumeric⟩
  have hpos : 0 < c.search.bucketLimit := UInt32.pos_iff_ne_zero.2 hsound.bucketLimit
  rw [UInt32.lt_iff_toNat_lt, UInt32.toNat_zero] at hpos
  rw [UInt32.le_iff_toNat_le, UInt32.toNat_one]
  omega

/-! ## The caps of a request -/

namespace Aggregation

variable {settings : Settings} {r : Request}

/-- A cap of its own that is not zero is the cap of a request. -/
theorem bucketLimit_eq_own {own : UInt32} (hown : r.bucketLimit = some own) (hpos : 0 < own) :
    bucketLimit settings r = own := by
  have hne : own ≠ 0 := UInt32.pos_iff_ne_zero.1 hpos
  unfold bucketLimit
  rw [hown]
  exact if_neg hne

/-- A request without a cap, or with a cap of zero, has the configured one. -/
theorem bucketLimit_eq_configured (hnone : ∀ own, r.bucketLimit = some own → own = 0) :
    bucketLimit settings r = settings.bucketLimit := by
  unfold bucketLimit
  cases hown : r.bucketLimit with
  | none => rfl
  | some own => exact if_pos (hnone own hown)

/-- One of the two is the cap of a request, so it is positive where the configured one is. -/
theorem one_le_bucketLimit (hconfigured : 1 ≤ settings.bucketLimit) :
    1 ≤ bucketLimit settings r := by
  by_cases hown : ∃ own, r.bucketLimit = some own ∧ 0 < own
  · obtain ⟨own, hown, hpos⟩ := hown
    rw [bucketLimit_eq_own hown hpos, UInt32.le_iff_toNat_le, UInt32.toNat_one]
    rw [UInt32.lt_iff_toNat_lt, UInt32.toNat_zero] at hpos
    omega
  · rw [bucketLimit_eq_configured]
    · exact hconfigured
    · intro own h
      by_contra hne
      exact hown ⟨own, h, UInt32.pos_iff_ne_zero.2 hne⟩

/-- The number of buckets that a facet of the order is asked for with. -/
def sizeFor (settings : Settings) (r : Request) : FacetOrder → UInt32
  | .byCount => bucketLimit settings r
  | .alphanumeric => max settings.alphanumericBucketLimit (bucketLimit settings r)

/-- The size of an alphanumeric facet is not below its configured cap, and not below the size of any
facet by count. -/
theorem le_sizeFor_alphanumeric (settings : Settings) (r : Request) :
    settings.alphanumericBucketLimit ≤ sizeFor settings r .alphanumeric ∧
      sizeFor settings r .byCount ≤ sizeFor settings r .alphanumeric := by
  have hmax : sizeFor settings r .alphanumeric
      = if settings.alphanumericBucketLimit ≤ bucketLimit settings r then bucketLimit settings r
        else settings.alphanumericBucketLimit := rfl
  have hshare : sizeFor settings r .byCount = bucketLimit settings r := rfl
  rw [hmax, hshare]
  by_cases hle : settings.alphanumericBucketLimit ≤ bucketLimit settings r
  · rw [if_pos hle]
    exact ⟨hle, UInt32.le_refl _⟩
  · rw [if_neg hle]
    exact ⟨UInt32.le_refl _, UInt32.le_of_lt (UInt32.not_le.1 hle)⟩

theorem one_le_sizeFor (hconfigured : 1 ≤ settings.bucketLimit) (order : FacetOrder) :
    1 ≤ sizeFor settings r order := by
  have hshare : 1 ≤ sizeFor settings r .byCount := one_le_bucketLimit hconfigured
  cases order with
  | byCount => exact hshare
  | alphanumeric => exact UInt32.le_trans hshare (le_sizeFor_alphanumeric settings r).2

/-- Caps in order stay as they are configured, unless the request has one. -/
theorem sizeFor_alphanumeric_eq_configured (hnone : ∀ own, r.bucketLimit = some own → own = 0)
    (hle : settings.bucketLimit ≤ settings.alphanumericBucketLimit) :
    sizeFor settings r .alphanumeric = settings.alphanumericBucketLimit := by
  refine UInt32.le_antisymm ?_ (le_sizeFor_alphanumeric settings r).1
  have hmax : sizeFor settings r .alphanumeric
      = if settings.alphanumericBucketLimit ≤ bucketLimit settings r then bucketLimit settings r
        else settings.alphanumericBucketLimit := rfl
  rw [hmax, bucketLimit_eq_configured hnone]
  by_cases h : settings.alphanumericBucketLimit ≤ settings.bucketLimit
  · rwa [if_pos h]
  · rw [if_neg h]
    exact UInt32.le_refl _

theorem size_ofElement (settings : Settings) (r : Request) (e : Element) :
    (ofElement settings r e).size = sizeFor settings r e.facetOrder := by
  unfold ofElement
  cases e.facetOrder with
  | alphanumeric => rfl
  | byCount => rfl

/-! ## The written aggregation -/

/-- A part of what a written aggregation asks for. -/
def part? (name : String) (counted : Json) : Option Json :=
  (counted.get? "terms").bind (Json.get? name)

/-- The order of the buckets as a document says it: by their counts, downwards, or by their keys. -/
def orderJson (dialect : Dialect) : FacetOrder → Json
  | .byCount => .ofMembers [("_count", .string "desc")]
  | .alphanumeric => .ofMembers [(dialect.keyOrder, .string "asc")]

/-- A document tells the two orders apart, since no dialect calls the keys `_count`. -/
theorem orderJson_injective (dialect : Dialect) : Function.Injective (orderJson dialect) := by
  have hkey : dialect.keyOrder ≠ "_count" := by cases dialect <;> decide
  have hcount : (orderJson dialect .byCount).get? "_count" = some (.string "desc") :=
    Json.get?_ofMembers_singleton "_count" _
  have hnone : (orderJson dialect .alphanumeric).get? "_count" = none := by
    unfold orderJson
    rw [Json.get?_ofMembers]
    exact FieldMap.lookupEntries_eq_none_iff.2 fun e he => by
      rw [List.reverse_singleton, List.mem_singleton] at he
      rw [he]
      exact hkey
  intro o o' h
  cases o with
  | byCount =>
    cases o' with
    | byCount => rfl
    | alphanumeric =>
      rw [h, hnone] at hcount
      cases hcount
  | alphanumeric =>
    cases o' with
    | byCount =>
      rw [h, hcount] at hnone
      cases hnone
    | alphanumeric => rfl

theorem part?_size (a : Aggregation) : part? "size" a.toJson = some (.ofUInt32 a.size) := by
  unfold part? toJson
  rw [Json.get?_ofMembers_singleton, Option.bind_some]
  have horder : ∀ e ∈ [("order", Json.ofMembers [(a.orderKey, .string a.orderDirection.word)])],
      e.1 ≠ "size" := by
    intro e he
    rw [List.mem_singleton.1 he]
    exact show "order" ≠ "size" by decide
  exact (Json.get?_ofMembers_append [("field", .string a.field), ("size", .ofUInt32 a.size)]
    horder).trans (Json.get?_ofMembers_concat "size" _ [("field", .string a.field)])

theorem part?_order (a : Aggregation) : part? "order" a.toJson
    = some (.ofMembers [(a.orderKey, .string a.orderDirection.word)]) := by
  unfold part? toJson
  rw [Json.get?_ofMembers_singleton, Option.bind_some]
  exact Json.get?_ofMembers_concat "order" _
    [("field", .string a.field), ("size", .ofUInt32 a.size)]

theorem part?_order_ofElement (settings : Settings) (r : Request) (e : Element) :
    part? "order" (ofElement settings r e).toJson
      = some (orderJson settings.dialect e.facetOrder) := by
  rw [part?_order]
  unfold ofElement
  cases e.facetOrder with
  | alphanumeric => rfl
  | byCount => rfl

/-- An aggregation of a request is that of some element which is asked for, also where several of
these share a field and only one is kept. -/
theorem exists_of_mem_entries {registry : Registry} {entry : String × Aggregation}
    (h : entry ∈ (ofRequest settings registry r).entries) :
    ∃ e ∈ requestedElements registry r, entry = (e.facetField, ofElement settings r e) := by
  by_cases hr : r.aggregations = true
  · obtain ⟨key, a⟩ := entry
    rw [FieldMap.mem_entries_iff, ofRequest, if_pos hr, FieldMap.get?_ofList] at h
    have hmem := List.mem_reverse.1 (FieldMap.mem_of_lookupEntries h)
    obtain ⟨e, he, heq⟩ := List.mem_map.1 hmem
    exact ⟨e, he, heq.symm⟩
  · rw [ofRequest, if_neg hr] at h
    exact absurd h List.not_mem_nil

end Aggregation

/-! ## The main statement -/

/-- **Every count that is asked for has room for buckets.** For every configuration without a fault,
every catalog and every request there is one cap for each order of buckets. Both are positive. The
cap by count is the cap of the request when that is positive, and else the configured one; the
alphanumeric cap is the larger of the configured one and the cap by count, and is the configured one
itself unless the request has a cap. In the written document every aggregation belongs to an element
that is asked for and has its order, its size is the cap of that order, and no element that is asked
for goes without an aggregation under its field. -/
theorem Document.bucket_caps_usable {config : Config} (hvalid : config.fault? = none)
    (catalog : Catalog) (r : Request) :
    let settings := Settings.ofConfig config
    let document := (Document.build settings catalog r).toJson
    let orderJson := Aggregation.orderJson settings.dialect
    ∃ cap : FacetOrder → UInt32,
      (∀ order, 1 ≤ cap order) ∧
      (∀ own, r.bucketLimit = some own → 0 < own → cap .byCount = own) ∧
      ((∀ own, r.bucketLimit = some own → own = 0) →
        cap .byCount = config.search.bucketLimit ∧
        cap .alphanumeric = config.search.alphanumericBucketLimit) ∧
      cap .alphanumeric = max config.search.alphanumericBucketLimit (cap .byCount) ∧
      cap .byCount ≤ cap .alphanumeric ∧
      config.search.alphanumericBucketLimit ≤ cap .alphanumeric ∧
      (∀ counted ∈ document.aggregations,
        (∃ e ∈ Aggregation.requestedElements catalog.registry r, e.facetField = counted.1 ∧
          Aggregation.part? "order" counted.2 = some (orderJson e.facetOrder)) ∧
        ∀ order, Aggregation.part? "order" counted.2 = some (orderJson order) →
          Aggregation.part? "size" counted.2 = some (.ofUInt32 (cap order))) ∧
      (r.aggregations = true → ∀ e ∈ Aggregation.requestedElements catalog.registry r,
        ∃ counted ∈ document.aggregations, counted.1 = e.facetField) := by
  intro settings document orderJson
  obtain ⟨hpos, hle⟩ := Config.caps_of_fault? hvalid
  obtain ⟨hconfigured, hshare⟩ := Aggregation.le_sizeFor_alphanumeric settings r
  have hwritten : document.aggregations
      = (Aggregation.ofRequest settings catalog.registry r).entries.map
          fun entry => (entry.1, entry.2.toJson) := Document.aggregations_toJson _
  refine ⟨Aggregation.sizeFor settings r, Aggregation.one_le_sizeFor hpos,
    fun own => Aggregation.bucketLimit_eq_own, fun hnone => ⟨?_, ?_⟩, rfl, hshare, hconfigured,
    fun counted hcounted => ?_, fun hr e he => ?_⟩
  · exact Aggregation.bucketLimit_eq_configured hnone
  · exact Aggregation.sizeFor_alphanumeric_eq_configured hnone hle
  · rw [hwritten] at hcounted
    obtain ⟨entry, hentry, rfl⟩ := List.mem_map.1 hcounted
    obtain ⟨e, he, rfl⟩ := Aggregation.exists_of_mem_entries hentry
    have horder : Aggregation.part? "order" (Aggregation.ofElement settings r e).toJson
        = some (orderJson e.facetOrder) := Aggregation.part?_order_ofElement settings r e
    refine ⟨⟨e, he, rfl, horder⟩, fun order h => ?_⟩
    -- the order that is written is that of the element, so the size is for this order
    have heq : e.facetOrder = order :=
      Aggregation.orderJson_injective settings.dialect (Option.some.inj (horder.symm.trans h))
    show Aggregation.part? "size" (Aggregation.ofElement settings r e).toJson = _
    rw [Aggregation.part?_size, Aggregation.size_ofElement, heq]
  · have hkey : e.facetField ∈ (Aggregation.ofRequest settings catalog.registry r).keys :=
      (Aggregation.mem_keys_iff_mem_map_facetField hr).2 (List.mem_map_of_mem he)
    obtain ⟨entry, hentry, hfield⟩ := List.mem_map.1 hkey
    refine ⟨(entry.1, entry.2.toJson), ?_, hfield⟩
    rw [hwritten]
    exact List.mem_map_of_mem (f := fun entry => (entry.1, entry.2.toJson)) hentry

/-- A request with the largest cap there is: it counts for the facets by count, and the alphanumeric
facet of the variants goes along with it. -/
theorem Document.sizes_of_largest_cap :
    let config : Config :=
      ⟨⟨"info"⟩, ⟨"http://localhost", "items", "modern", 1000, none, .empty⟩, .usual⟩
    let r := { Request.initial with bucketLimit := some 4294967295 }
    let document := (Document.build (.ofConfig config) Sample.catalog r).toJson
    config.fault? = none ∧
      (∃ counted ∈ document.aggregations, counted.1 = Field.variant) ∧
      ∀ counted ∈ document.aggregations,
        Aggregation.part? "size" counted.2 = some (.ofUInt32 4294967295) := by
  intro config r document
  have hvalid : config.fault? = none := by decide
  obtain ⟨cap, -, hown, -, halphanumeric, -, -, hsizes, hall⟩ :=
    Document.bucket_caps_usable hvalid Sample.catalog r
  have hshare : cap .byCount = 4294967295 := hown 4294967295 rfl (by decide)
  have hlarge : ∀ order, cap order = 4294967295 := by
    intro order
    cases order with
    | byCount => exact hshare
    | alphanumeric =>
      rw [halphanumeric, hshare]
      decide
  refine ⟨hvalid, ?_, fun counted hcounted => ?_⟩
  · let typed := ((Element.plain Field.variant .system).withLabel "Type").asFacetable .alphanumeric
    obtain ⟨counted, hcounted, hfield⟩ := hall rfl (typed.withWeight 1) (by decide)
    exact ⟨counted, hcounted, hfield⟩
  · obtain ⟨⟨e, -, -, horder⟩, hsize⟩ := hsizes counted hcounted
    rw [hsize e.facetOrder horder, hlarge]

end HarvestSearch
