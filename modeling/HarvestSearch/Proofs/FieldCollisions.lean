/-
When two elements of a registry share a field, and what is lost then.

A registry (`gleaner_domain::element::ElementRegistry`) keeps the names of its elements distinct,
and the fields are made of the names. They are not distinct for that: a system element may be named
like the field of an element of another vocabulary, such as a system element `date_issued` beside a
local date `issued`. `Element.fieldWithTail_eq_iff` says that this is the only way, and here it is
drawn out for registries.

Two things are counted by field. A document has one aggregation under a field, so it asks for fewer
counts than it has elements to ask for when two of these share a facet field; and a reply is read
once for every element, so its buckets make two facets. `Registry.nodup_fields_iff` is the reason
for both, and `Registry.fields_collide_iff` puts them together.
-/
import HarvestSearch.Proofs.IndexFields
import HarvestSearch.Proofs.RequestedFacets
import Mathlib.Data.List.Dedup
import Mathlib.Data.List.Nodup

set_option autoImplicit false

namespace HarvestSearch

/-! ## Names of maps -/

/-- A map has as many names as the list it was made of exactly if the list repeats none. -/
theorem FieldMap.length_keys_ofList_eq_iff {α : Type} {entries : List (String × α)} :
    (ofList entries).keys.length = entries.length ↔ (entries.map (·.1)).Nodup := by
  have hperm : (ofList entries).keys.Perm (entries.map (·.1)).dedup := by
    refine (List.perm_ext_iff_of_nodup (nodup_of_sorted (ofList entries).sorted)
      (List.nodup_dedup _)).2 fun key => ?_
    rw [List.mem_dedup]
    exact mem_keys_ofList
  have hnames : entries.length = (entries.map (·.1)).length := (List.length_map _).symm
  rw [hperm.length_eq, hnames]
  constructor
  · intro hlength
    exact List.dedup_eq_self.1 ((List.dedup_sublist _).eq_of_length hlength)
  · intro hnodup
    rw [hnodup.dedup]

/-! ## Collisions -/

namespace Element

variable {tail : String} {e e' : Element}

/-- Elements that collide share the field. -/
theorem Collide.field_eq (h : Collide (fieldWithTail · tail) e e') :
    e.fieldWithTail tail = e'.fieldWithTail tail := by
  rcases h with ⟨hsystem, -, hname⟩ | ⟨hsystem, -, hname⟩
  · rw [fieldWithTail_of_system hsystem, hname]
  · rw [fieldWithTail_of_system hsystem, hname]

/-- No element collides with itself. -/
theorem Collide.ne {field : Element → String} (h : Collide field e e') : e ≠ e' := by
  rintro rfl
  rcases h with ⟨hsystem, hother, -⟩ | ⟨hsystem, hother, -⟩
  · exact hother hsystem
  · exact hother hsystem

end Element

namespace Registry

open Element

variable {registry : Registry}

/-- Different elements of a registry have different names. -/
theorem name_ne_of_ne {e e' : Element} (he : e ∈ registry.elements) (he' : e' ∈ registry.elements)
    (hne : e ≠ e') : e.name ≠ e'.name :=
  fun hname => hne (List.inj_on_of_nodup_map registry.distinct he he' hname)

/-- The facetable elements are listed once. -/
theorem nodup_facetable : registry.facetable.Nodup :=
  (StableOrder.perm_orderBy _ _).nodup_iff.2 ((List.Nodup.of_map _ registry.distinct).filter _)

/-- **Distinct fields.** Some elements of a registry have distinct fields exactly if no two of them
collide. -/
theorem nodup_fields_iff {es : List Element} (hnodup : es.Nodup)
    (hes : ∀ e ∈ es, e ∈ registry.elements) (tail : String) :
    (es.map (fieldWithTail · tail)).Nodup ↔
      ∀ e ∈ es, ∀ e' ∈ es, ¬Collide (fieldWithTail · tail) e e' := by
  rw [List.nodup_map_iff_inj_on hnodup]
  refine forall₂_congr fun e he => forall₂_congr fun e' he' => ?_
  constructor
  · intro hinj hcollide
    exact hcollide.ne (hinj hcollide.field_eq)
  · intro hno heq
    by_contra hne
    exact hno ((fieldWithTail_eq_iff (name_ne_of_ne (hes e he) (hes e' he') hne) tail).1 heq)

end Registry

/-! ## What is asked for and what is read -/

/-- A document asks for one count for every element asked for, exactly if no two of these collide. -/
theorem Aggregation.length_keys_ofRequest_eq_iff {settings : Settings} {registry : Registry}
    {r : Request} (hr : r.aggregations = true) :
    (ofRequest settings registry r).keys.length = (requestedElements registry r).length ↔
      ∀ e ∈ requestedElements registry r, ∀ e' ∈ requestedElements registry r,
        ¬Element.Collide Element.facetField e e' := by
  have hnodup : (requestedElements registry r).Nodup := Registry.nodup_facetable.filter _
  have hes : ∀ e ∈ requestedElements registry r, e ∈ registry.elements := fun e he =>
    (Registry.mem_facetable.1 (List.mem_filter.1 he).1).1
  have hentries : (requestedElements registry r).length
      = ((requestedElements registry r).map fun e => (e.facetField, ofElement settings r e)).length :=
    (List.length_map _).symm
  refine Iff.trans ?_ (Registry.nodup_fields_iff hnodup hes Field.keywordTail)
  rw [ofRequest, if_pos hr, hentries, FieldMap.length_keys_ofList_eq_iff, List.map_map]
  rfl

namespace Facet

/-- A reply is read once for every facetable element whose field it has buckets for. -/
theorem assemble_eq_map (reply : Json) (registry : Registry) (services : ServiceDirectory) :
    assemble reply registry services
      = (registry.facetable.filter fun e => (Reply.buckets? reply e.facetField).isSome).map fun e =>
          ⟨e.label, e.facetField, ((Reply.buckets? reply e.facetField).getD []).filterMap
            (Bucket.ofReply? services e)⟩ := by
  unfold assemble
  induction registry.facetable with
  | nil => rfl
  | cons e rest ih =>
    rw [List.filterMap_cons, List.filter_cons]
    unfold ofReply?
    cases hbuckets : Reply.buckets? reply e.facetField with
    | none => exact ih
    | some raw =>
      rw [Option.isSome_some, if_pos rfl, List.map_cons, hbuckets, ← ih]
      rfl

/-- The fields of the facets are those with buckets. -/
theorem map_field_assemble (reply : Json) (registry : Registry) (services : ServiceDirectory) :
    (assemble reply registry services).map (·.field)
      = (registry.facetable.filter fun e => (Reply.buckets? reply e.facetField).isSome).map
          Element.facetField := by
  rw [assemble_eq_map, List.map_map]
  rfl

/-- No two facets have one field, exactly if the reply has no buckets where elements collide. -/
theorem nodup_field_assemble_iff {reply : Json} {registry : Registry}
    {services : ServiceDirectory} :
    ((assemble reply registry services).map (·.field)).Nodup ↔
      ∀ e ∈ registry.facetable, ∀ e' ∈ registry.facetable,
        Element.Collide Element.facetField e e' → Reply.buckets? reply e.facetField = none := by
  have hes : ∀ e ∈ registry.facetable.filter
      (fun e => (Reply.buckets? reply e.facetField).isSome), e ∈ registry.elements :=
    fun e he => (Registry.mem_facetable.1 (List.mem_filter.1 he).1).1
  rw [map_field_assemble]
  refine (Registry.nodup_fields_iff (Registry.nodup_facetable.filter _) hes
    Field.keywordTail).trans ?_
  constructor
  · intro hno e he e' he' hcollide
    -- elements that collide are counted in one field, so both have buckets or none
    have hfield : e.facetField = e'.facetField := hcollide.field_eq
    by_contra hbuckets
    have hsome : (Reply.buckets? reply e.facetField).isSome = true :=
      Option.isSome_iff_ne_none.2 hbuckets
    exact hno e (List.mem_filter.2 ⟨he, hsome⟩) e' (List.mem_filter.2 ⟨he', hfield ▸ hsome⟩)
      hcollide
  · intro hnone e he e' he' hcollide
    obtain ⟨he, hsome⟩ := List.mem_filter.1 he
    rw [hnone e he e' (List.mem_filter.1 he').1 hcollide] at hsome
    cases hsome

end Facet

/-! ## The main statement -/

/-- **When fields collide.** Take any list of elements that makes a registry. Two different elements
share their indexed field, their facet field or their sort field exactly if one of them is a system
element that is named like that field of the other, which is none. With aggregations on, a document
asks for one count for every facetable element that is not left out, exactly if no two of these
collide; and the facets that are read from a reply have distinct fields, exactly if the reply has no
buckets for elements that collide. -/
theorem Registry.fields_collide_iff {list : List Element} {registry : Registry}
    (hlist : Registry.ofList list = .ok registry) :
    (∀ e ∈ list, ∀ e' ∈ list, e ≠ e' →
      (e.indexedField = e'.indexedField ↔ Element.Collide Element.indexedField e e') ∧
      (e.facetField = e'.facetField ↔ Element.Collide Element.facetField e e') ∧
      (e.sortField = e'.sortField ↔ Element.Collide Element.sortField e e')) ∧
    (∀ (settings : Settings) (boosts : BoostTable) (services : ServiceDirectory) (r : Request),
      r.aggregations = true →
      let document := (Document.build settings ⟨registry, boosts, services⟩ r).toJson
      let asked := Aggregation.requestedElements registry r
      (Document.requestedFields document).length = asked.length ↔
        ∀ e ∈ asked, ∀ e' ∈ asked, ¬Element.Collide Element.facetField e e') ∧
    ∀ (services : ServiceDirectory) (reply : Json),
      ((Facet.assemble reply registry services).map (·.field)).Nodup ↔
        ∀ e ∈ registry.facetable, ∀ e' ∈ registry.facetable,
          Element.Collide Element.facetField e e' → Reply.buckets? reply e.facetField = none := by
  have helements : registry.elements = list := elements_of_ofList hlist
  refine ⟨?_, ?_, fun services reply => Facet.nodup_field_assemble_iff⟩
  · intro e he e' he' hne
    rw [← helements] at he he'
    have hfields := Element.fieldWithTail_eq_iff (name_ne_of_ne he he' hne)
    refine ⟨?_, hfields Field.keywordTail, hfields Field.sortTail⟩
    have hindexed := hfields ""
    simp only [Element.fieldWithTail_empty] at hindexed
    exact hindexed
  · intro settings boosts services r hr document asked
    show (Document.requestedFields (Document.build _ _ _).toJson).length = _ ↔ _
    rw [Document.requestedFields_toJson]
    exact Aggregation.length_keys_ofRequest_eq_iff hr

/-- A system element `date_issued` beside a local date `issued`: a document asks for one count for
the two of them, and the buckets of a reply make two facets of one field. -/
theorem facets_of_date_issued :
    let bookkeeping := (Element.plain "date_issued" .system).asFacetable .byCount
    let date := ((Element.plain "issued" .localVocabulary).withDataType .date).asFacetable .byCount
    let reply : Json := .object [("aggregations", .object [
      ("date_issued", .object [("buckets", .array [])])])]
    ∃ registry, Registry.ofList [bookkeeping, date] = .ok registry ∧
      bookkeeping.indexedField = date.indexedField ∧ bookkeeping.facetField = date.facetField ∧
      bookkeeping.sortField = date.sortField ∧
      (Document.requestedFields (Document.build .usual ⟨registry, .empty, .empty⟩
        Request.initial).toJson).length
          ≠ (Aggregation.requestedElements registry Request.initial).length ∧
      ¬((Facet.assemble reply registry .empty).map (·.field)).Nodup := by
  intro bookkeeping date reply
  have hlist : Registry.ofList [bookkeeping, date] = .ok ⟨[bookkeeping, date], by decide⟩ := rfl
  have hmem : bookkeeping ∈ [bookkeeping, date] := List.mem_cons_self
  have hmem' : date ∈ [bookkeeping, date] := List.mem_cons_of_mem _ List.mem_cons_self
  have htakes : ∀ field : Element → String, bookkeeping.name = field date →
      Element.Collide field bookkeeping date := by
    intro field hname
    exact .inl ⟨rfl, by decide, hname⟩
  obtain ⟨hshared, hasked, hread⟩ := Registry.fields_collide_iff hlist
  obtain ⟨hindexed, hfacet, hsort⟩ := hshared _ hmem _ hmem' (by decide)
  refine ⟨_, hlist, hindexed.2 (htakes _ rfl), hfacet.2 (htakes _ rfl), hsort.2 (htakes _ rfl),
    ?_, ?_⟩
  · intro hlength
    exact (hasked .usual .empty .empty Request.initial rfl).1 hlength _ hmem _ hmem' (htakes _ rfl)
  · intro hnodup
    exact Option.some_ne_none _ ((hread .empty reply).1 hnodup _ hmem _ hmem' (htakes _ rfl))

end HarvestSearch
