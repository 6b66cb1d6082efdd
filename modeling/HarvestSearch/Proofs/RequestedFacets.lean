/-
Whether the facets of a result are the ones that were asked for.

A document asks for counts under the facet fields of the facetable elements
(`QueryBuilder::aggregations`), and a reply is read by walking the same elements again
(`gleaner_search::facets::assemble`). The two walks differ in one place: the variant facet is not
asked for when the request constrains variants, but its buckets are still read when a reply has
some. All other differences are excluded by how facet fields are named:
`Element.facetField_eq_variant_iff` says that no other element is counted under the name of the
variant field.

`Aggregation.mem_keys_ofRequest` says under which names a document asks for counts and
`Facet.field_mem_assemble_iff` which fields a reply makes facets of; `facets_requested_iff` compares
the two for every run of a finder and every reply.
-/
import HarvestSearch.Proofs.FinderRuns
import HarvestSearch.Proofs.IndexFields
import HarvestSearch.Proofs.WrittenDocument
import HarvestSearch.Sample

set_option autoImplicit false

namespace HarvestSearch

/-! ## Facet fields -/

namespace Element

/-- The variant field is counted for the variant element and for no other. -/
theorem facetField_eq_variant_iff (e : Element) :
    e.facetField = Field.variant ↔ e.isVariant = true := by
  unfold facetField keywordField
  by_cases hsystem : e.source = .system
  · simp [fieldWithTail_of_system hsystem, isVariant, hsystem]
  · have hne : e.fieldWithTail Field.keywordTail ≠ Field.variant := by
      intro h
      rw [fieldWithTail_eq] at h
      obtain ⟨-, -, haddress⟩ :=
        (Field.head_append_eq_wellKnown_iff (head_mem_heads hsystem) (by decide)).1 h
      exact absurd haddress (by decide)
    simp [hne, isVariant, hsystem]

end Element

/-- The facetable elements of a registry, in any order. -/
theorem Registry.mem_facetable {registry : Registry} {e : Element} :
    e ∈ registry.facetable ↔ e ∈ registry.elements ∧ e.facetable = true := by
  rw [facetable, StableOrder.mem_orderBy, List.mem_filter]

/-! ## The two walks -/

/-- **What is asked for**: the facet fields of the facetable elements, when aggregations are on, and
not the variant field when variants are constrained. -/
theorem Aggregation.mem_keys_ofRequest {settings : Settings} {registry : Registry} {r : Request}
    {field : String} :
    field ∈ (Aggregation.ofRequest settings registry r).keys ↔
      r.aggregations = true ∧ (∃ e ∈ registry.facetable, e.facetField = field) ∧
        ¬(field = Field.variant ∧ r.constrainsVariants = true) := by
  unfold Aggregation.ofRequest
  by_cases hr : r.aggregations = true
  · rw [if_pos hr, FieldMap.mem_keys_ofList, List.map_map, List.mem_map]
    constructor
    · rintro ⟨e, he, rfl⟩
      obtain ⟨hmem, hkept⟩ := List.mem_filter.1 he
      refine ⟨hr, ⟨e, hmem, rfl⟩, ?_⟩
      rintro ⟨hfield, hc⟩
      rw [(Element.facetField_eq_variant_iff e).1 hfield, hc] at hkept
      exact absurd hkept Bool.false_ne_true
    · rintro ⟨-, ⟨e, hmem, rfl⟩, hkept⟩
      refine ⟨e, List.mem_filter.2 ⟨hmem, ?_⟩, rfl⟩
      rw [Bool.not_eq_true', Bool.eq_false_iff, Ne, Bool.and_eq_true,
        ← Element.facetField_eq_variant_iff]
      exact hkept
  · rw [if_neg hr]
    exact ⟨fun h => absurd h List.not_mem_nil, fun h => absurd h.1 hr⟩

namespace Facet

/-- **What is read**: the facet fields of the facetable elements for which the reply has buckets. -/
theorem field_mem_assemble_iff {reply : Json} {registry : Registry} {services : ServiceDirectory}
    {field : String} :
    (∃ f ∈ assemble reply registry services, f.field = field) ↔
      (∃ e ∈ registry.facetable, e.facetField = field) ∧
        (Reply.buckets? reply field).isSome = true := by
  unfold assemble
  constructor
  · rintro ⟨f, hf, rfl⟩
    obtain ⟨e, he, hread⟩ := List.mem_filterMap.1 hf
    obtain ⟨raw, hraw, hmade⟩ := Option.bind_eq_some_iff.1 hread
    cases hmade
    refine ⟨⟨e, he, rfl⟩, ?_⟩
    rw [hraw]
    rfl
  · rintro ⟨⟨e, he, rfl⟩, hbuckets⟩
    obtain ⟨raw, hraw⟩ := Option.isSome_iff_exists.1 hbuckets
    refine ⟨⟨e.label, e.facetField, raw.filterMap (Bucket.ofReply? services e)⟩, ?_, rfl⟩
    refine List.mem_filterMap.2 ⟨e, he, ?_⟩
    unfold ofReply?
    rw [hraw]
    rfl

end Facet

/-- The facets of a result are read from the reply when the request asks for facets. -/
theorem Decoded.facets_of_ofReply {catalog : Catalog} {r : Request} {reply : Json} {d : Decoded}
    (h : Decoded.ofReply catalog r reply = .ok d) :
    d.facets =
      if r.aggregations then Facet.assemble reply catalog.registry catalog.services else [] := by
  unfold Decoded.ofReply at h
  split at h
  · cases h
  · cases h
    rfl

/-! ## The comparison -/

/-- A facet that is read was asked for, unless it is the variant facet of a request that constrains
variants. -/
theorem Facet.requested_iff {settings : Settings} {catalog : Catalog} {r : Request} {reply : Json}
    (hr : r.aggregations = true) {f : Facet}
    (hf : f ∈ Facet.assemble reply catalog.registry catalog.services) :
    f.field ∈ Document.requestedFields (Document.build settings catalog r).toJson ↔
      ¬(f.field = Field.variant ∧ r.constrainsVariants = true) := by
  have hfield : ∃ e ∈ catalog.registry.facetable, e.facetField = f.field :=
    (Facet.field_mem_assemble_iff.1 ⟨f, hf, rfl⟩).1
  rw [Document.requestedFields_toJson]
  constructor
  · intro h
    exact (Aggregation.mem_keys_ofRequest.1 h).2.2
  · intro h
    exact Aggregation.mem_keys_ofRequest.2 ⟨hr, hfield, h⟩

/-- **Which facets were not asked for.** Take any run of a finder and any list of facets it answers
with. Without aggregations the list is empty. Every facet in it is counted under a name that the
document asks for, or under the variant field; and the list holds only facets that were asked for
unless the request constrains variants, the catalog has a variant facet, and the reply has buckets
for it all the same. -/
theorem facets_requested_iff {service : SearchService} {r : Request} {earlier : List Json}
    {steps : List Finder.Step} {fs : List Facet}
    (hfacets : (Finder.Step.access .facets, Finder.Observation.answered (.ok (.facets fs)))
      ∈ ((Finder.Session.start r earlier).run service steps).events) :
    let document := (Finder.new r).queryDocument service
    let s := (Finder.Session.start r earlier).run service steps
    (r.aggregations = false → fs = []) ∧
    (∀ f ∈ fs, f.field ∈ Document.requestedFields document ∨ f.field = Field.variant) ∧
    ∃ reply, service.transport (earlier.length + s.givenUp) document = .answered reply ∧
      ((∀ f ∈ fs, f.field ∈ Document.requestedFields document) ↔
        ¬(r.aggregations = true ∧ r.constrainsVariants = true ∧
          (∃ e ∈ service.catalog.registry.elements, e.facetable = true ∧ e.isVariant = true) ∧
          (Reply.buckets? reply Field.variant).isSome = true)) := by
  intro document s
  have hread := Finder.Session.answer_of_run hfacets
  obtain ⟨d, hd, hfs⟩ : ∃ d, (Execution.ofDelivery service.catalog r
      (service.transport (earlier.length + s.givenUp) document)).outcome = .ok d ∧
      fs = d.facets := by
    cases ho : (Execution.ofDelivery service.catalog r
        (service.transport (earlier.length + s.givenUp) document)).outcome with
    | error error =>
      rw [ho] at hread
      cases hread
    | ok d =>
      rw [ho] at hread
      cases hread
      exact ⟨d, rfl, rfl⟩
  obtain ⟨reply, hreply, hdecoded⟩ := Execution.answered_of_outcome_ok hd
  have hmade := Decoded.facets_of_ofReply hdecoded
  rw [← hfs] at hmade
  by_cases hr : r.aggregations = true
  · rw [if_pos hr] at hmade
    subst hmade
    refine ⟨fun hoff => absurd (hr.symm.trans hoff) Bool.noConfusion, ?_, reply, hreply, ?_, ?_⟩
    · intro f hf
      by_cases hfield : f.field = Field.variant
      · exact .inr hfield
      · exact .inl ((Facet.requested_iff hr hf).2 fun h => hfield h.1)
    · rintro hall ⟨-, hc, ⟨e, he, hfacetable, hvariant⟩, hbuckets⟩
      have hlisted : ∃ e ∈ service.catalog.registry.facetable, e.facetField = Field.variant :=
        ⟨e, Registry.mem_facetable.2 ⟨he, hfacetable⟩,
          (Element.facetField_eq_variant_iff e).2 hvariant⟩
      obtain ⟨f, hf, hfield⟩ := Facet.field_mem_assemble_iff.2 ⟨hlisted, hbuckets⟩
      exact (Facet.requested_iff hr hf).1 (hall f hf) ⟨hfield, hc⟩
    · intro hno f hf
      refine (Facet.requested_iff hr hf).2 ?_
      rintro ⟨hfield, hc⟩
      obtain ⟨⟨e, he, heq⟩, hbuckets⟩ := Facet.field_mem_assemble_iff.1 ⟨f, hf, hfield⟩
      obtain ⟨hmem, hfacetable⟩ := Registry.mem_facetable.1 he
      exact hno ⟨hr, hc, ⟨e, hmem, hfacetable, (Element.facetField_eq_variant_iff e).1 heq⟩,
        hbuckets⟩
  · rw [if_neg hr] at hmade
    subst hmade
    refine ⟨fun _ => rfl, fun f hf => absurd hf List.not_mem_nil, reply, hreply, ?_⟩
    exact ⟨fun _ h => hr h.1, fun _ f hf => absurd hf List.not_mem_nil⟩

/-- A request that keeps items only, on a catalog with a variant facet: the document asks for no
count of variants, and an engine that counts them all the same has its count shown as a facet. -/
theorem variant_facet_not_requested :
    let counted : Json := .object [("buckets", .array [
      .object [("key", .string "item"), ("doc_count", .int 1)]])]
    let reply : Json := .object [("aggregations", .object [(Field.variant, counted)])]
    let service : SearchService := ⟨.usual, Sample.catalog, fun _ _ => .answered reply⟩
    let r := Request.initial.apply (.includeVariants ["item"])
    let s := (Finder.Session.start r []).run service [.access .facets]
    ∃ fs, (Finder.Step.access .facets, Finder.Observation.answered (.ok (.facets fs))) ∈ s.events ∧
      ¬∀ f ∈ fs, f.field ∈ Document.requestedFields ((Finder.new r).queryDocument service) := by
  intro counted reply service r s
  have hfacets : (Finder.Step.access .facets, Finder.Observation.answered (.ok (.facets
      (Facet.assemble reply Sample.catalog.registry Sample.catalog.services)))) ∈ s.events :=
    List.mem_singleton_self _
  refine ⟨_, hfacets, fun hall => ?_⟩
  obtain ⟨-, -, other, hother, hiff⟩ := facets_requested_iff hfacets
  cases hother
  exact hiff.1 hall ⟨rfl, rfl, ⟨_, List.mem_cons_of_mem _ List.mem_cons_self, rfl, rfl⟩, rfl⟩

end HarvestSearch
