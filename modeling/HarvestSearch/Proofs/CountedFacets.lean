/-
One facet for every count that was asked for.

A document asks for counts in a map, which has no order of its own, and a reply is read by walking
the registry again (`QueryBuilder::aggregations` and `gleaner_search::facets::assemble`). Nothing is
lost between the two if the facetable elements have distinct fields and the reply counts what was
asked for. An element that is not asked for is then not counted either, so the elements with buckets
are the elements asked for (`Reply.Counts.filter_facetable`), and they come in the order of the
registry as `Registry.Before` says it: by weight, and by place in the registry where the weights
agree.

`Finder.one_facet_per_aggregation` says it for every run of a finder, together with what the document
asks for.
-/
import HarvestSearch.Proofs.AnswersByState
import HarvestSearch.Proofs.FieldCollisions

set_option autoImplicit false

namespace HarvestSearch

/-! ## What is asked for and what is counted -/

/-- The members of the aggregations of a document or of a reply. -/
def Json.aggregations (json : Json) : List (String × Json) :=
  ((json.get? "aggregations").bind Json.asObject?).getD []

/-- The reply counts what the document asks for: it has aggregations under the same names, and each
of them lists buckets. -/
structure Reply.Counts (document reply : Json) : Prop where
  names : ∀ key, key ∈ reply.aggregations.map (·.1) ↔ key ∈ Document.requestedFields document
  buckets : ∀ counted ∈ reply.aggregations, ∃ list, counted.2.get? "buckets" = some (.array list)

namespace Document

theorem aggregations_toJson (d : Document) :
    d.toJson.aggregations = d.aggregations.entries.map fun (key, a) => (key, a.toJson) := by
  unfold Json.aggregations
  rw [get?_aggregations]
  by_cases hempty : d.aggregations.isEmpty = true
  · rw [if_pos hempty, List.isEmpty_iff.1 hempty]
    rfl
  · rw [if_neg hempty]
    rfl

theorem get?_aggregations_eq_none_iff (d : Document) :
    d.toJson.get? "aggregations" = none ↔ d.aggregations.entries = [] := by
  rw [get?_aggregations, ← List.isEmpty_iff]
  by_cases hempty : d.aggregations.isEmpty = true
  · rw [if_pos hempty]
    exact ⟨fun _ => hempty, fun _ => rfl⟩
  · rw [if_neg hempty]
    exact ⟨fun h => absurd h (Option.some_ne_none _), fun h => absurd h hempty⟩

end Document

namespace Aggregation

variable {settings : Settings} {registry : Registry} {r : Request}

theorem field_ofElement (settings : Settings) (r : Request) (e : Element) :
    (ofElement settings r e).field = e.facetField := by
  unfold ofElement
  cases e.facetOrder with
  | alphanumeric => rfl
  | byCount => rfl

/-- The field that is counted stands in the terms of a written aggregation. -/
theorem get?_terms_field (a : Aggregation) :
    (a.toJson.get? "terms").bind (Json.get? "field") = some (.string a.field) := by
  unfold toJson
  rw [Json.get?_ofMembers_singleton, Option.bind_some]
  refine Json.get?_ofMembers_cons _ fun e he => ?_
  rcases List.mem_cons.1 he with rfl | he
  · exact show "size" ≠ "field" by decide
  · rw [List.mem_singleton.1 he]
    exact show "order" ≠ "field" by decide

/-- The elements asked for are the facetable ones, without the variants of a request that constrains
them. -/
theorem mem_requestedElements {e : Element} :
    e ∈ requestedElements registry r ↔ e ∈ registry.elements ∧ e.facetable = true ∧
      ¬(e.isVariant = true ∧ r.constrainsVariants = true) := by
  unfold requestedElements
  rw [List.mem_filter, Registry.mem_facetable, and_assoc, Bool.not_eq_true', Bool.eq_false_iff, Ne,
    Bool.and_eq_true]

theorem nodup_map_facetField (r : Request)
    (hdistinct : (registry.facetable.map Element.facetField).Nodup) :
    ((requestedElements registry r).map Element.facetField).Nodup :=
  hdistinct.sublist (List.filter_sublist.map _)

/-- No two elements asked for replace each other in the map, if their fields are distinct. -/
theorem mem_entries_ofRequest (hr : r.aggregations = true)
    (hdistinct : (registry.facetable.map Element.facetField).Nodup) {entry : String × Aggregation} :
    entry ∈ (ofRequest settings registry r).entries ↔
      ∃ e ∈ requestedElements registry r, (e.facetField, ofElement settings r e) = entry := by
  have hnames : (((requestedElements registry r).map
      fun e => (e.facetField, ofElement settings r e)).map (·.1)).Nodup := by
    rw [List.map_map]
    exact nodup_map_facetField r hdistinct
  rw [ofRequest, if_pos hr, FieldMap.mem_entries_ofList hnames, List.mem_map]

/-- The map has the fields of the elements asked for, also if some of these agree. -/
theorem mem_keys_iff_mem_map_facetField (hr : r.aggregations = true) {field : String} :
    field ∈ (ofRequest settings registry r).keys ↔
      field ∈ (requestedElements registry r).map Element.facetField := by
  rw [ofRequest, if_pos hr, FieldMap.mem_keys_ofList, List.map_map]
  rfl

theorem entries_ofRequest_eq_nil_iff (hr : r.aggregations = true) :
    (ofRequest settings registry r).entries = [] ↔ requestedElements registry r = [] := by
  have hkeys : (ofRequest settings registry r).keys = [] ↔
      (requestedElements registry r).map Element.facetField = [] := by
    rw [List.eq_nil_iff_forall_not_mem, List.eq_nil_iff_forall_not_mem]
    exact forall_congr' fun field => not_congr (mem_keys_iff_mem_map_facetField hr)
  rw [← List.map_eq_nil_iff (f := Element.facetField), ← hkeys]
  exact List.map_eq_nil_iff.symm

end Aggregation

/-- A document asks for every element by its facet field, and for nothing else. -/
theorem Document.mem_aggregations_iff {settings : Settings} {catalog : Catalog} {r : Request}
    (hr : r.aggregations = true)
    (hdistinct : (catalog.registry.facetable.map Element.facetField).Nodup) {key : String}
    {counted : Json} :
    (key, counted) ∈ (Document.build settings catalog r).toJson.aggregations ↔
      ∃ e ∈ Aggregation.requestedElements catalog.registry r, e.facetField = key ∧
        (Aggregation.ofElement settings r e).toJson = counted := by
  rw [aggregations_toJson, List.mem_map]
  constructor
  · rintro ⟨entry, hentry, heq⟩
    obtain ⟨e, he, rfl⟩ := (Aggregation.mem_entries_ofRequest hr hdistinct).1 hentry
    exact ⟨e, he, congrArg Prod.fst heq, congrArg Prod.snd heq⟩
  · rintro ⟨e, he, rfl, rfl⟩
    exact ⟨_, (Aggregation.mem_entries_ofRequest hr hdistinct).2 ⟨e, he, rfl⟩, rfl⟩

namespace Reply

theorem buckets?_eq (reply : Json) (field : String) :
    buckets? reply field = (FieldMap.lookupEntries field reply.aggregations).bind fun counted =>
      (counted.get? "buckets").bind Json.asArray? := by
  unfold buckets? Json.aggregations
  cases reply.get? "aggregations" with
  | none => rfl
  | some aggregations =>
    cases aggregations with
    | object members => rfl
    | _ => rfl

namespace Counts

variable {document reply : Json}

/-- A reply that counts what was asked for has buckets for these fields and no others. -/
theorem isSome_buckets?_iff (h : Counts document reply) {field : String} :
    (buckets? reply field).isSome = true ↔ field ∈ Document.requestedFields document := by
  rw [buckets?_eq, ← h.names]
  cases hfound : FieldMap.lookupEntries field reply.aggregations with
  | none =>
    refine ⟨fun hsome => absurd hsome Bool.false_ne_true, fun hmem => ?_⟩
    obtain ⟨counted, hcounted, rfl⟩ := List.mem_map.1 hmem
    exact absurd rfl (FieldMap.lookupEntries_eq_none_iff.1 hfound counted hcounted)
  | some counted =>
    have hmem : (field, counted) ∈ reply.aggregations := FieldMap.mem_of_lookupEntries hfound
    obtain ⟨list, hlist⟩ := h.buckets _ hmem
    rw [Option.bind_some, hlist]
    exact ⟨fun _ => List.mem_map_of_mem hmem, fun _ => rfl⟩

/-- **The elements counted are the elements asked for.** -/
theorem filter_facetable {settings : Settings} {catalog : Catalog} {r : Request}
    (h : Counts (Document.build settings catalog r).toJson reply) (hr : r.aggregations = true) :
    (catalog.registry.facetable.filter fun e => (buckets? reply e.facetField).isSome)
      = Aggregation.requestedElements catalog.registry r := by
  refine List.filter_congr fun e he => ?_
  rw [Bool.eq_iff_iff, h.isSome_buckets?_iff, Document.requestedFields_toJson, Document.build,
    Aggregation.mem_keys_ofRequest, Bool.not_eq_true', Bool.eq_false_iff, Ne, Bool.and_eq_true,
    Element.facetField_eq_variant_iff]
  exact ⟨fun hasked => hasked.2.2, fun hkept => ⟨hr, ⟨e, he, rfl⟩, hkept⟩⟩

end Counts

end Reply

/-! ## The order -/

namespace Registry

/-- The order of the facets: lighter elements first, and elements of one weight by their places in
the registry. -/
def Before (registry : Registry) (e e' : Element) : Prop :=
  e.weight < e'.weight ∨
    e.weight = e'.weight ∧ registry.elements.idxOf e < registry.elements.idxOf e'

theorem pairwise_idxOf_lt (registry : Registry) :
    registry.elements.Pairwise fun e e' =>
      registry.elements.idxOf e < registry.elements.idxOf e' := by
  have hnodup : registry.elements.Nodup := List.Nodup.of_map _ registry.distinct
  refine List.pairwise_iff_getElem.2 fun i j hi hj hlt => ?_
  rw [hnodup.idxOf_getElem i hi, hnodup.idxOf_getElem j hj]
  exact hlt

theorem pairwise_facetable (registry : Registry) : registry.facetable.Pairwise registry.Before :=
  StableOrder.pairwise_orderBy_of_pairwise _ (registry.pairwise_idxOf_lt.filter _)

end Registry

/-! ## The main statement -/

namespace Finder

/-- **One facet for every count.** Take any service whose facetable elements have distinct facet
fields, and any request with aggregations. The elements asked for are the facetable ones, without the
variants if the request constrains these, by weight and by place in the registry. The document asks
for each of them under its facet field and counts that field, it has no aggregations if there is
nothing to ask for, and it never asks for the variant field of a request that constrains variants.
If the engine answers with a result that counts what was asked for, then, whatever was done with the
finder before, the facets are those of the elements asked for, in their order, with the label and the
facet field of each; so every field that was asked for is the field of one facet, and no other is. -/
theorem one_facet_per_aggregation {service : SearchService} {r : Request}
    (hdistinct : (service.catalog.registry.facetable.map Element.facetField).Nodup)
    (hr : r.aggregations = true) :
    let registry := service.catalog.registry
    let document := (Finder.new r).queryDocument service
    let asked := Aggregation.requestedElements registry r
    (∀ e, e ∈ asked ↔ e ∈ registry.elements ∧ e.facetable = true ∧
      ¬(e.isVariant = true ∧ r.constrainsVariants = true)) ∧
    asked.Pairwise registry.Before ∧
    (∀ key counted, (key, counted) ∈ document.aggregations ↔ ∃ e ∈ asked, e.facetField = key ∧
      (Aggregation.ofElement service.settings r e).toJson = counted) ∧
    (∀ key counted, (key, counted) ∈ document.aggregations →
      (counted.get? "terms").bind (Json.get? "field") = some (.string key)) ∧
    (document.get? "aggregations" = none ↔ asked = []) ∧
    (r.constrainsVariants = true → Field.variant ∉ Document.requestedFields document) ∧
    ∀ (earlier : List Json) (steps : List Step) (reply : Json),
      let s := (Session.start r earlier).run service steps
      service.transport (earlier.length + s.givenUp) document = .answered reply →
      Reply.engineError? reply = none → Reply.Counts document reply →
      ∃ facets, (s.finder.call service s.sent .facets).answer = some (.ok (.facets facets)) ∧
        (facets = asked.map fun e => ⟨e.label, e.facetField,
          ((Reply.buckets? reply e.facetField).getD []).filterMap
            (Bucket.ofReply? service.catalog.services e)⟩) ∧
        ∀ key, (facets.map (·.field)).count key
          = if key ∈ Document.requestedFields document then 1 else 0 := by
  intro registry document asked
  have hkeys : Document.requestedFields document
      = (Aggregation.ofRequest service.settings registry r).keys :=
    Document.requestedFields_toJson _
  have hentries : ∀ key counted, (key, counted) ∈ document.aggregations ↔
      ∃ e ∈ asked, e.facetField = key ∧
        (Aggregation.ofElement service.settings r e).toJson = counted :=
    fun key counted => Document.mem_aggregations_iff hr hdistinct
  refine ⟨fun e => Aggregation.mem_requestedElements,
    registry.pairwise_facetable.filter _, hentries, ?_, ?_, ?_, ?_⟩
  · intro key counted hmem
    obtain ⟨e, -, rfl, rfl⟩ := (hentries key counted).1 hmem
    rw [Aggregation.get?_terms_field, Aggregation.field_ofElement]
  · exact (Document.get?_aggregations_eq_none_iff _).trans
      (Aggregation.entries_ofRequest_eq_nil_iff hr)
  · intro hconstrains hmem
    obtain ⟨-, -, hkept⟩ := Aggregation.mem_keys_ofRequest.1 (hkeys ▸ hmem)
    exact hkept ⟨rfl, hconstrains⟩
  · -- the walk over the registry finds buckets for the elements asked for and for no other
    intro earlier steps reply s hdelivered hreport hcounts
    obtain ⟨d, hreply, hanswer⟩ := Session.call_of_answered hdelivered hreport
    have hfacets := Decoded.facets_of_ofReply hreply
    rw [if_pos hr, Facet.assemble_eq_map, hcounts.filter_facetable hr] at hfacets
    refine ⟨d.facets, (hanswer .facets).2, hfacets, fun key => ?_⟩
    have hfields : d.facets.map (·.field) = asked.map Element.facetField := by
      rw [hfacets, List.map_map]
      rfl
    have hnodup : (asked.map Element.facetField).Nodup :=
      Aggregation.nodup_map_facetField r hdistinct
    rw [hfields, hkeys, hnodup.count]
    exact if_congr (Aggregation.mem_keys_iff_mem_map_facetField hr).symm rfl rfl

/-- Two elements of one weight stand before a heavier one that the registry lists first, and the
variants, which the request constrains, have no facet. -/
theorem facets_of_tied_weights :
    let creator := (((Element.plain "creator" .localVocabulary).withLabel "Creator").asFacetable
      .byCount).withWeight 2
    let provider := (((Element.plain Field.serviceKey .system).withLabel "Service").asFacetable
      .byCount).withWeight 1
    let kind := ((Element.plain Field.variant .system).withLabel "Type").asFacetable .alphanumeric
    let date := ((((Element.plain "issued" .localVocabulary).withLabel "Date").withDataType
      .date).asFacetable .alphanumeric).withWeight 1
    let catalog : Catalog := ⟨⟨[creator, provider, kind, date], by decide⟩, .empty, .empty⟩
    let reply : Json := .object [("aggregations", .object [
      ("date_issued", .object [("buckets", .array [])]),
      ("local_creator.keyword", .object [("buckets", .array [
        .object [("key", .string "Smith"), ("doc_count", .int 7)]])]),
      ("service_key", .object [("buckets", .array [])])])]
    let service : SearchService := ⟨.usual, catalog, fun _ _ => .answered reply⟩
    let r := Request.initial.apply (.includeVariants ["item"])
    (catalog.registry.facetable.map Element.facetField).Nodup ∧ r.aggregations = true ∧
      Reply.Counts ((Finder.new r).queryDocument service) reply ∧
      ((Finder.new r).call service [] .facets).answer = some (.ok (.facets [
        ⟨"Service", "service_key", []⟩,
        ⟨"Date", "date_issued", []⟩,
        ⟨"Creator", "local_creator.keyword", [⟨"Smith", "Smith", 7⟩]⟩])) := by
  intro creator provider kind date catalog reply service r
  have hdistinct : (service.catalog.registry.facetable.map Element.facetField).Nodup := by decide
  have hr : r.aggregations = true := rfl
  have hrequested : Document.requestedFields ((Finder.new r).queryDocument service)
      = reply.aggregations.map (·.1) :=
    (Document.requestedFields_toJson _).trans (by decide)
  have hcounts : Reply.Counts ((Finder.new r).queryDocument service) reply := by
    refine ⟨fun key => by rw [hrequested], fun counted hcounted => ?_⟩
    rcases List.mem_cons.1 hcounted with rfl | hcounted
    · exact ⟨_, rfl⟩
    rcases List.mem_cons.1 hcounted with rfl | hcounted
    · exact ⟨_, rfl⟩
    rw [List.mem_singleton.1 hcounted]
    exact ⟨_, rfl⟩
  obtain ⟨-, -, -, -, -, -, hread⟩ := one_facet_per_aggregation hdistinct hr
  obtain ⟨facets, hanswer, hfacets, -⟩ := hread [] [] reply rfl rfl hcounts
  refine ⟨hdistinct, hr, hcounts, ?_⟩
  rw [hfacets] at hanswer
  exact hanswer

end Finder

end HarvestSearch
