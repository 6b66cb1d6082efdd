/-
What the facets of a reply are.

A reply is any JSON value, and `gleaner_search::facets::assemble` reads facets from it on four
levels: the aggregations, the field of an element, its buckets, and the key and count of a bucket.
What is missing or of another kind on one of the first three levels costs the element its facet, a
bucket without a usable key is passed over, and a count that is no word is read as zero. None of it
disturbs what stands beside it.

`Facet.Shows` and `Bucket.Shows` say what a facet and a bucket have to be in terms of the reply
alone, without the readers, and `Reply.ShowsFacets` does so for the whole list. Reading is the same
on both levels: of a list some members are kept, and each of them becomes one item, in order
(`forall₂_filter_filterMap`). The elements come in the order of `Registry.Before`, which depends on
places in the registry only between elements of one weight, so a registry that is reordered with
care has the same facets (`Registry.facetable_of_reorders`).
-/
import HarvestSearch.Proofs.CountedFacets
import HarvestSearch.Proofs.WrittenRecords
import Mathlib.Data.List.Forall2

set_option autoImplicit false

namespace HarvestSearch

/-- If a function makes something of the members that are kept, and of no others, then what it makes
of a list stands against the members that are kept. -/
theorem forall₂_filter_filterMap {α β : Type} {kept : α → Bool} {f : α → Option β}
    {R : α → β → Prop} (hdropped : ∀ a, kept a = false → f a = none)
    (hmade : ∀ a, kept a = true → ∃ b, f a = some b ∧ R a b) (xs : List α) :
    List.Forall₂ R (xs.filter kept) (xs.filterMap f) := by
  induction xs with
  | nil => exact .nil
  | cons a rest ih =>
    cases hkept : kept a with
    | false =>
      rw [List.filter_cons_of_neg (Bool.eq_false_iff.1 hkept),
        List.filterMap_cons_none (hdropped a hkept)]
      exact ih
    | true =>
      obtain ⟨b, hb, hR⟩ := hmade a hkept
      rw [List.filter_cons_of_pos hkept, List.filterMap_cons_some hb]
      exact .cons hR ih

/-! ## Words and scalars -/

namespace Json

theorem asIntIn?_eq_some_iff {j : Json} {low high n : Int} :
    j.asIntIn? low high = some n ↔ j = .int n ∧ low ≤ n ∧ n ≤ high := by
  cases j with
  | int m =>
    have hread : asIntIn? low high (.int m) = if low ≤ m ∧ m ≤ high then some m else none := rfl
    rw [hread, Option.ite_none_right_eq_some, Option.some_inj, Json.int.injEq, and_comm]
    refine and_congr_right fun hm => ?_
    rw [hm]
  | _ => exact ⟨nofun, nofun⟩

/-- A value is read as a word exactly if it is the whole number of that word. -/
theorem asUInt64?_eq_some_iff {j : Json} {n : UInt64} :
    j.asUInt64? = some n ↔ j = .int n.toNat := by
  constructor
  · intro h
    obtain ⟨m, hm, rfl⟩ := Option.map_eq_some_iff.1 h
    obtain ⟨rfl, hlow, hhigh⟩ := asIntIn?_eq_some_iff.1 hm
    have hword : m.toNat < UInt64.size := by
      have hsize : UInt64.size = maxWord + 1 := rfl
      omega
    rw [UInt64.toNat_ofNat_of_lt' hword, Int.toNat_of_nonneg hlow]
  · rintro rfl
    exact readsBack_uint64 n

/-- Strings, numbers and truth values. -/
def isScalar : Json → Bool
  | .string _ | .int _ | .float _ | .bool _ => true
  | .null | .array _ | .object _ => false

/-- The text of a string, of a number or of a truth value. -/
inductive ScalarText : Json → String → Prop
  | string (s : String) : ScalarText (.string s) s
  | int (n : Int) : ScalarText (.int n) (intText n)
  | float (x : Binary64) : ScalarText (.float x) (floatText x)
  | bool (b : Bool) : ScalarText (.bool b) (boolText b)

theorem scalarText?_eq_none {j : Json} (h : j.isScalar = false) : j.scalarText? = none := by
  cases j with
  | null | array _ | object _ => rfl
  | string _ | int _ | float _ | bool _ => exact absurd h.symm Bool.false_ne_true

theorem exists_scalarText {j : Json} (h : j.isScalar = true) :
    ∃ text, j.scalarText? = some text ∧ j.ScalarText text := by
  cases j with
  | string s => exact ⟨s, rfl, .string s⟩
  | int n => exact ⟨intText n, rfl, .int n⟩
  | float x => exact ⟨floatText x, rfl, .float x⟩
  | bool b => exact ⟨boolText b, rfl, .bool b⟩
  | null | array _ | object _ => exact absurd h Bool.false_ne_true

end Json

theorem Reply.buckets?_eq_some_iff {reply : Json} {field : String} {raws : List Json} :
    buckets? reply field = some raws ↔
      reply.atPath? ["aggregations", field, "buckets"] = some (.array raws) := by
  have hpath : buckets? reply field
      = (reply.atPath? ["aggregations", field, "buckets"]).bind Json.asArray? := by
    simp only [buckets?, Json.atPath?, Option.bind_eq_bind, Option.bind_assoc, Option.bind_some]
  rw [hpath, Option.bind_eq_some_iff]
  constructor
  · rintro ⟨list, hlist, harray⟩
    rw [hlist, Json.asArray?_eq_some_iff.1 harray]
  · intro h
    exact ⟨_, h, rfl⟩

theorem Element.isServiceKey_iff {e : Element} :
    e.isServiceKey = true ↔ e.source = .system ∧ e.name = Field.serviceKey := by
  simp [isServiceKey]

/-! ## Buckets -/

namespace Bucket

/-- Whether a bucket of a reply has a key that can be shown. -/
def isKeyed (raw : Json) : Bool := (raw.get? "key").any Json.isScalar

/-- What the bucket of an element has to be for a bucket of a reply. -/
structure Shows (services : ServiceDirectory) (e : Element) (raw : Json) (b : Bucket) : Prop where
  -- the key as text
  name : ∃ key, raw.get? "key" = some key ∧ key.ScalarText b.name
  -- the count if it is a word, and zero otherwise
  count : ∀ n : UInt64, raw.get? "doc_count" = some (.int n.toNat) → b.count = n
  uncounted : (∀ n : UInt64, raw.get? "doc_count" ≠ some (.int n.toNat)) → b.count = 0
  -- the keys of content services, and no others, are shown under the name of the service
  label : ¬(e.source = .system ∧ e.name = Field.serviceKey) → b.label = b.name
  serviceLabel : e.source = .system → e.name = Field.serviceKey →
    ∀ service, services.get? b.name = some service → b.label = service.name
  unknownLabel : e.source = .system → e.name = Field.serviceKey →
    services.get? b.name = none → b.label = "Unknown Service"

variable {services : ServiceDirectory} {e : Element} {raw : Json}

/-- A bucket without a key that can be shown is dropped. -/
theorem ofReply?_eq_none (h : isKeyed raw = false) : ofReply? services e raw = none := by
  unfold ofReply?
  cases hkey : raw.get? "key" with
  | none => rfl
  | some key =>
    rw [isKeyed, hkey, Option.any_some] at h
    rw [Option.bind_eq_bind, Option.bind_some, Json.scalarText?_eq_none h]
    rfl

/-- A bucket with such a key is shown. -/
theorem exists_shows (h : isKeyed raw = true) :
    ∃ b, ofReply? services e raw = some b ∧ Shows services e raw b := by
  obtain ⟨key, hkey, hscalar⟩ : ∃ key, raw.get? "key" = some key ∧ key.isScalar = true := by
    rw [isKeyed, Option.any_eq_true] at h
    exact h
  obtain ⟨text, htext, hshown⟩ := Json.exists_scalarText hscalar
  refine ⟨⟨text, labelOf services e text, ((raw.get? "doc_count").bind Json.asUInt64?).getD 0⟩,
    ?_, ⟨key, hkey, hshown⟩, ?_, ?_, ?_, ?_, ?_⟩
  · rw [ofReply?, hkey, Option.bind_eq_bind, Option.bind_some, htext]
    rfl
  · intro n hn
    have hword : (Json.int n.toNat).asUInt64? = some n := Json.asUInt64?_eq_some_iff.2 rfl
    rw [hn, Option.bind_some, hword, Option.getD_some]
  · intro hno
    have hnone : (raw.get? "doc_count").bind Json.asUInt64? = none := by
      refine Option.eq_none_iff_forall_ne_some.2 fun n hn => ?_
      obtain ⟨j, hj, hword⟩ := Option.bind_eq_some_iff.1 hn
      exact hno n (Json.asUInt64?_eq_some_iff.1 hword ▸ hj)
    rw [hnone, Option.getD_none]
  · intro hother
    exact if_neg (mt Element.isServiceKey_iff.1 hother)
  · intro hsource hname service hservice
    refine (if_pos (Element.isServiceKey_iff.2 ⟨hsource, hname⟩)).trans ?_
    rw [ServiceDirectory.displayName, hservice]
  · intro hsource hname hnone
    refine (if_pos (Element.isServiceKey_iff.2 ⟨hsource, hname⟩)).trans ?_
    rw [ServiceDirectory.displayName, hnone]
    rfl

end Bucket

/-! ## Facets -/

namespace Facet

/-- What the facet of an element has to be for a reply. -/
structure Shows (services : ServiceDirectory) (reply : Json) (e : Element) (f : Facet) : Prop where
  name : f.name = e.label
  field : f.field = e.facetField
  -- one bucket for every bucket of the reply that has a key
  buckets : ∃ raws, reply.atPath? ["aggregations", e.facetField, "buckets"] = some (.array raws) ∧
    List.Forall₂ (Bucket.Shows services e) (raws.filter Bucket.isKeyed) f.buckets

variable {services : ServiceDirectory} {reply : Json} {e : Element}

theorem ofReply?_of_buckets {raws : List Json}
    (h : reply.atPath? ["aggregations", e.facetField, "buckets"] = some (.array raws)) :
    ofReply? services reply e
      = some ⟨e.label, e.facetField, raws.filterMap (Bucket.ofReply? services e)⟩ := by
  rw [ofReply?, Reply.buckets?_eq_some_iff.2 h]
  rfl

theorem exists_shows (h : (Reply.buckets? reply e.facetField).isSome = true) :
    ∃ f, ofReply? services reply e = some f ∧ Shows services reply e f := by
  obtain ⟨raws, hraws⟩ := Option.isSome_iff_exists.1 h
  have hpath := Reply.buckets?_eq_some_iff.1 hraws
  refine ⟨_, ofReply?_of_buckets hpath, rfl, rfl, raws, hpath, ?_⟩
  exact forall₂_filter_filterMap (fun _ => Bucket.ofReply?_eq_none)
    (fun _ => Bucket.exists_shows) raws

theorem ofReply?_eq_none (h : (Reply.buckets? reply e.facetField).isSome = false) :
    ofReply? services reply e = none := by
  rw [ofReply?, Option.isNone_iff_eq_none.1 (Option.isSome_eq_false_iff.1 h)]
  rfl

end Facet

/-! ## The order -/

namespace Registry

/-- The same elements in another order, with those of one weight in the order they had. -/
structure Reorders (other registry : Registry) : Prop where
  perm : other.elements.Perm registry.elements
  ties : ∀ e ∈ registry.elements, ∀ e' ∈ registry.elements, e.weight = e'.weight →
    (other.elements.idxOf e < other.elements.idxOf e' ↔
      registry.elements.idxOf e < registry.elements.idxOf e')

variable {registry other : Registry}

/-- No two elements are each before the other. -/
theorem not_before_of_before {e e' : Element} (h : registry.Before e e') :
    ¬registry.Before e' e := by
  unfold Before at *
  omega

theorem Reorders.before (h : other.Reorders registry) {e e' : Element} (he : e ∈ registry.elements)
    (he' : e' ∈ registry.elements) : other.Before e e' ↔ registry.Before e e' :=
  or_congr_right (and_congr_right (h.ties e he e' he'))

/-- The order of the facets depends on the weights, and on nothing but the order of elements of one
weight. -/
theorem facetable_of_reorders (h : other.Reorders registry) :
    other.facetable = registry.facetable := by
  have hmem : ∀ e ∈ other.facetable, e ∈ registry.elements := fun e he =>
    h.perm.mem_iff.1 (mem_facetable.1 he).1
  have hother : other.facetable.Pairwise registry.Before :=
    other.pairwise_facetable.imp_of_mem fun he he' => (h.before (hmem _ he) (hmem _ he')).1
  have hperm : other.facetable.Perm registry.facetable :=
    ((StableOrder.perm_orderBy _ _).trans (h.perm.filter _)).trans
      (StableOrder.perm_orderBy _ _).symm
  exact hperm.eq_of_pairwise
    (fun e e' _ _ hbefore hafter => absurd hafter (not_before_of_before hbefore))
    hother registry.pairwise_facetable

end Registry

/-! ## All facets -/

/-- **The facets that a reply shows**: one for every facetable element whose buckets it lists, in
the order of the elements. -/
inductive Reply.ShowsFacets (registry : Registry) (services : ServiceDirectory) (reply : Json) :
    List Facet → Prop where
  | intro {counted : List Element} {facets : List Facet}
    (ordered : counted.Pairwise registry.Before)
    (mem_iff : ∀ e, e ∈ counted ↔ e ∈ registry.elements ∧ e.facetable = true ∧ ∃ raws,
      reply.atPath? ["aggregations", e.facetField, "buckets"] = some (.array raws))
    (shows_each : List.Forall₂ (Facet.Shows services reply) counted facets) :
    ShowsFacets registry services reply facets

namespace Facet

theorem showsFacets_assemble (reply : Json) (registry : Registry) (services : ServiceDirectory) :
    Reply.ShowsFacets registry services reply (assemble reply registry services) := by
  have hcounted : ∀ e : Element, (Reply.buckets? reply e.facetField).isSome = true ↔ ∃ raws,
      reply.atPath? ["aggregations", e.facetField, "buckets"] = some (.array raws) := by
    intro e
    rw [Option.isSome_iff_exists]
    exact exists_congr fun raws => Reply.buckets?_eq_some_iff
  refine .intro (registry.pairwise_facetable.filter fun e =>
    (Reply.buckets? reply e.facetField).isSome) ?_ ?_
  · intro e
    rw [List.mem_filter, Registry.mem_facetable, and_assoc, hcounted]
  · exact forall₂_filter_filterMap (fun _ => ofReply?_eq_none) (fun _ => exists_shows) _

/-! ## The main statement -/

/-- **The facets of a reply.** Take any JSON value as the reply of the engine, any registry and any
services. There is one facet for every facetable element whose buckets the reply lists, by weight and
by place in the registry where the weights agree. Each has one bucket for every bucket of the reply
whose key is a string, a number or a truth value, in the engine's order. The bucket has the key as
its name, the count if that is a word and zero otherwise, and the name for a label, except for the
keys of content services, which are labelled with the name of the service, or as unknown. If no
bucket has such a key, the element still has a facet. A registry with the same elements, and those of
one weight in the same order, has the same facets. -/
theorem assemble_faithful (reply : Json) (registry : Registry) (services : ServiceDirectory) :
    let facets := assemble reply registry services
    ∃ counted : List Element,
      counted.Pairwise registry.Before ∧
      (∀ e, e ∈ counted ↔ e ∈ registry.elements ∧ e.facetable = true ∧ ∃ raws,
        reply.atPath? ["aggregations", e.facetField, "buckets"] = some (.array raws)) ∧
      List.Forall₂ (Shows services reply) counted facets ∧
      (∀ e ∈ counted, ∀ raws,
        reply.atPath? ["aggregations", e.facetField, "buckets"] = some (.array raws) →
        (∀ raw ∈ raws, Bucket.isKeyed raw = false) → ⟨e.label, e.facetField, []⟩ ∈ facets) ∧
      ∀ other : Registry, other.Reorders registry → assemble reply other services = facets := by
  intro facets
  obtain ⟨ordered, mem_iff, shows_each⟩ := showsFacets_assemble reply registry services
  refine ⟨_, ordered, mem_iff, shows_each, ?_, ?_⟩
  · intro e he raws hraws hno
    have hread : ofReply? services reply e = some ⟨e.label, e.facetField, []⟩ := by
      have hnone : raws.filterMap (Bucket.ofReply? services e) = [] :=
        List.filterMap_eq_nil_iff.2 fun raw hraw => Bucket.ofReply?_eq_none (hno raw hraw)
      rw [ofReply?_of_buckets hraws, hnone]
    obtain ⟨hmem, hfacetable, -⟩ := (mem_iff e).1 he
    exact List.mem_filterMap.2 ⟨e, Registry.mem_facetable.2 ⟨hmem, hfacetable⟩, hread⟩
  · intro other hreorders
    show other.facetable.filterMap _ = registry.facetable.filterMap _
    rw [Registry.facetable_of_reorders hreorders]

/-- Only the two elements of one weight keep their order, and the facets are the same. A bucket
without a key is dropped between two others, a count that is no word is zero, a facet is left without
buckets, and an element has no facet because its buckets are no list. -/
theorem assemble_of_reordered_registry :
    let creator := ((Element.plain "creator" .localVocabulary).asFacetable .byCount).withWeight 2
    let provider := (((Element.plain Field.serviceKey .system).withLabel "Service").asFacetable
      .byCount).withWeight (-1)
    let kind := (Element.plain Field.variant .system).asFacetable .alphanumeric
    let date := (((Element.plain "issued" .localVocabulary).withDataType .date).asFacetable
      .alphanumeric).withWeight 2
    let registry : Registry := ⟨[creator, provider, kind, date], by decide⟩
    let other : Registry := ⟨[kind, creator, date, provider], by decide⟩
    let services := ServiceDirectory.ofList [⟨"abc", "Digital Collections", none⟩]
    let reply : Json := .object [("aggregations", .object [
      ("date_issued", .object [("buckets", .array [.null, .object [("key", .null)]])]),
      ("local_creator.keyword", .object [("buckets", .array [
        .object [("key", .int 1999), ("doc_count", .int 2)],
        .object [("doc_count", .int 5)],
        .object [("key", .bool true), ("doc_count", .int (-1))]])]),
      ("service_key", .object [("buckets", .array [
        .object [("key", .string "abc"), ("doc_count", .int 9)],
        .object [("key", .string "xyz"), ("doc_count", .string "9")]])]),
      ("variant", .object [("buckets", .object [])])])]
    let facets : List Facet := [
      ⟨"Service", "service_key",
        [⟨"abc", "Digital Collections", 9⟩, ⟨"xyz", "Unknown Service", 0⟩]⟩,
      ⟨"creator", "local_creator.keyword", [⟨"1999", "1999", 2⟩, ⟨"true", "true", 0⟩]⟩,
      ⟨"issued", "date_issued", []⟩]
    other.Reorders registry ∧ assemble reply registry services = facets ∧
      assemble reply other services = facets := by
  intro creator provider kind date registry other services reply facets
  have hreorders : other.Reorders registry := ⟨by decide, by decide⟩
  have hfacets : assemble reply registry services = facets := by decide +kernel
  obtain ⟨counted, -, -, -, -, hother⟩ := assemble_faithful reply registry services
  exact ⟨hreorders, hfacets, (hother other hreorders).trans hfacets⟩

end Facet

end HarvestSearch
