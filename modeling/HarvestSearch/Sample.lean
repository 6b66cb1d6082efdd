/-
Sample data: a small catalog and replies that fit it.

The catalog has an element of every kind, two boosts and one content service. The replies come in the
shapes of both dialects, which tell the number of matches in different ways.

The catalog, the hits and the replies are those of `gleaner_testkit::fixtures`.
-/
import HarvestSearch.Catalog

set_option autoImplicit false

namespace HarvestSearch.Sample

/-! ## The catalog -/

/-- The key of the content service. -/
def serviceKey : String := "a1b2c3"

def elements : List Element := [
  ((Element.plain Field.serviceKey .system).withLabel "Service").asFacetable .byCount,
  (((Element.plain Field.variant .system).withLabel "Type").asFacetable .alphanumeric).withWeight 1,
  (((Element.plain "title" .localVocabulary).withLabel "Title").asSearchable.asSortable).withWeight 2,
  ((((Element.plain "creator" .localVocabulary).withLabel "Creator").asSearchable.asSortable).asFacetable
    .byCount).withWeight 3,
  (((Element.plain "issued" .localVocabulary).withLabel "Date").withDataType .date).asSortable.withWeight 4,
  ((((Element.plain "subject" .harvested).withLabel "Subject").asSearchable).asFacetable
    .byCount).withWeight 5]

/-- The registry of the elements. -/
def registry : Registry := ⟨elements, by decide⟩

/-- Featured subjects are raised and collections are lowered. -/
def boosts : BoostTable where
  boosts := [
    ⟨"source_subject.keyword", "Featured", 5, by decide, by decide, by decide⟩,
    ⟨Field.variant, "collection", -2, by decide, by decide, by decide⟩]
  distinct := by decide

def services : ServiceDirectory :=
  .ofList [⟨serviceKey, "Digital Collections", some "https://collections.example.org"⟩]

def catalog : Catalog := ⟨registry, boosts, services⟩

/-! ## Replies -/

/-- A hit whose document has an identity, an address and a title. -/
def hit (indexId : String) : Json :=
  .ofMembers [
    ("_index", .string "gleaner"),
    ("_id", .string indexId),
    ("_score", .float .one),
    ("_source", .ofMembers [
      (Field.indexId, .string indexId),
      (Field.sourceUri, .string ("http://example.org/" ++ indexId)),
      (Field.serviceKey, .string serviceKey),
      (Field.variant, .string "item"),
      ("local_title", .string ("Title of " ++ indexId))])]

/-- A reply with the given account of the matches. -/
def replyWith (total : Json) (hits : List Json) : Json :=
  .ofMembers [
    ("took", .int 3),
    ("timed_out", .bool false),
    ("hits", .ofMembers [("total", total), ("hits", .array hits)])]

/-- The reply of a modern engine. -/
def reply (total : UInt64) (hits : List Json) : Json :=
  replyWith (.ofMembers [("value", .ofUInt64 total), ("relation", .string "eq")]) hits

/-- The reply of a legacy engine. -/
def legacyReply (total : UInt64) (hits : List Json) : Json := replyWith (.ofUInt64 total) hits

/-- The reply with aggregations. -/
def withAggregations (reply aggregations : Json) : Json :=
  match reply with
  | .object members => .ofMembers (members ++ [("aggregations", aggregations)])
  | other => other

end HarvestSearch.Sample
