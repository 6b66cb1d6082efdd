/-
Facets: the buckets that a reply counts for an element.

Every facetable element whose buckets the reply lists becomes one facet, lighter elements first. The
buckets keep the engine's order. A bucket without a scalar key is dropped; the key of the content
service facet is shown under the name of the service.

`Facet` and `Bucket` are those of `gleaner_domain::facet`, and `Facet.assemble` is
`gleaner_search::facets::assemble`.
-/
import HarvestSearch.Catalog
import HarvestSearch.Reply

set_option autoImplicit false

namespace HarvestSearch

/-- One value of a facet and how many documents have it. -/
structure Bucket where
  name : String
  label : String
  count : UInt64
deriving DecidableEq, Repr, Inhabited

/-- The values of an element among the documents that match. -/
structure Facet where
  -- the label of the element
  name : String
  -- the field that was counted
  field : String
  buckets : List Bucket
deriving DecidableEq, Repr, Inhabited

namespace Bucket

/-- The text shown for a key of an element. -/
def labelOf (services : ServiceDirectory) (e : Element) (key : String) : String :=
  if e.isServiceKey then services.displayName key else key

/-- The bucket of an element that a reply lists, if it has a scalar key. -/
def ofReply? (services : ServiceDirectory) (e : Element) (raw : Json) : Option Bucket := do
  let key ← (← raw.get? "key").scalarText?
  pure {
    name := key
    label := labelOf services e key
    count := ((raw.get? "doc_count").bind Json.asUInt64?).getD 0 }

end Bucket

namespace Facet

/-- The facet of an element, if the reply lists buckets for it. -/
def ofReply? (services : ServiceDirectory) (reply : Json) (e : Element) : Option Facet := do
  let raw ← Reply.buckets? reply e.facetField
  pure ⟨e.label, e.facetField, raw.filterMap (Bucket.ofReply? services e)⟩

def assemble (reply : Json) (registry : Registry) (services : ServiceDirectory) : List Facet :=
  registry.facetable.filterMap (ofReply? services reply)

end Facet

/-! ## Written form -/

def Bucket.toJson (b : Bucket) : Json :=
  .object [("name", .string b.name), ("label", .string b.label), ("count", .ofUInt64 b.count)]

def Bucket.ofJson? (j : Json) : Option Bucket := do
  pure {
    name := ← j.field "name" Json.asString?
    label := ← j.field "label" Json.asString?
    count := ← j.field "count" Json.asUInt64? }

def Facet.toJson (f : Facet) : Json :=
  .object [
    ("name", .string f.name),
    ("field", .string f.field),
    ("buckets", .array (f.buckets.map Bucket.toJson))]

def Facet.ofJson? (j : Json) : Option Facet := do
  pure {
    name := ← j.field "name" Json.asString?
    field := ← j.field "field" Json.asString?
    buckets := ← j.field "buckets" (Json.listOf Bucket.ofJson?) }

end HarvestSearch
