/-
Metadata elements and the index fields that hold their values.

An element belongs to one of three vocabularies. The index keeps the three apart by the head of the
field name: locally defined elements are indexed as `local_…` or, for dates, `date_…`, harvested ones
as `source_…`, and system fields under their bare name. Text fields have an exact-match form and a
form for sorting, each with its own tail; dates of the local vocabulary and system fields serve for
all three uses under the one name.

`Element` is `gleaner_domain::element::Element` and its three words are `DataType`, `ElementSource`
and `FacetOrder` there; `fieldWithTail` is `Element::suffixed`.
-/
import HarvestSearch.Field
import HarvestSearch.Json.Decode

set_option autoImplicit false

namespace HarvestSearch

/-- What the values of an element are. -/
inductive DataType where
  | string
  | date
deriving DecidableEq, Repr, Inhabited

/-- How the buckets of an element's facet are ordered. -/
inductive FacetOrder where
  | byCount
  | alphanumeric
deriving DecidableEq, Repr, Inhabited

/-- The vocabulary an element belongs to. -/
inductive ElementSource where
  -- locally defined elements
  | localVocabulary
  -- elements kept as they were harvested from a content service
  | harvested
  -- bookkeeping fields of documents, indexed under their bare name
  | system
deriving DecidableEq, Repr, Inhabited

structure Element where
  name : String
  label : String
  dataType : DataType
  source : ElementSource
  searchable : Bool
  sortable : Bool
  facetable : Bool
  facetOrder : FacetOrder
  weight : Int
deriving DecidableEq, Repr, Inhabited

namespace Element

/-! ## Making elements -/

/-- A text element that is labelled with its name and serves no special use. -/
def plain (name : String) (source : ElementSource) : Element where
  name := name
  label := name
  dataType := .string
  source := source
  searchable := false
  sortable := false
  facetable := false
  facetOrder := .byCount
  weight := 0

def withLabel (e : Element) (label : String) : Element := { e with label := label }

def withDataType (e : Element) (dataType : DataType) : Element := { e with dataType := dataType }

def asSearchable (e : Element) : Element := { e with searchable := true }

def asSortable (e : Element) : Element := { e with sortable := true }

/-- The element, with a facet whose buckets come in the given order. -/
def asFacetable (e : Element) (order : FacetOrder) : Element :=
  { e with facetable := true, facetOrder := order }

def withWeight (e : Element) (weight : Int) : Element := { e with weight := weight }

/-! ## Index fields -/

/-- The index field that holds the values as text. -/
def indexedField (e : Element) : String :=
  match e.source, e.dataType with
  | .system, _ => e.name
  | .harvested, _ => Field.sourceHead ++ e.name
  | .localVocabulary, .date => Field.dateHead ++ e.name
  | .localVocabulary, .string => Field.localHead ++ e.name

/-- The element is indexed under one name for every use. -/
def hasSingleField (e : Element) : Bool :=
  match e.source, e.dataType with
  | .system, _ => true
  | .localVocabulary, .date => true
  | _, _ => false

/-- The indexed field with a tail, which fields that serve for every use do not take. -/
def fieldWithTail (e : Element) (tail : String) : String :=
  if e.hasSingleField then e.indexedField else e.indexedField ++ tail

/-- The field for exact matches. -/
def keywordField (e : Element) : String := e.fieldWithTail Field.keywordTail

/-- The field that facets count. -/
def facetField (e : Element) : String := e.keywordField

/-- The field that results are sorted by. -/
def sortField (e : Element) : String := e.fieldWithTail Field.sortTail

/-- The system element that tells the content service. -/
def isServiceKey (e : Element) : Bool := e.source = .system && e.name = Field.serviceKey

/-- The system element that tells the kind of document. -/
def isVariant (e : Element) : Bool := e.source = .system && e.name = Field.variant

end Element

/-! ## Written form -/

def DataType.names : List (String × DataType) := [("string", .string), ("date", .date)]

def DataType.word : DataType → String
  | .string => "string"
  | .date => "date"

def FacetOrder.names : List (String × FacetOrder) :=
  [("by_count", .byCount), ("alphanumeric", .alphanumeric)]

def FacetOrder.word : FacetOrder → String
  | .byCount => "by_count"
  | .alphanumeric => "alphanumeric"

def ElementSource.names : List (String × ElementSource) :=
  [("local", .localVocabulary), ("source", .harvested), ("system", .system)]

def ElementSource.word : ElementSource → String
  | .localVocabulary => "local"
  | .harvested => "source"
  | .system => "system"

def DataType.ofJson? (j : Json) : Option DataType := j.oneOf DataType.names

def FacetOrder.ofJson? (j : Json) : Option FacetOrder := j.oneOf FacetOrder.names

def ElementSource.ofJson? (j : Json) : Option ElementSource := j.oneOf ElementSource.names

def Element.toJson (e : Element) : Json :=
  .object [
    ("name", .string e.name),
    ("label", .string e.label),
    ("data_type", .string e.dataType.word),
    ("source", .string e.source.word),
    ("searchable", .bool e.searchable),
    ("sortable", .bool e.sortable),
    ("facetable", .bool e.facetable),
    ("facet_order", .string e.facetOrder.word),
    ("weight", .int e.weight)]

/-- Reads the record of an element. Every member is required. -/
def Element.ofJson? (j : Json) : Option Element := do
  pure {
    name := ← j.field "name" Json.asString?
    label := ← j.field "label" Json.asString?
    dataType := ← j.field "data_type" DataType.ofJson?
    source := ← j.field "source" ElementSource.ofJson?
    searchable := ← j.field "searchable" Json.asBool?
    sortable := ← j.field "sortable" Json.asBool?
    facetable := ← j.field "facetable" Json.asBool?
    facetOrder := ← j.field "facet_order" FacetOrder.ofJson?
    weight := ← j.field "weight" Json.asInt32? }

end HarvestSearch
