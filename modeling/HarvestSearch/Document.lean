/-
Query documents: what the search engine is asked.

A document is kept as a typed tree (clauses, a scored query, aggregations, sort clauses and a window)
and is written as JSON in one place, `Document.toJson`. `Document.build` makes the document of a
request and never fails.

`Document.build` with `Document.toJson` is `gleaner_search::query::QueryBuilder::build`. Its parts
bear the names of the parts of that function: `BoolQuery.ofRequest` is
`gleaner_search::query::bool_query`, `ScoreFunction.ofBoosts` belongs to
`QueryBuilder::scored_query`, and `Aggregation.ofRequest` is `QueryBuilder::aggregations`.
-/
import HarvestSearch.Catalog
import HarvestSearch.QueryText
import HarvestSearch.Request
import HarvestSearch.Settings

set_option autoImplicit false

namespace HarvestSearch

/-! ## The tree -/

/-- A condition on stored documents. -/
inductive Clause where
  -- every document
  | matchAll
  -- the words of an expression occur in a field
  | queryString (expression field : String)
  -- a field holds a value
  | term (field value : String)
  -- a field holds one of several values
  | terms (field : String) (values : List String)
  -- a field holds any value
  | hasValue (field : String)
deriving DecidableEq, Repr, Inhabited

/-- Conditions that have to hold (with a score or without) and conditions that must not hold. -/
structure BoolQuery where
  must : List Clause
  filter : List Clause
  mustNot : List Clause
deriving DecidableEq, Repr, Inhabited

/-- A weight for documents that satisfy a condition. -/
structure ScoreFunction where
  filter : Clause
  weight : Int
deriving DecidableEq, Repr, Inhabited

/-- A query whose score is changed by boosts. -/
structure ScoredQuery where
  query : BoolQuery
  functions : List ScoreFunction
deriving DecidableEq, Repr, Inhabited

/-- A count of the values of a field. -/
structure Aggregation where
  field : String
  size : UInt32
  -- what the buckets are ordered by, and the direction
  orderKey : String
  orderDirection : SortDirection
deriving DecidableEq, Repr, Inhabited

structure Document where
  query : ScoredQuery
  aggregations : FieldMap Aggregation
  sort : List SortOrder
  start : Option UInt64
  size : Option UInt64
deriving DecidableEq

/-! ## Building -/

namespace BoolQuery

/-- The conditions that filters stand for. An empty list of values is no condition. -/
def filterClauses (filters : FilterMap) : List Clause :=
  filters.entries.filterMap fun (field, value) =>
    match value with
    | .one value => some (.term field value)
    | .many [] => none
    | .many values => some (.terms field values)

/-- The condition on the text of a document. -/
def textClause : Option TextQuery → Clause
  | none => .matchAll
  | some query => .queryString (QueryText.expression query.text) query.field

/-- The condition that the variant is one of a set, if there is a set. -/
def variantClause (variants : NameSet) : List Clause :=
  if variants.isEmpty then [] else [.terms Field.variant variants.names]

def ofRequest (r : Request) : BoolQuery where
  must := [textClause r.query]
  filter :=
    filterClauses r.filters
      ++ (match r.contentService with
          | some key => [.term Field.serviceKey key]
          | none => [])
      ++ variantClause r.includeVariants
  mustNot :=
    filterClauses r.excludes
      ++ variantClause r.excludeVariants
      ++ (if r.includeChildren then [] else [.hasValue Field.parentId])

end BoolQuery

/-- A strength within the bounds of boosts. -/
def clampBoost (strength : Int) : Int := max (-maxBoost) (min strength maxBoost)

/-- The boosts as score functions, in the order of the table. -/
def ScoreFunction.ofBoosts (boosts : BoostTable) : List ScoreFunction :=
  boosts.boosts.map fun b => ⟨.term b.field b.value, clampBoost b.strength⟩

namespace Aggregation

/-- The cap of a request for facets ordered by count: its own cap when it has one that is not zero,
else the configured one. -/
def bucketLimit (settings : Settings) (r : Request) : UInt32 :=
  match r.bucketLimit with
  | some limit => if limit = 0 then settings.bucketLimit else limit
  | none => settings.bucketLimit

/-- The aggregation of an element's facet. -/
def ofElement (settings : Settings) (r : Request) (e : Element) : Aggregation :=
  let limit := bucketLimit settings r
  match e.facetOrder with
  | .alphanumeric =>
    { field := e.facetField
      size := max settings.alphanumericBucketLimit limit
      orderKey := settings.dialect.keyOrder
      orderDirection := .asc }
  | .byCount =>
    { field := e.facetField
      size := limit
      orderKey := "_count"
      orderDirection := .desc }

/-- The elements whose facets a request asks for. The variant facet is left out when the request
constrains variants. -/
def requestedElements (registry : Registry) (r : Request) : List Element :=
  registry.facetable.filter fun e => !(e.isVariant && r.constrainsVariants)

/-- The aggregations of a request, by facet field. -/
def ofRequest (settings : Settings) (registry : Registry) (r : Request) : FieldMap Aggregation :=
  if r.aggregations then
    .ofList ((requestedElements registry r).map fun e => (e.facetField, ofElement settings r e))
  else .empty

end Aggregation

namespace Document

def build (settings : Settings) (catalog : Catalog) (r : Request) : Document where
  query := ⟨BoolQuery.ofRequest r, ScoreFunction.ofBoosts catalog.boosts⟩
  aggregations := Aggregation.ofRequest settings catalog.registry r
  sort := r.orders
  start := if 0 < r.start || settings.dialect.alwaysSendsStart then some r.start else none
  size := r.limit

end Document

/-! ## Written form -/

def Clause.toJson : Clause → Json
  | .matchAll => .ofMembers [("match_all", .object [])]
  | .queryString expression field =>
    .ofMembers [("query_string", .ofMembers [
      ("query", .string expression),
      ("default_field", .string field),
      ("default_operator", .string "AND"),
      ("lenient", .bool true)])]
  | .term field value => .ofMembers [("term", .ofMembers [(field, .string value)])]
  | .terms field values => .ofMembers [("terms", .ofMembers [(field, .ofStrings values)])]
  | .hasValue field => .ofMembers [("exists", .ofMembers [("field", .string field)])]

/-- The conditions as JSON. Empty lists are left out. -/
def BoolQuery.toJson (q : BoolQuery) : Json :=
  .ofMembers [("bool", .ofMembers (
    ("must", .array (q.must.map Clause.toJson))
      :: (Json.listMember "filter" (q.filter.map Clause.toJson)
        ++ Json.listMember "must_not" (q.mustNot.map Clause.toJson))))]

def ScoreFunction.toJson (f : ScoreFunction) : Json :=
  .ofMembers [("filter", f.filter.toJson), ("weight", .int f.weight)]

/-- The scored query as JSON. Of several boosts that apply the strongest counts. -/
def ScoredQuery.toJson (q : ScoredQuery) : Json :=
  .ofMembers [("function_score", .ofMembers (
    ("query", q.query.toJson)
      :: Json.listMember "functions" (q.functions.map ScoreFunction.toJson)
      ++ [("score_mode", .string "max"),
          ("boost_mode", .string "multiply"),
          ("max_boost", .int maxBoost),
          ("boost", .int maxBoost)]))]

def Aggregation.toJson (a : Aggregation) : Json :=
  .ofMembers [("terms", .ofMembers [
    ("field", .string a.field),
    ("size", .ofUInt32 a.size),
    ("order", .ofMembers [(a.orderKey, .string a.orderDirection.word)])])]

/-- A sort order as a sort clause. The rank of a match has no type that could be missing. -/
def SortOrder.toClause (order : SortOrder) : Json :=
  let direction := ("order", Json.string order.direction.word)
  .ofMembers [(order.field, .ofMembers (
    if order.field = Field.score then [direction]
    else [direction, ("unmapped_type", .string "keyword")]))]

/-- The document as JSON. Members without content are left out. -/
def Document.toJson (d : Document) : Json :=
  .ofMembers (
    ("query", d.query.toJson)
      :: (if d.aggregations.isEmpty then []
          else [("aggregations",
            .object (d.aggregations.entries.map fun (key, a) => (key, a.toJson)))])
      ++ Json.listMember "sort" (d.sort.map SortOrder.toClause)
      ++ Json.optionMember "from" (d.start.map .ofUInt64)
      ++ Json.optionMember "size" (d.size.map .ofUInt64))

end HarvestSearch
