/-
Search requests.

A request says what to look for, which documents to keep, how to sort them and which part of the
result to return. It is put together by calls, each of which writes some part of it; `Request.Call`
is the call as data, and `Request.apply` does what it says.

`Request` is `gleaner_search::request::SearchRequest`, and there is one `Request.Call` for each
method by which one is put together.
-/
import HarvestSearch.Filter
import HarvestSearch.SortOrder

set_option autoImplicit false

namespace HarvestSearch

/-- Text to look for in a field. -/
structure TextQuery where
  field : String
  text : String
deriving DecidableEq, Repr, Inhabited

structure Request where
  query : Option TextQuery
  filters : FilterMap
  excludes : FilterMap
  contentService : Option String
  includeVariants : NameSet
  excludeVariants : NameSet
  -- also documents that are parts of others
  includeChildren : Bool
  orders : List SortOrder
  start : UInt64
  limit : Option UInt64
  aggregations : Bool
  -- A cap for facets ordered by count. Zero keeps the configured one.
  bucketLimit : Option UInt32
deriving DecidableEq

namespace Request

/-- The request for everything, with facets. -/
def initial : Request where
  query := none
  filters := .empty
  excludes := .empty
  contentService := none
  includeVariants := .empty
  excludeVariants := .empty
  includeChildren := false
  orders := []
  start := 0
  limit := none
  aggregations := true
  bucketLimit := none

instance : Inhabited Request := ⟨initial⟩

/-! ## Pages -/

/-- Where a page starts, for pages numbered from one. Page zero is page one, and a start past the
largest word is the largest word. -/
def pageStart (number perPage : UInt64) : UInt64 :=
  UInt64.ofNat (min ((number.toNat - 1) * perPage.toNat) Json.maxWord)

/-! ## Calls -/

/-- One step in putting a request together. -/
inductive Call where
  -- look for text in every searchable element
  | query (text : String)
  -- look for text in one field
  | queryField (field text : String)
  -- look for text in the field of an element
  | queryElement (element : Element) (text : String)
  -- keep documents by one field, in place of what was said about it
  | filter (field : String) (value : FilterValue)
  -- keep documents by several fields, in place of what was said about them
  | filters (input : FilterInput)
  -- drop documents by one field
  | exclude (field : String) (value : FilterValue)
  -- drop documents by several fields
  | excludes (input : FilterInput)
  | contentService (key : String)
  -- more variants to keep
  | includeVariants (variants : List String)
  -- more variants to drop
  | excludeVariants (variants : List String)
  | includeChildren (enabled : Bool)
  -- sort, in place of all earlier orders
  | order (orders : List SortOrder)
  | start (start : UInt64)
  | limit (limit : UInt64)
  -- return one page, for pages numbered from one
  | page (number perPage : UInt64)
  | aggregations (enabled : Bool)
  | bucketLimit (limit : UInt32)
deriving DecidableEq

def apply (r : Request) : Call → Request
  | .query text => { r with query := some ⟨Field.searchAll, text⟩ }
  | .queryField field text => { r with query := some ⟨field, text⟩ }
  | .queryElement element text => { r with query := some ⟨element.indexedField, text⟩ }
  | .filter field value => { r with filters := r.filters.insert field value }
  | .filters input => { r with filters := r.filters.union input.normalize }
  | .exclude field value => { r with excludes := r.excludes.insert field value }
  | .excludes input => { r with excludes := r.excludes.union input.normalize }
  | .contentService key => { r with contentService := some key }
  | .includeVariants variants =>
    { r with includeVariants := NameSet.insertNames r.includeVariants variants }
  | .excludeVariants variants =>
    { r with excludeVariants := NameSet.insertNames r.excludeVariants variants }
  | .includeChildren enabled => { r with includeChildren := enabled }
  | .order orders => { r with orders := orders }
  | .start start => { r with start := start }
  | .limit limit => { r with limit := some limit }
  | .page number perPage =>
    { r with start := pageStart number perPage, limit := some perPage }
  | .aggregations enabled => { r with aggregations := enabled }
  | .bucketLimit limit => { r with bucketLimit := some limit }

/-- The request after a list of calls. -/
def applyAll (r : Request) (calls : List Call) : Request := calls.foldl apply r

/-! ## Looking at a request -/

/-- Variants are kept or dropped, which leaves nothing to choose among them. -/
def constrainsVariants (r : Request) : Bool :=
  !r.includeVariants.isEmpty || !r.excludeVariants.isEmpty

end Request

end HarvestSearch
