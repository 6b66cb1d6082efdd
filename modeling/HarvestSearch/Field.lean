/-
The names of the fields of stored documents.

Every stored document carries a few bookkeeping fields under fixed names; all others are made from
the name of a metadata element, with a head that tells the vocabulary and, for some uses, a tail.

The names are the constants of `gleaner_domain::fields`.
-/

set_option autoImplicit false

namespace HarvestSearch.Field

/-! ## Bookkeeping fields -/

/-- The identity of the document. -/
def indexId : String := "index_id"

/-- Where the described thing is found. -/
def sourceUri : String := "source_uri"

/-- The content service that the document was harvested from. -/
def serviceKey : String := "service_key"

/-- The kind of document. -/
def variant : String := "variant"

/-- The document that this one is a part of. -/
def parentId : String := "parent_id"

/-- Elements that are stored inside the document, name by name. -/
def elements : String := "elements"

/-- The text of all searchable elements together. -/
def searchAll : String := "search_all"

/-- Not a field but the rank of a match, which results can be sorted by. -/
def score : String := "_score"

/-! ## Heads and tails of element fields -/

/-- Locally defined elements holding text. -/
def localHead : String := "local_"

/-- Locally defined elements holding dates. -/
def dateHead : String := "date_"

/-- Elements kept as they were harvested. -/
def sourceHead : String := "source_"

/-- The exact-match form of a text field. -/
def keywordTail : String := ".keyword"

/-- The form of a text field that results are sorted by. -/
def sortTail : String := ".sort"

end HarvestSearch.Field
