/-
Sort orders: a field and a direction.

The written form is `field` or `field:direction`. Fields may hold colons, so the direction is what
stands behind the last one. Any word but `desc`, in any ASCII case, sorts ascending.

`SortOrder` and `SortDirection` are those of `gleaner_search::request`, and `SortOrder.parse?` is
`SortOrder::parse`.
-/
import HarvestSearch.Element
import HarvestSearch.Text.Trim

set_option autoImplicit false

namespace HarvestSearch

/-- The direction of a sort. -/
inductive SortDirection where
  | asc
  | desc
deriving DecidableEq, Repr, Inhabited

/-- A field to sort by and the direction. -/
structure SortOrder where
  field : String
  direction : SortDirection
deriving DecidableEq, Repr, Inhabited

namespace SortDirection

def word : SortDirection → String
  | .asc => "asc"
  | .desc => "desc"

def names : List (String × SortDirection) := [("asc", .asc), ("desc", .desc)]

/-- The direction that a word asks for. -/
def ofWord (word : String) : SortDirection :=
  if Text.lowerAscii (Text.trim word) = "desc" then .desc else .asc

def ofJson? (j : Json) : Option SortDirection := j.oneOf names

end SortDirection

namespace SortOrder

/-- Sorts by the values of an element. -/
def byElement (e : Element) (direction : SortDirection) : SortOrder := ⟨e.sortField, direction⟩

/-- Reads `field` or `field:direction`. A blank field is no field. -/
def parse? (raw : String) : Option SortOrder :=
  let (field, direction) := (Text.cutLast ':' raw.toList).getD (raw.toList, "asc".toList)
  let field := Text.trimList field
  if field.isEmpty then none
  else some ⟨String.ofList field, .ofWord (String.ofList direction)⟩

/-- Writes `field:direction`. -/
def print (order : SortOrder) : String := order.field ++ ":" ++ order.direction.word

def toJson (order : SortOrder) : Json :=
  .object [("field", .string order.field), ("direction", .string order.direction.word)]

def ofJson? (j : Json) : Option SortOrder := do
  pure {
    field := ← j.field "field" Json.asString?
    direction := ← j.field "direction" SortDirection.ofJson? }

end SortOrder

end HarvestSearch
