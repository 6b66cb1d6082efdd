/-
Filters: what the value of a field has to be.

Filters reach a request in three shapes: one `field:value` pair, a list of such pairs, or a map from
fields to values. All three are normalized to a map. In a list, pairs of one field come together in
the order of their first occurrence, and a pair that lacks its colon, its field or its value is
skipped.

`FilterValue`, `FilterMap` and `FilterInput` are those of `gleaner_search::filter`;
`FilterInput.normalize` is `FilterInput::normalize` and `FilterMap.ofPairs` is
`gleaner_search::filter::collect_pairs`.
-/
import HarvestSearch.Json.Decode
import HarvestSearch.Text.Trim

set_option autoImplicit false

namespace HarvestSearch

/-- What the value of a field has to be. -/
inductive FilterValue where
  -- this very value
  | one (value : String)
  -- any of the values
  | many (values : List String)
deriving DecidableEq, Repr, Inhabited

/-- Filters by field. -/
abbrev FilterMap := FieldMap FilterValue

/-- Filters as they are given. -/
inductive FilterInput where
  -- one `field:value` pair
  | single (pair : String)
  -- several pairs
  | list (pairs : List String)
  -- the map itself
  | map (filters : FilterMap)
deriving DecidableEq, Inhabited

/-! ## Pairs -/

namespace FilterValue

/-- One more value for the field. A value that is already there changes nothing. -/
def push (value : String) : FilterValue → FilterValue
  | .one v => if v = value then .one v else .many [v, value]
  | .many vs => if value ∈ vs then .many vs else .many (vs ++ [value])

def values : FilterValue → List String
  | .one value => [value]
  | .many values => values

end FilterValue

/-- The field and the value of a pair: what stands before and after its first colon, without white
space at the ends. Neither may be empty. -/
def splitPair (pair : String) : Option (String × String) := do
  let (field, value) ← Text.cutFirst ':' pair.toList
  let field := Text.trimList field
  let value := Text.trimList value
  if field.isEmpty || value.isEmpty then none
  else some (String.ofList field, String.ofList value)

namespace FilterMap

/-- The filters with one more value for a field. -/
def addValue (filters : FilterMap) (field value : String) : FilterMap :=
  match filters.get? field with
  | some existing => filters.insert field (existing.push value)
  | none => filters.insert field (.one value)

def addPair (filters : FilterMap) (pair : String) : FilterMap :=
  match splitPair pair with
  | some (field, value) => addValue filters field value
  | none => filters

def ofPairs (pairs : List String) : FilterMap := pairs.foldl addPair .empty

/-- The filters as pairs, one for each value, in the order of the fields. -/
def toPairs (filters : FilterMap) : List String :=
  filters.entries.flatMap fun (field, value) => value.values.map fun v => field ++ ":" ++ v

end FilterMap

/-- The map that the input stands for. -/
def FilterInput.normalize : FilterInput → FilterMap
  | .single pair => .ofPairs [pair]
  | .list pairs => .ofPairs pairs
  | .map filters => filters

/-! ## Written form -/

/-- A value as a string, several values as a list. -/
def FilterValue.toJson : FilterValue → Json
  | .one value => .string value
  | .many values => .ofStrings values

/-- Reads a string or a list of strings. -/
def FilterValue.ofJson? (j : Json) : Option FilterValue :=
  match j.asString? with
  | some value => some (.one value)
  | none => j.asStrings?.map .many

def FilterMap.toJson (filters : FilterMap) : Json :=
  .object (filters.entries.map fun (field, value) => (field, value.toJson))

/-- The input in its own shape. -/
def FilterInput.toJson : FilterInput → Json
  | .single pair => .string pair
  | .list pairs => .ofStrings pairs
  | .map filters => filters.toJson

/-- Reads a string, a list of strings or an object of filter values. -/
def FilterInput.ofJson? (j : Json) : Option FilterInput :=
  match j.asString? with
  | some pair => some (.single pair)
  | none =>
    match j.asStrings? with
    | some pairs => some (.list pairs)
    | none => (j.mapOf FilterValue.ofJson?).map .map

end HarvestSearch
