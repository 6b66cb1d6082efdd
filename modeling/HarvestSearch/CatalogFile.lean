/-
Catalog files: the written form of element definitions, boosts and content services.

An entry keeps its words as they are written, so a catalog file can hold words that mean nothing;
they are refused when the file becomes a `Catalog`. What is checked here is that names and keys are
there and are not repeated. Reading a file also tidies it: a blank label or address counts as absent.

`CatalogFile` is `gleaner_config::Catalog` with the `ElementDef`, `BoostDef` and `ContentServiceDef`
beside it; `CatalogFile.tidy` and `CatalogFile.fault?` are `gleaner_config::normalize_catalog` and
`gleaner_config::validate_catalog`.
-/
import HarvestSearch.Boost
import HarvestSearch.ContentService

set_option autoImplicit false

namespace HarvestSearch

/-- An element as it is written in a catalog file. -/
structure ElementEntry where
  name : String
  label : Option String
  dataType : String
  source : String
  searchable : Bool
  sortable : Bool
  facetable : Bool
  facetOrder : String
  weight : Int
deriving DecidableEq, Repr, Inhabited

/-- The content of a catalog file. -/
structure CatalogFile where
  elements : List ElementEntry
  boosts : List BoostEntry
  services : List ContentService
deriving DecidableEq, Repr, Inhabited

/-! ## Reading -/

/-- Reads an element entry. All but the name have defaults. -/
def ElementEntry.ofJson? (j : Json) : Option ElementEntry := do
  pure {
    name := ← j.field "name" Json.asString?
    label := ← j.fieldOption "label" Json.asString?
    dataType := ← j.fieldOr "data_type" "string" Json.asString?
    source := ← j.fieldOr "source" "local" Json.asString?
    searchable := ← j.fieldOr "searchable" false Json.asBool?
    sortable := ← j.fieldOr "sortable" false Json.asBool?
    facetable := ← j.fieldOr "facetable" false Json.asBool?
    facetOrder := ← j.fieldOr "facet_order" "count" Json.asString?
    weight := ← j.fieldOr "weight" 0 Json.asInt32? }

/-- Reads a boost entry. -/
def BoostEntry.ofJson? (j : Json) : Option BoostEntry := do
  pure {
    field := ← j.field "field" Json.asString?
    value := ← j.field "value" Json.asString?
    strength := ← j.field "strength" Json.asInt32? }

/-- Reads a catalog file. Each of the three lists may be absent. -/
def CatalogFile.ofJson? (j : Json) : Option CatalogFile := do
  let _ ← j.asObject?
  pure {
    elements := ← j.fieldOr "elements" [] (Json.listOf ElementEntry.ofJson?)
    boosts := ← j.fieldOr "boosts" [] (Json.listOf BoostEntry.ofJson?)
    services := ← j.fieldOr "services" [] (Json.listOf ContentService.ofJson?) }

/-! ## Tidying -/

/-- The file with blank labels and addresses left out. -/
def CatalogFile.tidy (file : CatalogFile) : CatalogFile :=
  { file with
    elements := file.elements.map fun e => { e with label := Text.unlessBlank e.label }
    services := file.services.map fun s => { s with uri := Text.unlessBlank s.uri } }

/-! ## Checking -/

inductive NameFault where
  | blank
  | repeated (name : String)
deriving DecidableEq, Repr

/-- The first name that is blank or occurred before. -/
def firstNameFault (seen : List String) : List String → Option NameFault
  | [] => none
  | name :: names =>
    if Text.isBlank name then some .blank
    else if name ∈ seen then some (.repeated name)
    else firstNameFault (name :: seen) names

inductive CatalogFault where
  | elementName (fault : NameFault)
  | serviceKey (fault : NameFault)
deriving DecidableEq, Repr

/-- The text of a fault in the named column. -/
def NameFault.message (column : String) : NameFault → String
  | .blank => column ++ " must be non-empty."
  | .repeated name => column ++ " '" ++ name ++ "' is defined more than once."

def CatalogFault.message : CatalogFault → String
  | .elementName fault => fault.message "elements.name"
  | .serviceKey fault => fault.message "services.key"

/-- The first fault of the file: the element names are looked at in order, then the service keys. -/
def CatalogFile.fault? (file : CatalogFile) : Option CatalogFault :=
  match firstNameFault [] (file.elements.map (·.name)) with
  | some fault => some (.elementName fault)
  | none => (firstNameFault [] (file.services.map (·.key))).map .serviceKey

end HarvestSearch
