/-
Catalogs: the checked data that every search looks things up in.

A catalog file becomes a catalog when the words of all its elements are known, element names are
distinct, and its boosts are valid and distinct. The error is the first failure in that order.

`Catalog.ofFile` is `gleaner_domain::CatalogSnapshot::from_catalog`, and `Element.ofEntry` the
`try_from` of `gleaner_domain::element::Element`.
-/
import HarvestSearch.CatalogFile

set_option autoImplicit false

namespace HarvestSearch

inductive ElementFault where
  | unknownDataType (word name : String)
  | unknownSource (word name : String)
  | unknownFacetOrder (word name : String)
deriving DecidableEq, Repr

def ElementFault.message : ElementFault → String
  | .unknownDataType word name => "unknown data type '" ++ word ++ "' for " ++ name ++ "."
  | .unknownSource word name => "unknown source '" ++ word ++ "' for " ++ name ++ "."
  | .unknownFacetOrder word name => "unknown facet order '" ++ word ++ "' for " ++ name ++ "."

/-- The word that a catalog file uses for a facet order. -/
def FacetOrder.ofCatalogWord? : String → Option FacetOrder
  | "count" => some .byCount
  | "alphanumeric" => some .alphanumeric
  | _ => none

/-- The element of an entry, or the first word of it that means nothing. -/
def Element.ofEntry (entry : ElementEntry) : Except ElementFault Element := do
  let some dataType := DataType.names.lookup entry.dataType
    | throw (.unknownDataType entry.dataType entry.name)
  let some source := ElementSource.names.lookup entry.source
    | throw (.unknownSource entry.source entry.name)
  let some facetOrder := FacetOrder.ofCatalogWord? entry.facetOrder
    | throw (.unknownFacetOrder entry.facetOrder entry.name)
  pure {
    name := entry.name
    label := entry.label.getD entry.name
    dataType := dataType
    source := source
    searchable := entry.searchable
    sortable := entry.sortable
    facetable := entry.facetable
    facetOrder := facetOrder
    weight := entry.weight }

/-- The registry of a list of entries. An unknown word of any entry counts before a repetition. -/
def Registry.ofEntries (entries : List ElementEntry) : Except DomainError Registry := do
  let elements ← entries.mapM fun entry =>
    (Element.ofEntry entry).mapError fun fault => DomainError.invalidElement fault.message
  ofList elements

/-- The checked data that every search looks things up in. -/
structure Catalog where
  registry : Registry
  boosts : BoostTable
  services : ServiceDirectory

namespace Catalog

def empty : Catalog := ⟨.empty, .empty, .empty⟩

instance : Inhabited Catalog := ⟨empty⟩

/-- The catalog of a file: elements first, then boosts; services are never refused. -/
def ofFile (file : CatalogFile) : Except DomainError Catalog := do
  pure {
    registry := ← Registry.ofEntries file.elements
    boosts := ← BoostTable.ofEntries file.boosts
    services := .ofList file.services }

end Catalog

end HarvestSearch
