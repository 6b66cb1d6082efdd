/-
Content services: where documents are harvested from.

`ContentService` and `ServiceDirectory` are the two of `gleaner_domain::service`, and
`ServiceDirectory.displayName` is `ServiceDirectory::display_name`.
-/
import HarvestSearch.Json.Decode

set_option autoImplicit false

namespace HarvestSearch

/-- A content service. -/
structure ContentService where
  key : String
  name : String
  uri : Option String
deriving DecidableEq, Repr, Inhabited

namespace ContentService

def toJson (s : ContentService) : Json :=
  .object [
    ("key", .string s.key),
    ("name", .string s.name),
    ("uri", Json.ofOption .string s.uri)]

/-- Reads the record of a content service. The address is optional. -/
def ofJson? (j : Json) : Option ContentService := do
  pure {
    key := ← j.field "key" Json.asString?
    name := ← j.field "name" Json.asString?
    uri := ← j.fieldOption "uri" Json.asString? }

end ContentService

/-- Content services by key. -/
structure ServiceDirectory where
  byKey : FieldMap ContentService

namespace ServiceDirectory

/-- The name shown for a key without a service. -/
def unknownName : String := "Unknown Service"

/-- The directory without services. -/
def empty : ServiceDirectory := ⟨.empty⟩

instance : Inhabited ServiceDirectory := ⟨empty⟩

/-- The directory of a list of services. Of those with one key the last one counts. -/
def ofList (services : List ContentService) : ServiceDirectory :=
  ⟨.ofList (services.map fun s => (s.key, s))⟩

/-- The service of a key. -/
def get? (d : ServiceDirectory) (key : String) : Option ContentService := d.byKey.get? key

/-- The name shown for a key. -/
def displayName (d : ServiceDirectory) (key : String) : String :=
  match d.get? key with
  | some service => service.name
  | none => unknownName

end ServiceDirectory

end HarvestSearch
