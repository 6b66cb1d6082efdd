/-
Reading records out of JSON values.

A record is an object; members that it does not name are ignored. A member is required (`field`), has
a default for when it is absent (`fieldOr`), or is optional, and then `null` says the same as absence
(`fieldOption`). Nothing is coerced: a reader answers for its own kind of value only.

The three kinds of members are those of a derived `serde::Deserialize`: plain, with a default, and
an `Option`.
-/
import HarvestSearch.Json.Basic

set_option autoImplicit false

namespace HarvestSearch.Json

variable {α : Type}

/-- A member that has to be there. -/
def field (j : Json) (key : String) (decode : Json → Option α) : Option α := do
  decode (← j.get? key)

/-- A member with a default. A member that is there has to be of the right kind, also `null`. -/
def fieldOr (j : Json) (key : String) (default : α) (decode : Json → Option α) : Option α :=
  match j.get? key with
  | none => some default
  | some value => decode value

/-- An optional member. -/
def fieldOption (j : Json) (key : String) (decode : Json → Option α) : Option (Option α) :=
  match j.get? key with
  | none => some none
  | some .null => some none
  | some value => (decode value).map some

/-- An array, every item of which is read the same way. -/
def listOf (decode : Json → Option α) (j : Json) : Option (List α) := do
  (← j.asArray?).mapM decode

/-- A list of strings. -/
def asStrings? (j : Json) : Option (List String) := j.listOf asString?

/-- A map, every value of which is read the same way. -/
def mapOf (decode : Json → Option α) (j : Json) : Option (FieldMap α) := do
  let entries ← (← j.asObject?).mapM fun (key, value) => (decode value).map fun a => (key, a)
  pure (.ofList entries)

/-- One of several named alternatives: the name, or an object with `null` under the name. -/
def oneOf (names : List (String × α)) (j : Json) : Option α :=
  match j with
  | .string name => names.lookup name
  | .object [(name, .null)] => names.lookup name
  | _ => none

end HarvestSearch.Json
