/-
TOML values.

A table remembers how it came about, because that decides whether a later statement may add to it:
`implied` tables stand above a header that was given, `dotted` tables come from a dotted key,
`declared` tables have a header of their own, and `inline` tables are closed where they are written.
A list of tables that grows by headers is told apart from an array.
-/
import HarvestSearch.Json.Basic

set_option autoImplicit false

namespace HarvestSearch.Toml

/-- How a table came about. -/
inductive TableKind where
  | implied
  | dotted
  | declared
  | inlined
deriving DecidableEq, Repr, Inhabited

/-- A TOML value. -/
inductive Value where
  | string (s : String)
  | integer (n : Int)
  -- a double, or nothing for the infinities and what is not a number
  | float (x : Option Binary64)
  | bool (b : Bool)
  -- a date, a time or both, as written
  | moment (text : String)
  | array (items : List Value)
  | table (kind : TableKind) (entries : List (String × Value))
  -- tables that headers in double brackets started
  | tables (items : List Value)
deriving Repr, Inhabited

/-- The entries of a table. -/
abbrev Entries := List (String × Value)

/-! ## As JSON

Records are read from JSON values, so a TOML value is turned into one. A date becomes an object, as
which it fits neither a string nor a number; an infinity becomes `null`. -/

/-- The member under which a date is kept. -/
def momentKey : String := "moment"

mutual

/-- The JSON value that a TOML value is read as. -/
def Value.toJson : Value → Json
  | .string s => .string s
  | .integer n => .int n
  | .float (some x) => .float x
  | .float none => .null
  | .bool b => .bool b
  | .moment text => .object [(momentKey, .string text)]
  | .array items => .array (itemsToJson items)
  | .table _ entries => .ofMembers (entriesToJson entries)
  | .tables items => .array (itemsToJson items)

def itemsToJson : List Value → List Json
  | [] => []
  | item :: items => item.toJson :: itemsToJson items

def entriesToJson : List (String × Value) → List (String × Json)
  | [] => []
  | (key, value) :: entries => (key, value.toJson) :: entriesToJson entries

end

end HarvestSearch.Toml
