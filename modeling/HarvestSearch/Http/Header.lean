/-
The header of a request to the search engine.

The content type comes first, then the key of the engine if there is one, then the configured headers
in the order of their names. Names do not depend on case and are kept small; a later header replaces
an earlier one of its name. The header is refused at the first value that is not a string, name that
is no token or value with a control character.

`Http.engineHeaders` is `gleaner_transport::auth_headers`.
-/
import HarvestSearch.Json.Basic

set_option autoImplicit false

namespace HarvestSearch.Http

inductive HeaderFault where
  | valueNotString
  | invalidName
  | invalidValue
deriving DecidableEq, Repr, Inhabited

def HeaderFault.message : HeaderFault → String
  | .valueNotString => "Default header values must be strings."
  | .invalidName => "invalid HTTP header name"
  | .invalidValue => "failed to parse header value"

/-- The headers of a request by their names in small letters. -/
abbrev Headers := FieldMap String

/-! ## Names and values -/

/-- The characters, besides letters and digits, that a token may hold. -/
def tokenMarks : List Char := "!#$%&'*+-.^_`|~".toList

/-- A character that a token may hold. -/
def isTokenChar (c : Char) : Bool := c.isAlphanum || c ∈ tokenMarks

/-- The length of the longest name. -/
def maxNameLength : Nat := 65535

/-- A name is a token that is not too long. -/
def isName (name : String) : Bool :=
  let cs := name.toList
  !cs.isEmpty && cs.length ≤ maxNameLength && cs.all isTokenChar

/-- The name in small letters, if it is one. -/
def parseName (name : String) : Except HeaderFault String :=
  if isName name then .ok (String.ofList (name.toList.map Char.toLower)) else .error .invalidName

/-- A character that a value may hold: all but control characters, of which only the tab may
occur. -/
def isValueChar (c : Char) : Bool := (32 ≤ c.toNat && c.toNat != 127) || c == '\t'

/-- The value, if it is one. -/
def parseValue (value : String) : Except HeaderFault String :=
  if value.toList.all isValueChar then .ok value else .error .invalidValue

/-! ## The header -/

/-- The header with one more configured entry. -/
def addHeader (headers : Headers) (name : String) (value : Json) : Except HeaderFault Headers := do
  let some text := value.asString? | throw .valueNotString
  let name ← parseName name
  let text ← parseValue text
  pure (headers.insert name text)

/-- The header with all configured entries, in the order of their names. -/
def addHeaders (headers : Headers) : List (String × Json) → Except HeaderFault Headers
  | [] => .ok headers
  | (name, value) :: rest => do addHeaders (← addHeader headers name value) rest

/-- The header that every request starts from. -/
def baseHeaders : Headers := FieldMap.empty.insert "content-type" "application/json"

/-- The header with the key of the engine. -/
def addKey (headers : Headers) : Option String → Except HeaderFault Headers
  | none => .ok headers
  | some key => do pure (headers.insert "authorization" (← parseValue ("ApiKey " ++ key)))

/-- The header of requests to an engine with this key and these configured headers. -/
def engineHeaders (apiKey : Option String) (defaults : FieldMap Json) :
    Except HeaderFault Headers := do
  addHeaders (← addKey baseHeaders apiKey) defaults.entries

end HarvestSearch.Http
