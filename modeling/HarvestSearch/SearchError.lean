/-
Why a search has no result.

`SearchError` is `gleaner_search::Error`, and `SearchError.ofDomainError` is its `from` for a
`gleaner_domain::Error`.
-/
import HarvestSearch.DomainError

set_option autoImplicit false

namespace HarvestSearch

/-- The cause for which a search has no result. -/
inductive SearchError where
  -- the engine was not reached, or its reply was not understood
  | transport (detail : String)
  -- the engine reported a failure
  | engine (detail : String)
  -- a document of the result could not be decoded
  | invalidDocument (detail : String)
  -- the catalog was refused
  | catalog (detail : String)
deriving DecidableEq, Repr, Inhabited

namespace SearchError

def message : SearchError → String
  | .transport detail => "Transport error: " ++ detail
  | .engine detail => "Search engine error: " ++ detail
  | .invalidDocument detail => "Invalid document: " ++ detail
  | .catalog detail => "Invalid catalog: " ++ detail

/-- The failure lies with the engine or the way to it. -/
def isIo : SearchError → Bool
  | .transport _ => true
  | .engine _ => true
  | .invalidDocument _ => false
  | .catalog _ => false

/-- A refused document stays one; all other causes concern the catalog. -/
def ofDomainError : DomainError → SearchError
  | .invalidDocument reason => .invalidDocument reason
  | error => .catalog error.message

end SearchError

end HarvestSearch
