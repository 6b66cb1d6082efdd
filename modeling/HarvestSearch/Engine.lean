/-
The search engine behind HTTP.

A document is posted to the search endpoint of one index. The reply is a result when its status says
so, or when its body carries a report of a failure, which is then told in the engine's own words; any
other reply is an error of its own.

`Engine` is `gleaner_transport::search::EngineClient`, `Engine.readReply` is
`gleaner_transport::search::parse_search_response`, and `SearchService.ofConfig` is
`gleaner_search::SearchService::new`.
-/
import HarvestSearch.Finder
import HarvestSearch.Http.Header
import HarvestSearch.Json.Parser

set_option autoImplicit false

namespace HarvestSearch

/-! ## Requests and replies -/

/-- A request over HTTP. -/
structure Http.Request where
  method : String
  url : String
  headers : Http.Headers
  body : Json

/-- A reply over HTTP. -/
structure Http.Reply where
  status : Nat
  text : String
deriving DecidableEq, Repr, Inhabited

/-- What becomes of a request: a reply, or the reason why there is none. -/
abbrev Http.Connection := Http.Request → Except String Http.Reply

/-- Why the engine gives no result. -/
inductive EngineError where
  -- there was no reply
  | connection (detail : String)
  -- the reply reports success but is no JSON
  | malformedReply
  -- the header of the requests cannot be made
  | header (fault : Http.HeaderFault)
  -- the reply reports failure
  | status (code : Nat) (body : String)
deriving DecidableEq, Repr, Inhabited

def EngineError.message : EngineError → String
  | .connection detail => detail
  | .malformedReply => "the reply is not a JSON value"
  | .header fault => fault.message
  | .status code body =>
    "Search engine responded with HTTP " ++ Json.intText code ++ ": " ++ body

/-! ## The engine -/

/-- Where documents are posted and with which header. -/
structure Engine where
  url : String
  headers : Http.Headers

namespace Engine

/-- The search endpoint of an index. Slashes at the end of the engine's address do not count. -/
def searchUrl (base index : String) : String :=
  Text.dropTrailingSlashes base ++ "/" ++ index ++ "/_search"

/-- The engine of a configuration. -/
def ofConfig (c : EngineConfig) : Except EngineError Engine := do
  let headers ← (Http.engineHeaders c.apiKey c.defaultHeaders).mapError EngineError.header
  pure ⟨searchUrl c.url c.index, headers⟩

/-- The request that posts a document. -/
def request (e : Engine) (document : Json) : Http.Request := ⟨"POST", e.url, e.headers, document⟩

/-- The status reports success. -/
def isSuccess (status : Nat) : Bool := 200 ≤ status && status < 300

/-- Reads a reply. A body with a member `error` is let through at every status. -/
def readReply (reply : Http.Reply) : Except EngineError Json :=
  match Json.parse? reply.text with
  | some json =>
    if isSuccess reply.status || (json.get? "error").isSome then .ok json
    else .error (.status reply.status reply.text)
  | none =>
    if isSuccess reply.status then .error .malformedReply
    else .error (.status reply.status reply.text)

/-- Posts a document and reads the reply. -/
def search (connection : Http.Connection) (e : Engine) (document : Json) :
    Except EngineError Json :=
  match connection (e.request document) with
  | .error detail => .error (.connection detail)
  | .ok reply => readReply reply

/-- What becomes of a document that is posted. -/
def deliver (connection : Http.Connection) (e : Engine) : Transport := fun _ document =>
  match e.search connection document with
  | .ok reply => .answered reply
  | .error error => .failed error.message

end Engine

/-- The service that searches the configured engine. -/
def SearchService.ofConfig (connection : Http.Connection) (c : Config) (catalog : Catalog) :
    Except SearchError SearchService := do
  let engine ← (Engine.ofConfig c.engine).mapError fun error => SearchError.transport error.message
  pure ⟨.ofConfig c, catalog, engine.deliver connection⟩

end HarvestSearch
