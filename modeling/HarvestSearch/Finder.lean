/-
Finders: requests that are executed at most once.

A finder holds a request and what has become of its execution. The first access sends the query
document; every later one reads the stored outcome, success or failure. An access may be given up
while the reply is outstanding, and then the next access sends the document again. What was sent so
far is a list that every access takes and returns, so that several finders can share one transport.

`Finder` and `Decoded` are `gleaner_search::finder::Finder` and `gleaner_search::finder::Decoded`,
`Finder.access` is `Finder::decoded` with its `execute`, and `Finder.call` any of `count`, `facets`,
`to_a` and `decoded`. A `Transport` is a `gleaner_search::SearchTransport`, and `SearchService` is
`gleaner_search::SearchService`.
-/
import HarvestSearch.Document
import HarvestSearch.Facet
import HarvestSearch.Page
import HarvestSearch.SearchError

set_option autoImplicit false

namespace HarvestSearch

/-! ## The transport -/

/-- What becomes of one document that was sent. -/
inductive Delivery where
  -- the engine answered
  | answered (reply : Json)
  -- the document or its answer was lost
  | failed (detail : String)
  -- there was no answer before the caller gave up
  | pending
deriving Inhabited

/-- What becomes of a document, when so many were sent before it. -/
abbrev Transport := Nat → Json → Delivery

/-- All that searches need besides a request. -/
structure SearchService where
  settings : Settings
  catalog : Catalog
  transport : Transport

/-! ## Results -/

/-- Everything that is read from one reply. -/
structure Decoded where
  count : UInt64
  facets : List Facet
  page : Page
deriving DecidableEq, Repr, Inhabited

namespace Decoded

/-- Reads a reply: facets only when the request asks for them, no page when its limit is zero. -/
def ofReply (catalog : Catalog) (r : Request) (reply : Json) : Except SearchError Decoded :=
  match Reply.engineError? reply with
  | some detail => .error (.engine detail)
  | none =>
    .ok {
      count := Reply.totalHits reply
      facets := if r.aggregations then Facet.assemble reply catalog.registry catalog.services else []
      page := if r.limit = some 0 then Page.empty else Page.ofReply reply catalog.registry }

/-- The items of the page, unless a hit could not be decoded. -/
def items (d : Decoded) : Except SearchError (List Item) :=
  match d.page.rejected with
  | hit :: _ => .error (.invalidDocument hit.message)
  | [] => .ok d.page.items

def toJson (d : Decoded) : Json :=
  .object [
    ("count", .ofUInt64 d.count),
    ("facets", .array (d.facets.map Facet.toJson)),
    ("page", d.page.toJson)]

end Decoded

/-! ## Executions -/

/-- How far the execution of a request has come. -/
inductive Execution where
  | unexecuted
  -- an access was given up while the reply was outstanding
  | executing
  | executed (decoded : Decoded)
  | failed (error : SearchError)
deriving DecidableEq, Repr, Inhabited

namespace Execution

def isDone : Execution → Bool
  | .unexecuted => false
  | .executing => false
  | .executed _ => true
  | .failed _ => true

/-- The stored outcome. Without one there is only the failure to complete. -/
def outcome : Execution → Except SearchError Decoded
  | .executed decoded => .ok decoded
  | .failed error => .error error
  | .unexecuted => .error (.transport "Search execution did not complete.")
  | .executing => .error (.transport "Search execution did not complete.")

/-- The execution with an outcome. -/
def ofOutcome : Except SearchError Decoded → Execution
  | .ok decoded => .executed decoded
  | .error error => .failed error

def stateWord : Execution → String
  | .unexecuted => "Unexecuted"
  | .executing => "Executing"
  | .executed _ => "Executed"
  | .failed _ => "Failed"

/-- What a delivery makes of an execution. -/
def ofDelivery (catalog : Catalog) (r : Request) : Delivery → Execution
  | .answered reply => ofOutcome (Decoded.ofReply catalog r reply)
  | .failed detail => .failed (.transport detail)
  | .pending => .executing

end Execution

/-! ## Finders -/

/-- A request and what has become of its execution. -/
structure Finder where
  request : Request
  execution : Execution
deriving DecidableEq

/-- What is asked of a finder. -/
inductive Accessor where
  | count
  | facets
  | items
  | decoded
deriving DecidableEq, Repr, Inhabited

/-- What an accessor returns. -/
inductive Answer where
  | count (count : UInt64)
  | facets (facets : List Facet)
  | items (items : List Item)
  | decoded (decoded : Decoded)
deriving DecidableEq, Repr, Inhabited

/-- The part of the outcome that an accessor returns. Only the items insist on a page without
rejected hits. -/
def Accessor.read (d : Decoded) : Accessor → Except SearchError Answer
  | .count => .ok (.count d.count)
  | .facets => .ok (.facets d.facets)
  | .items => d.items.map .items
  | .decoded => .ok (.decoded d)

/-- A finder after an access, all that was sent by then, and the answer unless the access was given
up. -/
structure Access (α : Type) where
  finder : Finder
  sent : List Json
  answer : Option (Except SearchError α)

namespace Finder

/-- A finder that has done nothing yet. -/
def new (r : Request) : Finder := ⟨r, .unexecuted⟩

/-- The document that the finder sends. -/
def queryDocument (service : SearchService) (f : Finder) : Json :=
  (Document.build service.settings service.catalog f.request).toJson

/-- The outcome, for which the document is sent unless the outcome is stored. -/
def access (service : SearchService) (sent : List Json) (f : Finder) : Access Decoded :=
  if f.execution.isDone then ⟨f, sent, some f.execution.outcome⟩
  else
    let document := f.queryDocument service
    let delivery := service.transport sent.length document
    let execution := Execution.ofDelivery service.catalog f.request delivery
    { finder := { f with execution := execution }
      sent := sent ++ [document]
      answer := if execution.isDone then some execution.outcome else none }

/-- The part of the outcome that an accessor returns. -/
def call (service : SearchService) (sent : List Json) (f : Finder) (accessor : Accessor) :
    Access Answer :=
  let access := f.access service sent
  { finder := access.finder
    sent := access.sent
    answer := access.answer.map fun outcome => outcome.bind fun d => accessor.read d }

end Finder

/-! ## Written form -/

def Answer.toJson : Answer → Json
  | .count n => .ofUInt64 n
  | .facets list => .array (list.map Facet.toJson)
  | .items list => .array (list.map Item.toJson)
  | .decoded d => d.toJson

end HarvestSearch
