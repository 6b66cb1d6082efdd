/-
The engine's reply to a query document, as far as it is looked at.

A reply is any JSON value: what is missing or of another kind counts as absent, so reading a reply
never fails. `engineError?` tells whether the reply reports a failure instead of a result.

The four functions are `engine_error`, `total_hits`, `hits` and `buckets` of
`gleaner_search::response`.
-/
import HarvestSearch.Json.Printer

set_option autoImplicit false

namespace HarvestSearch.Reply

def engineError? (reply : Json) : Option String :=
  match reply.get? "error" with
  | none => none
  | some .null => none
  | some (.string text) => some text
  | some payload =>
    match (payload.get? "type").bind Json.asString?, (payload.get? "reason").bind Json.asString? with
    | some kind, some reason => some (kind ++ ": " ++ reason)
    | _, _ => some payload.compact

/-- The number of matches: a bare number, or a number under `value`, else zero. -/
def totalHits (reply : Json) : UInt64 :=
  match (reply.get? "hits").bind (Json.get? "total") with
  | none => 0
  | some total => (total.asUInt64? <|> (total.get? "value").bind Json.asUInt64?).getD 0

/-- The documents of the page, in order. -/
def hits (reply : Json) : List Json :=
  (((reply.get? "hits").bind (Json.get? "hits")).bind Json.asArray?).getD []

/-- The buckets counted for a field, if the reply has any list of them. -/
def buckets? (reply : Json) (field : String) : Option (List Json) := do
  let aggregations ← reply.get? "aggregations"
  let counted ← aggregations.get? field
  let list ← counted.get? "buckets"
  list.asArray?

end HarvestSearch.Reply
