/-
What stands where in a written query document.

A document is written from its members in one go (`gleaner_search::query::QueryBuilder::build`), and
the ones without content are left out. Two of its places matter to whoever reads it: the conditions
on the documents to be found, deep inside the scored query, and the names under which counts are
asked for. `boolQuery?` and `requestedFields` read them off the JSON alone, and for every written
document they give back what it was written from.
-/
import HarvestSearch.Document

set_option autoImplicit false

namespace HarvestSearch.Document

/-- The conditions of a document: the query inside its scored query. -/
def boolQuery? (document : Json) : Option Json := do
  let scored ← document.get? "query"
  let score ← scored.get? "function_score"
  score.get? "query"

/-- The names under which a document asks for counts: the members of its aggregations. -/
def requestedFields (document : Json) : List String :=
  match (document.get? "aggregations").bind Json.asObject? with
  | some members => members.map (·.1)
  | none => []

/-! ## Members that may be left out -/

theorem ne_of_mem_listMember {key other : String} (hne : key ≠ other) {items : List Json}
    {e : String × Json} (he : e ∈ Json.listMember key items) : e.1 ≠ other := by
  rw [(Json.mem_listMember.1 he).2]
  exact hne

theorem ne_of_mem_optionMember {key other : String} (hne : key ≠ other) {value : Option Json}
    {e : String × Json} (he : e ∈ Json.optionMember key value) : e.1 ≠ other := by
  obtain ⟨v, -, rfl⟩ := Json.mem_optionMember.1 he
  exact hne

/-! ## The members of a written document -/

/-- The aggregations as they are written. -/
def aggregationsJson (d : Document) : Json :=
  .object (d.aggregations.entries.map fun (key, a) => (key, a.toJson))

/-- Aggregations stand under their name, if there are any. -/
theorem ne_of_mem_counts (d : Document) {key : String} (hne : "aggregations" ≠ key) :
    ∀ e ∈ (if d.aggregations.isEmpty then [] else [("aggregations", d.aggregationsJson)]),
      e.1 ≠ key := by
  by_cases hempty : d.aggregations.isEmpty = true
  · rw [if_pos hempty]
    exact fun e he => absurd he List.not_mem_nil
  · rw [if_neg hempty]
    exact List.forall_mem_singleton.2 hne

/-- The sort clauses and the window come last and do not hide the query or the aggregations. -/
theorem get?_toJson_of_ne (d : Document) {key : String} (hsort : "sort" ≠ key)
    (hfrom : "from" ≠ key) (hsize : "size" ≠ key) :
    d.toJson.get? key = (Json.ofMembers (("query", d.query.toJson)
      :: if d.aggregations.isEmpty then [] else [("aggregations", d.aggregationsJson)])).get? key := by
  unfold toJson
  rw [Json.get?_ofMembers_append _ fun e he => ne_of_mem_optionMember hsize he,
    Json.get?_ofMembers_append _ fun e he => ne_of_mem_optionMember hfrom he,
    Json.get?_ofMembers_append _ fun e he => ne_of_mem_listMember hsort he]
  rfl

/-- The aggregations are written when there are any. -/
theorem get?_aggregations (d : Document) :
    d.toJson.get? "aggregations"
      = if d.aggregations.isEmpty then none else some d.aggregationsJson := by
  rw [get?_toJson_of_ne d (by decide) (by decide) (by decide)]
  by_cases hempty : d.aggregations.isEmpty = true
  · rw [if_pos hempty, if_pos hempty]
    rfl
  · rw [if_neg hempty, if_neg hempty]
    exact Json.get?_ofMembers_concat _ _ [("query", d.query.toJson)]

/-- The scored query is always written. -/
theorem get?_query (d : Document) : d.toJson.get? "query" = some d.query.toJson := by
  rw [get?_toJson_of_ne d (by decide) (by decide) (by decide)]
  exact Json.get?_ofMembers_cons _ (d.ne_of_mem_counts (by decide))

/-- The query inside a scored query is always written. -/
theorem get?_scored_query (q : ScoredQuery) :
    (q.toJson.get? "function_score").bind (Json.get? "query") = some q.query.toJson := by
  unfold ScoredQuery.toJson
  rw [Json.get?_ofMembers_singleton, Option.bind_some, Json.get?_ofMembers_append]
  · exact Json.get?_ofMembers_cons _ fun e he => ne_of_mem_listMember (by decide) he
  · simp

/-! ## Reading a written document -/

/-- The conditions that are read off a written document are those of the document. -/
theorem boolQuery?_toJson (d : Document) : boolQuery? d.toJson = some d.query.query.toJson := by
  unfold boolQuery?
  rw [get?_query]
  exact get?_scored_query d.query

/-- The names read off a written document are those of its aggregations. -/
theorem requestedFields_toJson (d : Document) :
    requestedFields d.toJson = d.aggregations.keys := by
  unfold requestedFields
  rw [get?_aggregations]
  by_cases hempty : d.aggregations.isEmpty = true
  · rw [if_pos hempty]
    unfold FieldMap.keys
    rw [List.isEmpty_iff.1 hempty]
    rfl
  · rw [if_neg hempty]
    show (d.aggregations.entries.map fun (key, a) => (key, a.toJson)).map (·.1) = _
    rw [List.map_map]
    rfl

end HarvestSearch.Document
