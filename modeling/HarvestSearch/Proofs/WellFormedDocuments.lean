/-
What every written document looks like to an engine.

An engine refuses a document for one empty list of conditions or one condition that names no values,
so it is not enough that the parts of a document are right where there is something to say: the
parts with nothing to say must be left out by `gleaner_search::query::QueryBuilder::build`, for
every request. `Document.WellFormed` says what an engine expects of the JSON, without a word about
requests, and `Document.build_wellFormed` that every document is of this kind and from what content
each of its optional parts comes.

Four of the optional parts are lists that are written in the same way, so one fact about such a
member (`Json.get?_listMember_eq_some_iff`) tells both when it is there and that it is not empty. The
other source of emptiness is a filter with an empty list of values, and it is no condition at all:
`BoolQuery.filterClauses_erase` says that leaving the filter out changes nothing.
-/
import HarvestSearch.Proofs.CountedFacets
import HarvestSearch.Proofs.QueryMeaning

set_option autoImplicit false

namespace HarvestSearch

/-! ## What an engine expects -/

/-- A condition on the text of a document: none at all, or the words of an expression. -/
inductive TextCondition : Json → Prop where
  | all : TextCondition (.object [("match_all", .object [])])
  | words (expression field : String) :
    TextCondition (.object [("query_string", .ofMembers [
      ("query", .string expression), ("default_field", .string field),
      ("default_operator", .string "AND"), ("lenient", .bool true)])])

/-- A condition on the values of one field. Where it names values to choose from, there are some. -/
inductive FieldCondition : Json → Prop where
  | term (field value : String) :
    FieldCondition (.object [("term", .object [(field, .string value)])])
  | terms (field : String) {values : List String} (h : values ≠ []) :
    FieldCondition (.object [("terms", .object [(field, .array (values.map .string))])])
  | hasValue (field : String) :
    FieldCondition (.object [("exists", .object [("field", .string field)])])

/-- A weight for documents with a value in a field. -/
inductive FieldWeight : Json → Prop where
  | term (field value : String) (weight : Int) :
    FieldWeight (.object [
      ("filter", .object [("term", .object [(field, .string value)])]), ("weight", .int weight)])

/-- A direction for one field to sort by. The type that counts where the field is missing is told
exactly if the field is not the rank of a match. -/
structure SortClause (clause : Json) : Prop where
  shape : ∃ field options, clause = .object [(field, options)] ∧
    (∃ direction : SortDirection, options.get? "order" = some (.string direction.word)) ∧
    ((options.get? "unmapped_type").isSome = true ↔ field ≠ "_score")

namespace Document

/-- The section of the conditions of a document. -/
def clauses? (name : String) (document : Json) : Option Json :=
  ((boolQuery? document).bind (Json.get? "bool")).bind (Json.get? name)

/-- The weights of a document. -/
def functions? (document : Json) : Option Json :=
  ((document.get? "query").bind (Json.get? "function_score")).bind (Json.get? "functions")

/-- The value is a list with at least one item, and all of its items are of a kind. -/
def IsListOf (kind : Json → Prop) (value : Json) : Prop :=
  ∃ items, value = .array items ∧ items ≠ [] ∧ ∀ item ∈ items, kind item

/-- **What an engine expects of a document.** Sections, weights, aggregations and sort clauses may be
left out, but they are not empty. -/
structure WellFormed (document : Json) : Prop where
  members : ∃ members, document = .object members ∧ (members.map (·.1)).Nodup ∧
    ∀ e ∈ members, e.1 ∈ ["query", "aggregations", "sort", "from", "size"]
  must : ∃ condition, clauses? "must" document = some (.array [condition]) ∧
    TextCondition condition
  filter : ∀ conditions, clauses? "filter" document = some conditions →
    IsListOf FieldCondition conditions
  mustNot : ∀ conditions, clauses? "must_not" document = some conditions →
    IsListOf FieldCondition conditions
  functions : ∀ weights, functions? document = some weights → IsListOf FieldWeight weights
  aggregations : ∀ counts, document.get? "aggregations" = some counts →
    ∃ members, counts = .object members ∧ members ≠ []
  sort : ∀ clauses, document.get? "sort" = some clauses → IsListOf SortClause clauses

end Document

/-! ## The conditions of a request -/

namespace BoolQuery

/-- Filters make no condition exactly if all of them are empty lists. -/
theorem filterClauses_eq_nil_iff {filters : FilterMap} : filterClauses filters = [] ↔
    ∀ field value, filters.get? field = some value → value = .many [] := by
  have hnone : filterClauses filters = [] ↔ ∀ c ∈ filterClauses filters, False :=
    List.eq_nil_iff_forall_not_mem
  rw [hnone, forall_filterClauses]
  exact forall₃_congr fun _ _ _ => not_not

theorem variantClause_eq_nil_iff {variants : NameSet} :
    variantClause variants = [] ↔ variants.names = [] := by
  have hnone : variantClause variants = [] ↔ ∀ c ∈ variantClause variants, False :=
    List.eq_nil_iff_forall_not_mem
  rw [hnone, forall_variantClause, or_false]

/-- A set of variants that is not empty makes one condition. -/
theorem variantClause_of_ne_nil {variants : NameSet} (h : variants.names ≠ []) :
    variantClause variants = [.terms Field.variant variants.names] := by
  have hempty : ¬variants.isEmpty = true := by
    intro hempty
    refine h ?_
    unfold NameSet.names FieldMap.keys
    rw [List.isEmpty_iff.1 hempty]
    rfl
  unfold variantClause
  exact if_neg hempty

theorem textCondition_textClause (query : Option TextQuery) :
    TextCondition (textClause query).toJson := by
  cases query with
  | none => exact .all
  | some query => exact .words (QueryText.expression query.text) query.field

theorem fieldCondition_of_mem_filterClauses {filters : FilterMap} :
    ∀ c ∈ filterClauses filters, FieldCondition c.toJson := by
  refine forall_filterClauses.2 fun field value _ hvalue => ?_
  cases value with
  | one value => exact .term field value
  | many values => exact .terms field fun hnil => hvalue (congrArg FilterValue.many hnil)

theorem fieldCondition_of_mem_variantClause {variants : NameSet} :
    ∀ c ∈ variantClause variants, FieldCondition c.toJson := by
  refine forall_variantClause.2 ?_
  by_cases hnil : variants.names = []
  · exact .inl hnil
  · exact .inr (.terms Field.variant hnil)

theorem fieldCondition_of_mem_filter (r : Request) :
    ∀ c ∈ (ofRequest r).filter, FieldCondition c.toJson := by
  unfold ofRequest
  rw [List.forall_mem_append, List.forall_mem_append]
  refine ⟨⟨fieldCondition_of_mem_filterClauses, ?_⟩, fieldCondition_of_mem_variantClause⟩
  cases r.contentService with
  | none => exact fun c hc => absurd hc List.not_mem_nil
  | some key => exact List.forall_mem_singleton.2 (.term Field.serviceKey key)

theorem fieldCondition_of_mem_mustNot (r : Request) :
    ∀ c ∈ (ofRequest r).mustNot, FieldCondition c.toJson := by
  unfold ofRequest
  rw [List.forall_mem_append, List.forall_mem_append]
  refine ⟨⟨fieldCondition_of_mem_filterClauses, fieldCondition_of_mem_variantClause⟩, ?_⟩
  by_cases hchildren : r.includeChildren = true
  · rw [if_pos hchildren]
    exact fun c hc => absurd hc List.not_mem_nil
  · rw [if_neg hchildren]
    exact List.forall_mem_singleton.2 (.hasValue Field.parentId)

/-- There is something to filter by when a filter is no empty list, a content service is set or
variants are kept. -/
theorem filter_ne_nil_iff (r : Request) : (ofRequest r).filter ≠ [] ↔
    (∃ field value, r.filters.get? field = some value ∧ value ≠ .many []) ∨
      r.contentService ≠ none ∨ r.includeVariants.names ≠ [] := by
  unfold ofRequest
  rw [Ne, List.append_eq_nil_iff, List.append_eq_nil_iff, filterClauses_eq_nil_iff,
    variantClause_eq_nil_iff]
  cases r.contentService with
  | none => grind
  | some key => grind

/-- There is something to exclude when an exclusion is no empty list, variants are dropped or
children are left out. -/
theorem mustNot_ne_nil_iff (r : Request) : (ofRequest r).mustNot ≠ [] ↔
    (∃ field value, r.excludes.get? field = some value ∧ value ≠ .many []) ∨
      r.excludeVariants.names ≠ [] ∨ r.includeChildren = false := by
  have hchildren : (if r.includeChildren = true then [] else [Clause.hasValue Field.parentId]) = []
      ↔ r.includeChildren = true := by
    by_cases h : r.includeChildren = true
    · exact iff_of_true (if_pos h) h
    · rw [if_neg h]
      exact iff_of_false (List.cons_ne_nil _ _) h
  unfold ofRequest
  rw [Ne, List.append_eq_nil_iff, List.append_eq_nil_iff, filterClauses_eq_nil_iff, hchildren,
    variantClause_eq_nil_iff]
  grind

/-- A filter with an empty list of values makes no condition. -/
theorem filterClauses_erase {filters : FilterMap} {field : String}
    (h : filters.get? field = some (.many [])) :
    filterClauses (filters.erase field) = filterClauses filters := by
  unfold filterClauses FieldMap.erase
  rw [List.filterMap_filter]
  refine List.filterMap_congr fun e he => ?_
  by_cases hfield : e.1 = field
  · -- this is the entry of the field, so its list is the empty one
    have hget : filters.get? e.1 = some e.2 := FieldMap.mem_entries_iff.1 he
    rw [hfield, h] at hget
    obtain ⟨name, value⟩ := e
    cases hget
    simp
  · simp [hfield]

end BoolQuery

/-! ## The written parts -/

namespace Document

variable (d : Document)

/-- The weights, and each of the two sections after the first, are written if there are any. -/
theorem clauses?_toJson (name : String) :
    clauses? name d.toJson = (Json.ofMembers d.query.query.sections).get? name := by
  unfold clauses?
  rw [boolQuery?_toJson, Option.bind_some]
  have hbool : d.query.query.toJson.get? "bool" = some (.ofMembers d.query.query.sections) :=
    Json.get?_ofMembers_singleton "bool" _
  rw [hbool, Option.bind_some]

theorem clauses?_filter_eq_some_iff {conditions : Json} :
    clauses? "filter" d.toJson = some conditions ↔ d.query.query.filter ≠ [] ∧
      conditions = .array (d.query.query.filter.map Clause.toJson) := by
  rw [clauses?_toJson]
  refine (@Json.get?_listMember_eq_some_iff _ _ [_] _ ?_ ?_ _).trans ?_
  · exact List.forall_mem_singleton.2 (show "must" ≠ "filter" by decide)
  · exact fun e he => ne_of_mem_listMember (by decide) he
  · rw [Ne, List.map_eq_nil_iff]

theorem clauses?_mustNot_eq_some_iff {conditions : Json} :
    clauses? "must_not" d.toJson = some conditions ↔ d.query.query.mustNot ≠ [] ∧
      conditions = .array (d.query.query.mustNot.map Clause.toJson) := by
  rw [clauses?_toJson]
  have hsections : d.query.query.sections
      = (("must", .array (d.query.query.must.map Clause.toJson))
          :: Json.listMember "filter" (d.query.query.filter.map Clause.toJson))
        ++ Json.listMember "must_not" (d.query.query.mustNot.map Clause.toJson) ++ [] :=
    (List.append_nil _).symm
  rw [hsections, Json.get?_listMember_eq_some_iff, Ne, List.map_eq_nil_iff]
  · refine List.forall_mem_cons.2 ⟨show "must" ≠ "must_not" by decide, fun e he => ?_⟩
    exact ne_of_mem_listMember (by decide) he
  · exact fun e he => absurd he List.not_mem_nil

theorem functions?_eq_some_iff {weights : Json} :
    functions? d.toJson = some weights ↔ d.query.functions ≠ [] ∧
      weights = .array (d.query.functions.map ScoreFunction.toJson) := by
  unfold functions?
  rw [get?_query, Option.bind_some]
  unfold ScoredQuery.toJson
  rw [Json.get?_ofMembers_singleton, Option.bind_some]
  refine (@Json.get?_listMember_eq_some_iff _ _ [_] _ ?_ ?_ _).trans ?_
  · exact List.forall_mem_singleton.2 (show "query" ≠ "functions" by decide)
  · simp
  · rw [Ne, List.map_eq_nil_iff]

/-- Only two members stand before the sort clauses. -/
theorem name_of_mem_front {e : String × Json} (he : e ∈ ("query", d.query.toJson)
    :: (if d.aggregations.isEmpty then [] else [("aggregations", d.aggregationsJson)])) :
    e.1 = "query" ∨ e.1 = "aggregations" := by
  rcases List.mem_cons.1 he with rfl | he
  · exact .inl rfl
  · by_cases hempty : d.aggregations.isEmpty = true
    · rw [if_pos hempty] at he
      exact absurd he List.not_mem_nil
    · rw [if_neg hempty] at he
      rw [List.mem_singleton.1 he]
      exact .inr rfl

theorem get?_sort_eq_some_iff {clauses : Json} :
    d.toJson.get? "sort" = some clauses ↔ d.sort ≠ [] ∧
      clauses = .array (d.sort.map SortOrder.toClause) := by
  have hquery : "query" ≠ "sort" := by decide
  have haggregations : "aggregations" ≠ "sort" := by decide
  unfold toJson
  rw [List.append_assoc]
  refine (Json.get?_listMember_eq_some_iff (fun e he => ?_) fun e he => ?_).trans ?_
  · rcases d.name_of_mem_front he with h | h
    · exact h ▸ hquery
    · exact h ▸ haggregations
  · rcases List.mem_append.1 he with he | he
    · exact ne_of_mem_optionMember (by decide) he
    · exact ne_of_mem_optionMember (by decide) he
  · rw [Ne, List.map_eq_nil_iff]

/-- A document has no members but the five, and none of them twice. -/
theorem names_toJson : ∃ members, d.toJson = .object members ∧ (members.map (·.1)).Nodup ∧
    ∀ e ∈ members, e.1 ∈ ["query", "aggregations", "sort", "from", "size"] := by
  refine ⟨_, rfl, FieldMap.nodup_of_sorted (FieldMap.sorted _), fun e he => ?_⟩
  obtain ⟨member, hmember, hname⟩ :=
    List.mem_map.1 (FieldMap.mem_keys_ofList.1 (List.mem_map_of_mem he))
  rw [← hname]
  rcases List.mem_append.1 hmember with hmember | hsize
  · rcases List.mem_append.1 hmember with hmember | hfrom
    · rcases List.mem_append.1 hmember with hfront | hsort
      · rcases d.name_of_mem_front hfront with h | h
        · simp [h]
        · simp [h]
      · simp [(Json.mem_listMember.1 hsort).2]
    · obtain ⟨value, -, rfl⟩ := Json.mem_optionMember.1 hfrom
      simp
  · obtain ⟨value, -, rfl⟩ := Json.mem_optionMember.1 hsize
    simp

variable {d}

/-- A member that is a list of things of one kind is as an engine expects it. -/
theorem isListOf_map {α : Type} {kind : Json → Prop} {toJson : α → Json} {items : List α}
    {value : Json} (hne : items ≠ []) (hvalue : value = .array (items.map toJson))
    (h : ∀ item ∈ items, kind (toJson item)) : IsListOf kind value := by
  refine ⟨_, hvalue, fun hnil => hne (List.map_eq_nil_iff.1 hnil), ?_⟩
  exact List.forall_mem_map.2 h

end Document

/-- The sort clause of an order. -/
theorem SortOrder.sortClause_toClause (order : SortOrder) : SortClause order.toClause where
  shape := by
    have hclause : order.toClause = .object [(order.field, .ofMembers (
        if order.field = Field.score then [("order", .string order.direction.word)]
        else [("order", .string order.direction.word), ("unmapped_type", .string "keyword")]))] :=
      rfl
    by_cases hscore : order.field = Field.score
    · rw [if_pos hscore] at hclause
      refine ⟨order.field, _, hclause, ⟨order.direction, rfl⟩, ?_⟩
      exact iff_of_false Bool.false_ne_true fun hne => hne hscore
    · have hlt : "order" < "unmapped_type" := by decide
      rw [if_neg hscore, Json.ofMembers_of_sorted (List.pairwise_pair.2 hlt)] at hclause
      exact ⟨order.field, _, hclause, ⟨order.direction, rfl⟩, iff_of_true rfl hscore⟩

/-- The weight of a boost. -/
theorem ScoreFunction.fieldWeight_of_mem_ofBoosts {boosts : BoostTable} :
    ∀ f ∈ ofBoosts boosts, FieldWeight f.toJson := by
  have hlt : "filter" < "weight" := by decide
  unfold ofBoosts
  refine List.forall_mem_map.2 fun b _ => ?_
  unfold toJson
  rw [Json.ofMembers_of_sorted (List.pairwise_pair.2 hlt)]
  exact .term b.field b.value (clampBoost b.strength)

namespace Document

/-- **Every document is as an engine expects it.** -/
theorem wellFormed_build (settings : Settings) (catalog : Catalog) (r : Request) :
    WellFormed (build settings catalog r).toJson where
  members := names_toJson _
  must := by
    refine ⟨(BoolQuery.textClause r.query).toJson, ?_, BoolQuery.textCondition_textClause r.query⟩
    rw [clauses?, boolQuery?_toJson]
    exact BoolQuery.get?_must (BoolQuery.ofRequest r)
  filter conditions h := by
    obtain ⟨hne, hconditions⟩ := (clauses?_filter_eq_some_iff _).1 h
    exact isListOf_map hne hconditions (BoolQuery.fieldCondition_of_mem_filter r)
  mustNot conditions h := by
    obtain ⟨hne, hconditions⟩ := (clauses?_mustNot_eq_some_iff _).1 h
    exact isListOf_map hne hconditions (BoolQuery.fieldCondition_of_mem_mustNot r)
  functions weights h := by
    obtain ⟨hne, hweights⟩ := (functions?_eq_some_iff _).1 h
    exact isListOf_map hne hweights ScoreFunction.fieldWeight_of_mem_ofBoosts
  aggregations counts h := by
    rw [get?_aggregations] at h
    by_cases hempty : (build settings catalog r).aggregations.isEmpty = true
    · rw [if_pos hempty] at h
      cases h
    · rw [if_neg hempty] at h
      cases h
      refine ⟨_, rfl, fun hnil => hempty ?_⟩
      exact List.isEmpty_iff.2 (List.map_eq_nil_iff.1 hnil)
  sort clauses h := by
    obtain ⟨hne, hclauses⟩ := (get?_sort_eq_some_iff _).1 h
    exact isListOf_map hne hclauses fun order _ => order.sortClause_toClause

/-! ## Scopes of variants -/

/-- A list of conditions has one that the variant is among the members of a set, named in increasing
order and none of them twice. Behind it stand the conditions given. -/
def Scopes (variants : NameSet) (behind : List Json) (conditions : Json) : Prop :=
  ∃ front names, conditions = .array (front
      ++ .object [("terms", .object [("variant", .array (names.map .string))])] :: behind) ∧
    names.Pairwise (· < ·) ∧ names.Nodup ∧ names ≠ [] ∧
    ∀ name, name ∈ names ↔ variants.get? name = some ()

/-- The condition of a set of variants between other conditions. -/
theorem scopes_variantClause {variants : NameSet} (h : variants.names ≠ []) (front back : List Clause) :
    Scopes variants (back.map Clause.toJson)
      (.array ((front ++ BoolQuery.variantClause variants ++ back).map Clause.toJson)) := by
  refine ⟨front.map Clause.toJson, variants.names, ?_, List.pairwise_map.2 variants.sorted,
    FieldMap.nodup_of_sorted variants.sorted, h, fun name => ?_⟩
  · rw [BoolQuery.variantClause_of_ne_nil h, List.append_assoc, List.map_append]
    rfl
  · exact FieldMap.mem_keys_iff.trans ⟨fun ⟨(), hget⟩ => hget, fun hget => ⟨(), hget⟩⟩

variable {settings : Settings} {catalog : Catalog} {r : Request}

theorem scopes_filter (h : r.includeVariants.names ≠ []) : ∃ conditions,
    clauses? "filter" (build settings catalog r).toJson = some conditions ∧
      Scopes r.includeVariants [] conditions := by
  have hne : (BoolQuery.ofRequest r).filter ≠ [] :=
    (BoolQuery.filter_ne_nil_iff r).2 (.inr (.inr h))
  refine ⟨_, (clauses?_filter_eq_some_iff _).2 ⟨hne, rfl⟩, ?_⟩
  obtain ⟨front, hfilter⟩ : ∃ front,
      (BoolQuery.ofRequest r).filter = front ++ BoolQuery.variantClause r.includeVariants :=
    ⟨_, rfl⟩
  have hscopes := scopes_variantClause h front []
  rw [List.append_nil, ← hfilter] at hscopes
  exact hscopes

/-- The document excludes children behind the variants that it drops. -/
theorem scopes_mustNot (h : r.excludeVariants.names ≠ []) : ∃ conditions,
    clauses? "must_not" (build settings catalog r).toJson = some conditions ∧
      Scopes r.excludeVariants (if r.includeChildren = true then []
        else [.object [("exists", .object [("field", .string "parent_id")])]]) conditions := by
  have hne : (BoolQuery.ofRequest r).mustNot ≠ [] :=
    (BoolQuery.mustNot_ne_nil_iff r).2 (.inr (.inl h))
  refine ⟨_, (clauses?_mustNot_eq_some_iff _).2 ⟨hne, rfl⟩, ?_⟩
  have hscopes := scopes_variantClause h (BoolQuery.filterClauses r.excludes)
    (if r.includeChildren = true then [] else [.hasValue Field.parentId])
  have hbehind : (if r.includeChildren = true then []
      else [Clause.hasValue Field.parentId]).map Clause.toJson = if r.includeChildren = true then []
        else [.object [("exists", .object [("field", .string "parent_id")])]] := by
    split
    · rfl
    · rfl
  rw [hbehind] at hscopes
  exact hscopes

/-! ## The main statement -/

theorem isSome_aggregations_iff :
    ((build settings catalog r).toJson.get? "aggregations").isSome = true ↔ r.aggregations = true ∧
      ∃ e ∈ catalog.registry.elements, e.facetable = true ∧
        ¬(e.isVariant = true ∧ r.constrainsVariants = true) := by
  have haggregations : (build settings catalog r).aggregations
      = Aggregation.ofRequest settings catalog.registry r := rfl
  rw [← Option.ne_none_iff_isSome, Ne, get?_aggregations_eq_none_iff, haggregations]
  by_cases hr : r.aggregations = true
  · rw [Aggregation.entries_ofRequest_eq_nil_iff hr, List.eq_nil_iff_forall_not_mem]
    simp only [Aggregation.mem_requestedElements, not_forall, not_not, hr, true_and]
  · rw [Aggregation.ofRequest, if_neg hr]
    exact iff_of_false (fun h => h rfl) fun h => hr h.1

/-- **Documents are well formed, whatever the request.** For all settings, every catalog and every
request, the written document is as an engine expects it. The sections of conditions besides the
first, the weights, the aggregations and the sort clauses are there exactly if there is something to
put into them. Sets of variants stand in one condition each, their members in increasing order. A
filter or an exclusion with an empty list leaves the document as if there were none for its field. -/
theorem build_wellFormed (settings : Settings) (catalog : Catalog) (r : Request) :
    let document := (build settings catalog r).toJson
    WellFormed document ∧
    ((clauses? "filter" document).isSome = true ↔
      (∃ field value, r.filters.get? field = some value ∧ value ≠ .many []) ∨
        r.contentService ≠ none ∨ r.includeVariants.names ≠ []) ∧
    ((clauses? "must_not" document).isSome = true ↔
      (∃ field value, r.excludes.get? field = some value ∧ value ≠ .many []) ∨
        r.excludeVariants.names ≠ [] ∨ r.includeChildren = false) ∧
    ((functions? document).isSome = true ↔ catalog.boosts.boosts ≠ []) ∧
    ((document.get? "aggregations").isSome = true ↔ r.aggregations = true ∧
      ∃ e ∈ catalog.registry.elements, e.facetable = true ∧
        ¬(e.isVariant = true ∧ r.constrainsVariants = true)) ∧
    ((document.get? "sort").isSome = true ↔ r.orders ≠ []) ∧
    (r.includeVariants.names ≠ [] → ∃ conditions, clauses? "filter" document = some conditions ∧
      Scopes r.includeVariants [] conditions) ∧
    (r.excludeVariants.names ≠ [] → ∃ conditions, clauses? "must_not" document = some conditions ∧
      Scopes r.excludeVariants (if r.includeChildren = true then []
        else [.object [("exists", .object [("field", .string "parent_id")])]]) conditions) ∧
    (∀ field, r.filters.get? field = some (.many []) →
      (build settings catalog { r with filters := r.filters.erase field }).toJson = document) ∧
    ∀ field, r.excludes.get? field = some (.many []) →
      (build settings catalog { r with excludes := r.excludes.erase field }).toJson = document := by
  intro document
  refine ⟨wellFormed_build settings catalog r, ?_, ?_, ?_, isSome_aggregations_iff, ?_,
    scopes_filter, scopes_mustNot, fun field hempty => ?_, fun field hempty => ?_⟩
  · rw [Option.isSome_iff_exists, ← BoolQuery.filter_ne_nil_iff]
    simp only [document, clauses?_filter_eq_some_iff, exists_and_left, exists_eq, and_true]
    rfl
  · rw [Option.isSome_iff_exists, ← BoolQuery.mustNot_ne_nil_iff]
    simp only [document, clauses?_mustNot_eq_some_iff, exists_and_left, exists_eq, and_true]
    rfl
  · rw [Option.isSome_iff_exists]
    simp only [document, functions?_eq_some_iff, exists_and_left, exists_eq, and_true]
    exact not_congr List.map_eq_nil_iff
  · rw [Option.isSome_iff_exists]
    simp only [document, get?_sort_eq_some_iff, exists_and_left, exists_eq, and_true]
    rfl
  · simp only [document, build, BoolQuery.ofRequest, BoolQuery.filterClauses_erase hempty]
    rfl
  · simp only [document, build, BoolQuery.ofRequest, BoolQuery.filterClauses_erase hempty]
    rfl

/-- A request with an empty list for the variants among its filters and a set of variants to keep:
the list is no condition, and the set is one. And likewise for what it drops. -/
theorem wellFormed_beside_empty_list :
    let r := Request.initial.applyAll [.filter "variant" (.many []), .filter "title" (.one "map"),
      .includeVariants ["map", "atlas", "map"], .exclude "creator" (.many []),
      .excludeVariants ["page"]]
    let document := (build .usual Sample.catalog r).toJson
    WellFormed document ∧
    r.filters.get? "variant" = some (.many []) ∧
    (build .usual Sample.catalog { r with filters := r.filters.erase "variant" }).toJson = document ∧
    r.excludes.get? "creator" = some (.many []) ∧
    (build .usual Sample.catalog { r with excludes := r.excludes.erase "creator" }).toJson
      = document ∧
    (r.includeVariants.names ≠ [] ∧ ∃ conditions, clauses? "filter" document = some conditions ∧
      Scopes r.includeVariants [] conditions) ∧
    r.excludeVariants.names ≠ [] ∧ ∃ conditions, clauses? "must_not" document = some conditions ∧
      Scopes r.excludeVariants [.object [("exists", .object [("field", .string "parent_id")])]]
        conditions := by
  intro r document
  obtain ⟨hformed, -, -, -, -, -, hkept, hdropped, hfilters, hexcludes⟩ :=
    build_wellFormed .usual Sample.catalog r
  have hfilter : r.filters.get? "variant" = some (.many []) := by decide
  have hexclude : r.excludes.get? "creator" = some (.many []) := by decide
  have hincluded : r.includeVariants.names ≠ [] := by decide
  have hexcluded : r.excludeVariants.names ≠ [] := by decide
  exact ⟨hformed, hfilter, hfilters "variant" hfilter, hexclude, hexcludes "creator" hexclude,
    ⟨hincluded, hkept hincluded⟩, hexcluded, hdropped hexcluded⟩

end Document

end HarvestSearch
