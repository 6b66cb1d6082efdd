/-
What the conditions of a query document mean.

The conditions are those that `gleaner_search::query::bool_query` writes. A stored document has a
set of values in each field. `Condition.Holds` reads conditions off JSON the way the engine does: a
term is one of the values, a list of terms shares one with them, a field that exists has some, and a
bool query keeps what satisfies all its `must` and `filter` conditions and none of its `must_not`
conditions. How text is searched is left open: every other condition is read by a parameter.

`Request.Admits` says in terms of the request which documents it is for, and
`bool_query_holds_iff` says that the written conditions keep just these among the documents that the
text condition is for. On the way, `holds_bool_iff` reads a written bool query section by section,
and `forall_filterClauses` reads the conditions that a map of filters stands for entry by entry.
-/
import Mathlib.Data.Set.Basic
import HarvestSearch.Proofs.WrittenDocument

set_option autoImplicit false

namespace HarvestSearch

/-- A stored document as conditions see it: the set of values of each field. -/
abbrev StoredDocument := String → Set String

/-! ## Reading conditions -/

namespace Condition

section

variable (text : Json → StoredDocument → Prop) (d : StoredDocument)

mutual

/-- **What a written condition says** of a stored document. Conditions that are not about the values
of a field are read by the parameter. -/
def Holds : Json → Prop
  | .object [("term", .object [(field, .string value)])] => value ∈ d field
  | .object [("terms", .object [(field, .array values)])] =>
    ∃ value, .string value ∈ values ∧ value ∈ d field
  | .object [("exists", .object [("field", .string field)])] => (d field).Nonempty
  | .object [("bool", .object sections)] => SectionsHold sections
  | condition => text condition d

/-- Every section of a bool query lets the document through. -/
def SectionsHold : List (String × Json) → Prop
  | [] => True
  | part :: rest => SectionHolds part ∧ SectionsHold rest

/-- A section of a bool query lets the document through. There are no sections but these three. -/
def SectionHolds : String × Json → Prop
  | ("must", .array conditions) => AllHold conditions
  | ("filter", .array conditions) => AllHold conditions
  | ("must_not", .array conditions) => NoneHolds conditions
  | _ => False

/-- Every condition of a list holds. -/
def AllHold : List Json → Prop
  | [] => True
  | condition :: rest => Holds condition ∧ AllHold rest

/-- No condition of a list holds. -/
def NoneHolds : List Json → Prop
  | [] => True
  | condition :: rest => ¬Holds condition ∧ NoneHolds rest

end

end

variable {text : Json → StoredDocument → Prop} {d : StoredDocument}

theorem sectionsHold_iff {sections : List (String × Json)} :
    SectionsHold text d sections ↔ ∀ part ∈ sections, SectionHolds text d part := by
  induction sections with
  | nil => simp [SectionsHold]
  | cons part rest ih => rw [SectionsHold, List.forall_mem_cons, ih]

theorem allHold_iff {conditions : List Json} :
    AllHold text d conditions ↔ ∀ condition ∈ conditions, Holds text d condition := by
  induction conditions with
  | nil => simp [AllHold]
  | cons condition rest ih => rw [AllHold, List.forall_mem_cons, ih]

theorem noneHolds_iff {conditions : List Json} :
    NoneHolds text d conditions ↔ ∀ condition ∈ conditions, ¬Holds text d condition := by
  induction conditions with
  | nil => simp [NoneHolds]
  | cons condition rest ih => rw [NoneHolds, List.forall_mem_cons, ih]

/-! ## Written conditions -/

theorem holds_term_iff {field value : String} :
    Holds text d (Clause.term field value).toJson ↔ value ∈ d field := by
  show Holds text d (.object [("term", .object [(field, .string value)])]) ↔ _
  rw [Holds]

theorem holds_terms_iff {field : String} {values : List String} :
    Holds text d (Clause.terms field values).toJson ↔ ∃ value ∈ values, value ∈ d field := by
  show Holds text d (.object [("terms", .object [(field, .array (values.map .string))])]) ↔ _
  rw [Holds]
  simp

theorem holds_hasValue_iff {field : String} :
    Holds text d (Clause.hasValue field).toJson ↔ (d field).Nonempty := by
  show Holds text d (.object [("exists", .object [("field", .string field)])]) ↔ _
  rw [Holds]

/-- A condition of another kind is read by the parameter. -/
theorem holds_of_other_kind {kind : String} (hkind : kind ∉ ["term", "terms", "exists", "bool"])
    (body : Json) : Holds text d (.object [(kind, body)]) ↔ text (.object [(kind, body)]) d := by
  rw [Holds]
  · intro field value h
    cases h
    simp at hkind
  · intro field values h
    cases h
    simp at hkind
  · intro field h
    cases h
    simp at hkind
  · intro sections h
    cases h
    simp at hkind

theorem holds_textClause_iff (query : Option TextQuery) :
    Holds text d (BoolQuery.textClause query).toJson ↔
      text (BoolQuery.textClause query).toJson d := by
  have hall : "match_all" ∉ ["term", "terms", "exists", "bool"] := by decide
  have hwords : "query_string" ∉ ["term", "terms", "exists", "bool"] := by decide
  cases query with
  | none => exact holds_of_other_kind hall _
  | some q => exact holds_of_other_kind hwords _

end Condition

/-! ## Written bool queries -/

namespace BoolQuery

/-- The sections of a bool query as they are written. -/
def sections (q : BoolQuery) : List (String × Json) :=
  ("must", .array (q.must.map Clause.toJson))
    :: (Json.listMember "filter" (q.filter.map Clause.toJson)
      ++ Json.listMember "must_not" (q.mustNot.map Clause.toJson))

/-- No section is written twice. -/
theorem nodup_sections (q : BoolQuery) : (q.sections.map (·.1)).Nodup := by
  unfold sections Json.listMember
  split <;> split <;> simp

/-- The `must` section is always written. -/
theorem get?_must (q : BoolQuery) :
    (q.toJson.get? "bool").bind (Json.get? "must")
      = some (.array (q.must.map Clause.toJson)) := by
  unfold toJson
  rw [Json.get?_ofMembers_singleton, Option.bind_some]
  refine Json.get?_ofMembers_cons _ ?_
  intro e he
  rcases List.mem_append.1 he with he | he
  · exact Document.ne_of_mem_listMember (by decide) he
  · exact Document.ne_of_mem_listMember (by decide) he

variable {text : Json → StoredDocument → Prop} {d : StoredDocument}

/-- A section that is left out asks for nothing, so it is read as if it were there and empty. -/
theorem forall_listMember {key : String} {conditions : List Clause}
    {P : String × Json → Prop} (hnil : P (key, .array [])) :
    (∀ e ∈ Json.listMember key (conditions.map Clause.toJson), P e)
      ↔ P (key, .array (conditions.map Clause.toJson)) := by
  cases conditions with
  | nil => exact ⟨fun _ => hnil, fun _ e he => absurd he List.not_mem_nil⟩
  | cons c rest => exact List.forall_mem_singleton

/-- **A written bool query**, read by its conditions: those under `must` and `filter` hold, and
those under `must_not` do not. The order in which the sections are written does not matter. -/
theorem holds_bool_iff (q : BoolQuery) :
    Condition.Holds text d q.toJson ↔
      (∀ c ∈ q.must, Condition.Holds text d c.toJson) ∧
      (∀ c ∈ q.filter, Condition.Holds text d c.toJson) ∧
      ∀ c ∈ q.mustNot, ¬Condition.Holds text d c.toJson := by
  -- the sections are written in the order of their names; as a set they are the ones listed
  have hentries : ∀ part, part ∈ (FieldMap.ofList q.sections).entries ↔ part ∈ q.sections :=
    fun _ => FieldMap.mem_entries_ofList (nodup_sections q)
  show Condition.Holds text d
    (.object [("bool", .object (FieldMap.ofList q.sections).entries)]) ↔ _
  rw [Condition.Holds, Condition.sectionsHold_iff]
  simp only [hentries]
  unfold sections
  rw [List.forall_mem_cons, List.forall_mem_append, forall_listMember, forall_listMember]
  · rw [Condition.SectionHolds, Condition.SectionHolds, Condition.SectionHolds,
      Condition.allHold_iff, Condition.allHold_iff, Condition.noneHolds_iff]
    simp only [List.forall_mem_map]
  · -- sections without conditions let every document through
    rw [Condition.SectionHolds, Condition.NoneHolds]
    trivial
  · rw [Condition.SectionHolds, Condition.AllHold]
    trivial

end BoolQuery

/-! ## What a request is for -/

/-- The value or one of the values that a filter asks for is among the values of a field. -/
def FilterValue.Meets (values : Set String) : FilterValue → Prop
  | .one value => value ∈ values
  | .many wanted => ∃ value ∈ wanted, value ∈ values

/-- **The documents that a request is for**, its text aside. An empty list of values keeps and drops
nothing. -/
structure Request.Admits (r : Request) (d : StoredDocument) : Prop where
  filters : ∀ field value, r.filters.get? field = some value → value ≠ .many [] →
    value.Meets (d field)
  excludes : ∀ field value, r.excludes.get? field = some value → value ≠ .many [] →
    ¬value.Meets (d field)
  contentService : ∀ key, r.contentService = some key → key ∈ d Field.serviceKey
  included : r.includeVariants.names = [] ∨ ∃ v ∈ r.includeVariants.names, v ∈ d Field.variant
  excluded : ∀ v ∈ r.excludeVariants.names, v ∉ d Field.variant
  children : r.includeChildren = true ∨ d Field.parentId = ∅

/-! ## What the conditions of a request are for -/

namespace BoolQuery

variable {text : Json → StoredDocument → Prop} {d : StoredDocument}

/-- The condition that a filter stands for, if it is one. -/
def filterClause (field : String) : FilterValue → Clause
  | .one value => .term field value
  | .many values => .terms field values

theorem holds_filterClause_iff {field : String} {value : FilterValue} :
    Condition.Holds text d (filterClause field value).toJson ↔ value.Meets (d field) := by
  cases value with
  | one value => exact Condition.holds_term_iff
  | many values => exact Condition.holds_terms_iff

/-- The conditions that filters stand for, one for each entry that is no empty list. -/
theorem forall_filterClauses {filters : FilterMap} {P : Clause → Prop} :
    (∀ c ∈ filterClauses filters, P c) ↔
      ∀ field value, filters.get? field = some value → value ≠ .many [] →
        P (filterClause field value) := by
  unfold filterClauses
  constructor
  · intro h field value hget hvalue
    refine h _ (List.mem_filterMap.2 ⟨(field, value), FieldMap.mem_entries_iff.2 hget, ?_⟩)
    -- the entry makes a condition in both of the cases that are left
    match value, hvalue with
    | .one value, _ => rfl
    | .many [], hvalue => exact absurd rfl hvalue
    | .many (v :: vs), _ => rfl
  · intro h c hc
    obtain ⟨⟨field, value⟩, hmem, hmade⟩ := List.mem_filterMap.1 hc
    have hget := FieldMap.mem_entries_iff.1 hmem
    match value, hmade with
    | .one value, rfl => exact h field _ hget FilterValue.noConfusion
    | .many (v :: vs), rfl =>
      refine h field _ hget ?_
      intro heq
      cases heq

/-- The condition that the variant is one of a set holds when one of the set is there, and also when
the set is empty. -/
theorem forall_variantClause {variants : NameSet} {P : Clause → Prop} :
    (∀ c ∈ variantClause variants, P c) ↔
      variants.names = [] ∨ P (.terms Field.variant variants.names) := by
  unfold variantClause
  by_cases hempty : variants.isEmpty = true
  · have hnames : variants.names = [] := by
      unfold NameSet.names FieldMap.keys
      rw [List.isEmpty_iff.1 hempty]
      rfl
    rw [if_pos hempty]
    exact ⟨fun _ => .inl hnames, fun _ c hc => absurd hc List.not_mem_nil⟩
  · have hnames : variants.names ≠ [] := by
      intro hnil
      exact hempty (List.isEmpty_iff.2 (List.map_eq_nil_iff.1 hnil))
    rw [if_neg hempty, List.forall_mem_singleton]
    exact ⟨.inr, fun h => h.resolve_left hnames⟩

/-- The conditions of a request that have to hold without a score. -/
theorem filter_hold_iff (r : Request) :
    (∀ c ∈ (ofRequest r).filter, Condition.Holds text d c.toJson) ↔
      (∀ field value, r.filters.get? field = some value → value ≠ .many [] →
        value.Meets (d field)) ∧
      (∀ key, r.contentService = some key → key ∈ d Field.serviceKey) ∧
      (r.includeVariants.names = [] ∨ ∃ v ∈ r.includeVariants.names, v ∈ d Field.variant) := by
  unfold ofRequest
  rw [List.forall_mem_append, List.forall_mem_append, forall_filterClauses, forall_variantClause,
    Condition.holds_terms_iff, and_assoc]
  simp only [holds_filterClause_iff]
  refine and_congr_right fun _ => and_congr_left fun _ => ?_
  cases r.contentService with
  | none => simp
  | some key => simp [Condition.holds_term_iff]

/-- The conditions of a request that must not hold. -/
theorem mustNot_fail_iff (r : Request) :
    (∀ c ∈ (ofRequest r).mustNot, ¬Condition.Holds text d c.toJson) ↔
      (∀ field value, r.excludes.get? field = some value → value ≠ .many [] →
        ¬value.Meets (d field)) ∧
      (∀ v ∈ r.excludeVariants.names, v ∉ d Field.variant) ∧
      (r.includeChildren = true ∨ d Field.parentId = ∅) := by
  unfold ofRequest
  rw [List.forall_mem_append, List.forall_mem_append, forall_filterClauses, forall_variantClause,
    Condition.holds_terms_iff, and_assoc]
  simp only [holds_filterClause_iff]
  refine and_congr_right fun _ => and_congr ?_ ?_
  · -- an empty set of variants drops nothing, as the general condition says already
    constructor
    · rintro (hnil | hnone) v hv hd
      · rw [hnil] at hv
        exact List.not_mem_nil hv
      · exact hnone ⟨v, hv, hd⟩
    · intro h
      refine .inr ?_
      rintro ⟨v, hv, hd⟩
      exact h v hv hd
  · by_cases hchildren : r.includeChildren = true
    · simp [hchildren]
    · rw [if_neg hchildren, List.forall_mem_singleton, Condition.holds_hasValue_iff,
        Set.not_nonempty_iff_eq_empty]
      exact ⟨.inr, fun h => h.resolve_left hchildren⟩

/-- The conditions of a request, all together. -/
theorem holds_ofRequest_iff (r : Request) :
    Condition.Holds text d (ofRequest r).toJson ↔
      text (textClause r.query).toJson d ∧ r.Admits d := by
  have hmust : (∀ c ∈ (ofRequest r).must, Condition.Holds text d c.toJson) ↔
      text (textClause r.query).toJson d :=
    List.forall_mem_singleton.trans (Condition.holds_textClause_iff r.query)
  rw [holds_bool_iff, hmust, filter_hold_iff, mustNot_fail_iff]
  refine and_congr_right fun _ => ?_
  constructor
  · rintro ⟨⟨hfilters, hservice, hincluded⟩, hexcludes, hexcluded, hchildren⟩
    exact ⟨hfilters, hexcludes, hservice, hincluded, hexcluded, hchildren⟩
  · intro h
    exact ⟨⟨h.filters, h.contentService, h.included⟩, h.excludes, h.excluded, h.children⟩

end BoolQuery

/-! ## The main statement -/

/-- **The conditions of a document mean what the request says.** For all settings, every catalog and
every request, the document has one bool query with one `must` condition, and whatever that
condition is taken to mean, the bool query holds of just those stored documents that it holds of and
that the request admits. -/
theorem bool_query_holds_iff (settings : Settings) (catalog : Catalog) (r : Request) :
    ∃ query must, Document.boolQuery? (Document.build settings catalog r).toJson = some query ∧
      (query.get? "bool").bind (Json.get? "must") = some (.array [must]) ∧
      ∀ (text : Json → StoredDocument → Prop) (d : StoredDocument),
        (Condition.Holds text d must ↔ text must d) ∧
        (Condition.Holds text d query ↔ text must d ∧ r.Admits d) := by
  refine ⟨(BoolQuery.ofRequest r).toJson, (BoolQuery.textClause r.query).toJson,
    Document.boolQuery?_toJson _, BoolQuery.get?_must _, fun text d => ⟨?_, ?_⟩⟩
  · exact Condition.holds_textClause_iff r.query
  · exact BoolQuery.holds_ofRequest_iff r

end HarvestSearch
