/-
Boosts in a document.

The strength of a boost is checked when the boost is made (`gleaner_domain::boost::Boost::new`), and
clamped when a document is built (`gleaner_search::query::QueryBuilder::scored_query`). The clamp
has nothing to do, because the bounds are part of the type of boosts (`clampBoost_of_valid`). So
what is written for a boost can be said of the entry that the boost was made from
(`BoostEntry.toFunction`), without a word about clamping.

Boosts are the only thing that a document is made of besides the request, the elements and the
settings. They reach one place of it: `Document.withoutFunctions` leaves out what stands there, and
`Document.withoutFunctions_build` says that this is the document without boosts.
-/
import HarvestSearch.Proofs.CatalogChecks
import HarvestSearch.Proofs.TwoDialects
import HarvestSearch.Proofs.WellFormedDocuments

set_option autoImplicit false

namespace HarvestSearch

/-! ## From entries to boosts -/

/-- The clamp has nothing to do for the strength of a boost. -/
theorem clampBoost_of_valid {strength : Int} (h : ValidStrength strength) :
    clampBoost strength = strength := by
  obtain ⟨-, hlow, hhigh⟩ := h
  rw [clampBoost, Int.min_eq_left hhigh, Int.max_eq_right hlow]

/-- A boost keeps its entry as it is written down. -/
theorem Boost.toEntry_of_ofEntry {entry : BoostEntry} {b : Boost} (h : ofEntry entry = .ok b) :
    b.toEntry = entry := by
  unfold ofEntry at h
  split_ifs at h
  cases h
  rfl

namespace BoostTable

variable {boosts : List Boost} {entries : List BoostEntry} {table : BoostTable}

theorem boosts_of_ofList (h : ofList boosts = .ok table) : table.boosts = boosts := by
  unfold ofList at h
  split at h
  · cases h
  · cases h
    rfl

/-- A table keeps its entries in their order. -/
theorem toEntry_of_ofEntries (h : ofEntries entries = .ok table) :
    table.boosts.map Boost.toEntry = entries := by
  obtain ⟨boosts, hread, hlist⟩ := Except.bind_eq_ok_iff.1 h
  rw [boosts_of_ofList hlist, Except.map_eq_of_mapM (fun entry b hb =>
    Boost.toEntry_of_ofEntry (Except.mapError_eq_ok_iff.1 hb)) hread]
  exact List.map_id entries

end BoostTable

/-! ## What is written for a boost -/

/-- The condition that a field holds a value. -/
def Json.termFilter (field value : String) : Json :=
  .object [("term", .object [(field, .string value)])]

theorem Json.termFilter_inj {field value field' value' : String} :
    termFilter field value = termFilter field' value' ↔ field = field' ∧ value = value' := by
  simp [termFilter]

/-- What is written for a boost: its strength counts where its field holds its value. -/
def BoostEntry.toFunction (entry : BoostEntry) : Json :=
  .object [("filter", .termFilter entry.field entry.value), ("weight", .int entry.strength)]

theorem BoostEntry.get?_filter (entry : BoostEntry) :
    entry.toFunction.get? "filter" = some (.termFilter entry.field entry.value) := rfl

/-- Entries for distinct pairs of field and value are written with distinct filters. -/
theorem BoostEntry.nodup_filters {entries : List BoostEntry}
    (h : (entries.map fun entry => (entry.field, entry.value)).Nodup) :
    ((entries.map toFunction).map (Json.get? "filter")).Nodup := by
  have hfilters : (entries.map toFunction).map (Json.get? "filter")
      = (entries.map fun entry => (entry.field, entry.value)).map fun target =>
          some (Json.termFilter target.1 target.2) := by
    rw [List.map_map, List.map_map]
    exact List.map_congr_left fun entry _ => entry.get?_filter
  rw [hfilters]
  refine h.map fun target target' hsame => ?_
  exact Prod.ext_iff.2 (Json.termFilter_inj.1 (Option.some_inj.1 hsame))

/-- The function of a boost is what its entry says. -/
theorem ScoreFunction.map_toJson_ofBoosts (boosts : BoostTable) :
    (ofBoosts boosts).map toJson
      = (boosts.boosts.map Boost.toEntry).map BoostEntry.toFunction := by
  have hlt : "filter" < "weight" := by decide
  unfold ofBoosts
  rw [List.map_map, List.map_map]
  refine List.map_congr_left fun b _ => ?_
  -- a filter and a weight stand in the order of their names, so that nothing is moved
  show toJson ⟨.term b.field b.value, clampBoost b.strength⟩ = _
  rw [clampBoost_of_valid b.strength_valid, toJson,
    Json.ofMembers_of_sorted (List.pairwise_pair.2 hlt)]
  rfl

/-! ## The document without them -/

namespace Json

/-- The object without a member. -/
def withoutMember (key : String) : Json → Json
  | .object members => .object (members.filter fun e => e.1 ≠ key)
  | other => other

theorem withoutMember_ofMembers (key : String) (members : List (String × Json)) :
    withoutMember key (ofMembers members) = ofMembers (members.filter fun e => e.1 ≠ key) :=
  congrArg ofMap (FieldMap.erase_ofList key members)

theorem filter_listMember (key : String) (items : List Json) :
    ((listMember key items).filter fun e => e.1 ≠ key) = [] :=
  List.filter_eq_nil_iff.2 fun e he => by simp [(mem_listMember.1 he).2]

end Json

/-- A scored query without boosts. -/
def ScoredQuery.withoutFunctions (q : ScoredQuery) : ScoredQuery := { q with functions := [] }

theorem ScoredQuery.toJson_withoutFunctions (q : ScoredQuery) : q.withoutFunctions.toJson
    = Json.changeMember "function_score" (Json.withoutMember "functions") q.toJson := by
  unfold toJson
  rw [Json.changeMember_ofMembers, List.map_singleton, if_pos rfl, Json.withoutMember_ofMembers,
    List.filter_append, List.filter_cons, Json.filter_listMember]
  rfl

namespace Document

/-- The document without the functions of its scored query. -/
def withoutFunctions (document : Json) : Json :=
  Json.changeMember "query"
    (Json.changeMember "function_score" (Json.withoutMember "functions")) document

/-- The members behind the query are other members, and do not depend on it. -/
theorem exists_behind_query (d : Document) : ∃ behind, (∀ e ∈ behind, e.1 ≠ "query") ∧
    ∀ query, toJson { d with query := query } = .ofMembers (("query", query.toJson) :: behind) := by
  refine ⟨(if d.aggregations.isEmpty then [] else [("aggregations", d.aggregationsJson)])
    ++ Json.listMember "sort" (d.sort.map SortOrder.toClause)
    ++ Json.optionMember "from" (d.start.map .ofUInt64)
    ++ Json.optionMember "size" (d.size.map .ofUInt64), ?_, fun _ => rfl⟩
  simp only [List.forall_mem_append]
  exact ⟨⟨⟨d.ne_of_mem_counts (by decide), fun e he => ne_of_mem_listMember (by decide) he⟩,
    fun e he => ne_of_mem_optionMember (by decide) he⟩,
    fun e he => ne_of_mem_optionMember (by decide) he⟩

theorem toJson_withoutFunctions (d : Document) :
    toJson { d with query := d.query.withoutFunctions } = withoutFunctions d.toJson := by
  obtain ⟨behind, hbehind, hwritten⟩ := d.exists_behind_query
  have hall : d.toJson = .ofMembers (("query", d.query.toJson) :: behind) := hwritten d.query
  rw [hwritten, hall, withoutFunctions, Json.changeMember_ofMembers, List.map_cons, if_pos rfl,
    Json.map_change_of_ne hbehind, ScoredQuery.toJson_withoutFunctions]

/-- **Boosts reach the functions only**: without these the document is the one without boosts. -/
theorem withoutFunctions_build (settings : Settings) (catalog : Catalog) (r : Request) :
    withoutFunctions (build settings catalog r).toJson
      = (build settings { catalog with boosts := .empty } r).toJson :=
  (toJson_withoutFunctions (build settings catalog r)).symm

/-- The functions of a document, if there are boosts. -/
theorem functions?_build (settings : Settings) (catalog : Catalog) (r : Request) :
    functions? (build settings catalog r).toJson
      = if catalog.boosts.boosts = [] then none else some (.array
          ((catalog.boosts.boosts.map Boost.toEntry).map BoostEntry.toFunction)) := by
  have hfunctions : (build settings catalog r).query.functions
      = ScoreFunction.ofBoosts catalog.boosts := rfl
  refine Option.ext fun weights => ?_
  rw [functions?_eq_some_iff, hfunctions, ScoreFunction.map_toJson_ofBoosts, Ne,
    ScoreFunction.ofBoosts, List.map_eq_nil_iff, Option.ite_none_left_eq_some, Option.some_inj]
  exact and_congr_right fun _ => eq_comm

/-- **Boosts reach a document unchanged.** Where a table is made of entries, the functions of a
document are written from these in their order, with the strengths that no clamp alters. No two have
the same filter. Another table makes a difference to the functions only, and without them the document
is as without boosts. -/
theorem boosts_reach_document {entries : List BoostEntry} {catalog : Catalog}
    (hmade : BoostTable.ofEntries entries = .ok catalog.boosts) (settings : Settings) (r : Request) :
    functions? (build settings catalog r).toJson
      = (if entries = [] then none else some (.array (entries.map BoostEntry.toFunction))) ∧
    (∀ entry ∈ entries, clampBoost entry.strength = entry.strength ∧
      entry.strength ≠ 0 ∧ -10 ≤ entry.strength ∧ entry.strength ≤ 10) ∧
    ((entries.map BoostEntry.toFunction).map (Json.get? "filter")).Nodup ∧
    (∀ table, withoutFunctions (build settings { catalog with boosts := table } r).toJson
      = withoutFunctions (build settings catalog r).toJson) ∧
    withoutFunctions (build settings catalog r).toJson
      = (build settings { catalog with boosts := .empty } r).toJson := by
  have hentries : catalog.boosts.boosts.map Boost.toEntry = entries :=
    BoostTable.toEntry_of_ofEntries hmade
  obtain ⟨hvalid, hdistinct⟩ := BoostTable.ofEntries_ok_iff.1 ⟨_, hmade⟩
  refine ⟨?_, fun entry hentry => ?_, BoostEntry.nodup_filters hdistinct, fun table => ?_,
    withoutFunctions_build settings catalog r⟩
  · have hnone : catalog.boosts.boosts = [] ↔ entries = [] := by
      rw [← hentries, List.map_eq_nil_iff]
    rw [functions?_build, hentries, if_congr hnone rfl rfl]
  · obtain ⟨hlow, hhigh⟩ := (hvalid entry hentry).in_range
    have hzero : entry.strength ≠ 0 := (hvalid entry hentry).not_zero
    exact ⟨clampBoost_of_valid ⟨hzero, hlow, hhigh⟩, hzero, hlow, hhigh⟩
  · rw [withoutFunctions_build, withoutFunctions_build]

/-- Boosts of the largest and the smallest strength for two values of one field, and one for a value
that another field has too. -/
theorem boosts_of_extreme_strengths :
    let entries : List BoostEntry := [⟨"source_subject.keyword", "Featured", 10⟩,
      ⟨"source_subject.keyword", "Draft", -10⟩, ⟨Field.variant, "Draft", 1⟩]
    ∃ catalog : Catalog, BoostTable.ofEntries entries = .ok catalog.boosts ∧
      functions? (build .usual catalog default).toJson
        = some (.array (entries.map BoostEntry.toFunction)) ∧
      entries.map BoostEntry.toFunction = [
        .object [("filter", .object [("term", .object [("source_subject.keyword",
          .string "Featured")])]), ("weight", .int 10)],
        .object [("filter", .object [("term", .object [("source_subject.keyword",
          .string "Draft")])]), ("weight", .int (-10))],
        .object [("filter", .object [("term", .object [("variant", .string "Draft")])]),
          ("weight", .int 1)]] ∧
      withoutFunctions (build .usual catalog default).toJson
        = withoutFunctions (build .usual Sample.catalog default).toJson := by
  intro entries
  obtain ⟨table, htable⟩ : ∃ table, BoostTable.ofEntries entries = .ok table :=
    BoostTable.ofEntries_ok_iff.2 ⟨by decide, by decide⟩
  obtain ⟨hfunctions, -, -, hother, -⟩ := @boosts_reach_document entries
    { Sample.catalog with boosts := table } htable .usual default
  exact ⟨_, htable, hfunctions, rfl, (hother Sample.catalog.boosts).symm⟩

end Document

end HarvestSearch
