/-
What the dialect of an engine makes a difference to, and what it does not.

A document depends on the dialect (`gleaner_search::settings::Dialect`) in two places: in the name
that alphanumeric buckets are ordered by, and in the start of the window. `Document.legacyForm`
changes a written document at these two places and leaves everything else as it is. It goes by the
place in the document and not by the names there, because a field that is counted, sorted by or
filtered by may itself be called `_key`, `_term` or `from`. `Document.toJson_inLegacy` says the same
of the tree that a document is kept as, where the two places are fields.

A reply tells the number of matches in one of two shapes. They make no difference to any reader
(`Decoded.ofReply_withTotal`), and so to no run of a finder.
-/
import HarvestSearch.Proofs.AnswersByState
import HarvestSearch.Proofs.CountedFacets
import HarvestSearch.Proofs.WrittenRecords

set_option autoImplicit false

namespace HarvestSearch

/-! ## Changing one place of a value -/

namespace Json

/-- The object with every member changed by its name. Other values have no members. -/
def changeMembers (change : String → Json → Json) : Json → Json
  | .object members => .object (members.map fun e => (e.1, change e.1 e.2))
  | other => other

/-- The object with one member changed. -/
def changeMember (key : String) (change : Json → Json) : Json → Json :=
  changeMembers fun name value => if name = key then change value else value

/-- The object with one member under another name. -/
def renameMember (key name : String) : Json → Json
  | .object members => .ofMembers (members.map fun e => (if e.1 = key then name else e.1, e.2))
  | other => other

/-- The object with a member that is added when there is none of its name. -/
def withDefault (key : String) (default : Json) : Json → Json
  | .object members => .ofMembers ((key, default) :: members)
  | other => other

variable {key : String} {members : List (String × Json)}

theorem changeMembers_object (change : String → Json → Json) (members : List (String × Json)) :
    changeMembers change (.object members)
      = .object (members.map fun e => (e.1, change e.1 e.2)) := rfl

/-- Members can be changed before or after the object is made of them. -/
theorem changeMembers_ofMembers (change : String → Json → Json) (members : List (String × Json)) :
    changeMembers change (ofMembers members)
      = ofMembers (members.map fun e => (e.1, change e.1 e.2)) :=
  congrArg ofMap (FieldMap.mapValues_ofList change members)

theorem changeMember_ofMembers (key : String) (change : Json → Json)
    (members : List (String × Json)) :
    changeMember key change (ofMembers members)
      = ofMembers (members.map fun e => (e.1, if e.1 = key then change e.2 else e.2)) :=
  changeMembers_ofMembers _ members

/-- A change of one member leaves members of other names alone. -/
theorem map_change_of_ne {change : Json → Json} (h : ∀ e ∈ members, e.1 ≠ key) :
    (members.map fun e => (e.1, if e.1 = key then change e.2 else e.2)) = members := by
  refine (List.map_congr_left fun e he => ?_).trans (List.map_id members)
  rw [if_neg (h e he)]
  rfl

/-- A default comes before all other members, so that these count more. -/
theorem withDefault_ofMembers (key : String) (default : Json) (members : List (String × Json)) :
    withDefault key default (ofMembers members) = ofMembers ((key, default) :: members) := by
  refine congrArg ofMap (FieldMap.ext_get? fun q => ?_)
  have hkept : FieldMap.lookupEntries q (FieldMap.ofList members).entries.reverse
      = FieldMap.lookupEntries q members.reverse :=
    (FieldMap.lookupEntries_reverse (FieldMap.nodup_of_sorted (FieldMap.ofList members).sorted)
      q).trans (FieldMap.get?_ofList members q)
  rw [FieldMap.get?_ofList, FieldMap.get?_ofList, List.reverse_cons, List.reverse_cons,
    FieldMap.lookupEntries_append, FieldMap.lookupEntries_append, hkept]

/-- A member that may be left out is found under its own name only. -/
theorem lookupEntries_optionMember (key : String) (value : Option Json) (q : String) :
    FieldMap.lookupEntries q (optionMember key value).reverse = if key = q then value else none := by
  cases value with
  | none => exact (ite_self none).symm
  | some value => rfl

/-- A default before members that may lack it fills its place among them. -/
theorem ofMembers_default (default : Json) (given : Option Json) {front back : List (String × Json)}
    (hfront : ∀ e ∈ front, e.1 ≠ key) (hback : ∀ e ∈ back, e.1 ≠ key) :
    ofMembers ((key, default) :: (front ++ optionMember key given ++ back))
      = ofMembers (front ++ optionMember key (some (given.getD default)) ++ back) := by
  refine congrArg ofMap (FieldMap.ext_get? fun q => ?_)
  rw [FieldMap.get?_ofList, FieldMap.get?_ofList]
  simp only [List.reverse_cons, List.reverse_append, FieldMap.lookupEntries_append,
    lookupEntries_optionMember]
  by_cases hq : key = q
  · subst hq
    rw [FieldMap.lookupEntries_reverse_eq_none hfront, FieldMap.lookupEntries_reverse_eq_none hback]
    cases given with
    | none => simp [FieldMap.lookupEntries]
    | some value => simp [FieldMap.lookupEntries]
  · simp [FieldMap.lookupEntries, hq]

end Json

/-! ## The written document -/

namespace Document

/-- What the buckets of a field are ordered by in a written document. -/
def order? (document : Json) (field : String) : Option Json := do
  let aggregations ← document.get? "aggregations"
  let counted ← aggregations.get? field
  let terms ← counted.get? "terms"
  terms.get? "order"

/-- The aggregation with its buckets ordered by `_term` where they were ordered by `_key`. -/
def legacyAggregation : Json → Json :=
  Json.changeMember "terms" (Json.changeMember "order" (Json.renameMember "_key" "_term"))

/-- The aggregations, with those of alphanumeric facets changed. -/
def legacyAggregations (alphanumeric : String → Bool) : Json → Json :=
  Json.changeMembers fun field aggregation =>
    if alphanumeric field then legacyAggregation aggregation else aggregation

/-- The document as a legacy engine expects it: the aggregations are changed, and there is always a
start of the window. -/
def legacyForm (alphanumeric : String → Bool) (document : Json) : Json :=
  Json.withDefault "from" (.int 0)
    (Json.changeMember "aggregations" (legacyAggregations alphanumeric) document)

end Document

namespace Aggregation

/-- The element that a count under a field is for. Of several elements with this facet field the last
one counts. -/
def countedFor? (registry : Registry) (r : Request) (field : String) : Option Element :=
  (requestedElements registry r).reverse.find? fun e => e.facetField = field

/-- The count under the field is for an alphanumeric facet. -/
def isAlphanumeric (registry : Registry) (r : Request) (field : String) : Bool :=
  match countedFor? registry r field with
  | some e => e.facetOrder = .alphanumeric
  | none => false

end Aggregation

/-! ## Two documents for one request -/

namespace Aggregation

variable {settings : Settings} {registry : Registry} {r : Request} {field : String}

/-- The aggregation with its buckets ordered by their keys, as a legacy engine calls it. -/
def inLegacy (a : Aggregation) : Aggregation := { a with orderKey := Dialect.legacy.keyOrder }

/-- Under a field the element is counted that the count is for. -/
theorem get?_ofRequest (hr : r.aggregations = true) : (ofRequest settings registry r).get? field
    = (countedFor? registry r field).map (ofElement settings r) := by
  rw [ofRequest, if_pos hr, FieldMap.get?_ofList, ← List.map_reverse,
    FieldMap.lookupEntries_map_eq_find?, countedFor?]

/-- Of the aggregation of an element only the name that keys are ordered by depends on the dialect. -/
theorem ofElement_legacy (settings : Settings) (r : Request) (e : Element) :
    ofElement { settings with dialect := .legacy } r e
      = if e.facetOrder = .alphanumeric then
          inLegacy (ofElement { settings with dialect := .modern } r e)
        else ofElement { settings with dialect := .modern } r e := by
  unfold ofElement
  cases e.facetOrder with
  | alphanumeric => rfl
  | byCount => rfl

theorem orderKey_of_alphanumeric {dialect : Dialect} {e : Element}
    (horder : e.facetOrder = .alphanumeric) :
    let a := ofElement { settings with dialect := dialect } r e
    a.orderKey = dialect.keyOrder ∧ a.orderDirection = .asc := by
  unfold ofElement
  rw [horder]
  exact ⟨rfl, rfl⟩

theorem isAlphanumeric_eq {e : Element} (h : countedFor? registry r field = some e) :
    isAlphanumeric registry r field = decide (e.facetOrder = .alphanumeric) := by
  rw [isAlphanumeric, h]

/-- The aggregations of a request in the two dialects. -/
theorem ofRequest_legacy (settings : Settings) (registry : Registry) (r : Request) :
    ofRequest { settings with dialect := .legacy } registry r
      = (ofRequest { settings with dialect := .modern } registry r).mapValues fun field a =>
          if isAlphanumeric registry r field then a.inLegacy else a := by
  by_cases hr : r.aggregations = true
  · refine FieldMap.ext_get? fun field => ?_
    rw [FieldMap.get?_mapValues, get?_ofRequest hr, get?_ofRequest hr]
    cases hcounted : countedFor? registry r field with
    | none => rfl
    | some e =>
      rw [Option.map_some, Option.map_some, Option.map_some, isAlphanumeric_eq hcounted,
        ofElement_legacy]
      simp
  · rw [ofRequest, ofRequest, if_neg hr, if_neg hr]
    rfl

/-- There is a count under the field of an alphanumeric facet. -/
theorem exists_of_isAlphanumeric (settings : Settings) (hr : r.aggregations = true)
    (halphanumeric : isAlphanumeric registry r field = true) :
    ∃ a, (ofRequest settings registry r).get? field = some a := by
  rw [get?_ofRequest hr]
  cases hcounted : countedFor? registry r field with
  | none =>
    rw [isAlphanumeric, hcounted] at halphanumeric
    cases halphanumeric
  | some e => exact ⟨_, rfl⟩

/-- The count under the field of an alphanumeric facet is ordered by keys. -/
theorem orderKey_of_isAlphanumeric {dialect : Dialect} {a : Aggregation}
    (hget : (ofRequest { settings with dialect := dialect } registry r).get? field = some a)
    (halphanumeric : isAlphanumeric registry r field = true) :
    a.orderKey = dialect.keyOrder ∧ a.orderDirection = .asc := by
  by_cases hr : r.aggregations = true
  · rw [get?_ofRequest hr] at hget
    obtain ⟨e, hcounted, rfl⟩ := Option.map_eq_some_iff.1 hget
    rw [isAlphanumeric_eq hcounted, decide_eq_true_iff] at halphanumeric
    exact orderKey_of_alphanumeric halphanumeric
  · rw [ofRequest, if_neg hr] at hget
    cases hget

/-- The one place of a written aggregation that the change is about. -/
theorem toJson_inLegacy {a : Aggregation} (h : a.orderKey = "_key") :
    a.inLegacy.toJson = Document.legacyAggregation a.toJson := by
  unfold toJson Document.legacyAggregation
  rw [Json.changeMember_ofMembers, List.map_singleton, if_pos rfl, Json.changeMember_ofMembers, h]
  rfl

end Aggregation

namespace Document

/-- The document with some aggregations ordered as a legacy engine calls it, and with a start. -/
def inLegacy (alphanumeric : String → Bool) (d : Document) : Document :=
  { d with
    aggregations := d.aggregations.mapValues fun field a =>
      if alphanumeric field then a.inLegacy else a
    start := some (d.start.getD 0) }

/-- The counts for alphanumeric facets are ordered by keys, as a modern engine calls it. -/
def OrdersByKey (alphanumeric : String → Bool) (d : Document) : Prop :=
  ∀ field a, d.aggregations.get? field = some a → alphanumeric field = true → a.orderKey = "_key"

/-- A legacy engine is always told where the window starts. -/
theorem start_legacy (settings : Settings) (catalog : Catalog) (r : Request) :
    (build { settings with dialect := .legacy } catalog r).start = some r.start := by
  simp [build, Dialect.alwaysSendsStart]

/-- A modern engine is not told of a start at zero. -/
theorem start_modern (settings : Settings) (catalog : Catalog) (r : Request) :
    (build { settings with dialect := .modern } catalog r).start
      = if r.start = 0 then none else some r.start := by
  by_cases hzero : r.start = 0
  · simp [build, Dialect.alwaysSendsStart, hzero]
  · have hpos : 0 < r.start := UInt64.pos_iff_ne_zero.2 hzero
    simp [build, hpos, hzero]

/-- Nothing else of a document depends on the dialect. -/
theorem build_legacy (settings : Settings) (catalog : Catalog) (r : Request) :
    build { settings with dialect := .legacy } catalog r
      = (build { settings with dialect := .modern } catalog r).inLegacy
          (Aggregation.isAlphanumeric catalog.registry r) := by
  have haggregations : (build { settings with dialect := .legacy } catalog r).aggregations
      = (build { settings with dialect := .modern } catalog r).aggregations.mapValues
          fun field a => if Aggregation.isAlphanumeric catalog.registry r field then a.inLegacy
            else a :=
    Aggregation.ofRequest_legacy settings catalog.registry r
  have hstart : (build { settings with dialect := .legacy } catalog r).start
      = some ((build { settings with dialect := .modern } catalog r).start.getD 0) := by
    rw [start_legacy, start_modern]
    by_cases hzero : r.start = 0
    · rw [if_pos hzero, hzero, Option.getD_none]
    · rw [if_neg hzero, Option.getD_some]
  rw [inLegacy, ← hstart, ← haggregations]
  rfl

/-- The members that stand before the window. -/
def opening (d : Document) : List (String × Json) :=
  ("query", d.query.toJson)
    :: (if d.aggregations.isEmpty then [] else [("aggregations", d.aggregationsJson)])
    ++ Json.listMember "sort" (d.sort.map SortOrder.toClause)

theorem toJson_eq (d : Document) : d.toJson = .ofMembers (d.opening
    ++ Json.optionMember "from" (d.start.map .ofUInt64)
    ++ Json.optionMember "size" (d.size.map .ofUInt64)) := rfl

theorem ne_of_mem_opening {d : Document} {key : String} (hquery : "query" ≠ key)
    (haggregations : "aggregations" ≠ key) (hsort : "sort" ≠ key) :
    ∀ e ∈ d.opening, e.1 ≠ key := by
  intro e he
  rcases List.mem_append.1 he with he | he
  · rcases List.mem_cons.1 he with rfl | he
    · exact hquery
    · exact d.ne_of_mem_counts haggregations e he
  · exact ne_of_mem_listMember hsort he

variable {alphanumeric : String → Bool} {d : Document}

theorem aggregationsJson_inLegacy (h : d.OrdersByKey alphanumeric) :
    (d.inLegacy alphanumeric).aggregationsJson
      = legacyAggregations alphanumeric d.aggregationsJson := by
  unfold aggregationsJson legacyAggregations
  rw [Json.changeMembers_object, List.map_map]
  unfold inLegacy FieldMap.mapValues
  rw [List.map_map]
  refine congrArg Json.object (List.map_congr_left fun e he => ?_)
  obtain ⟨field, a⟩ := e
  by_cases halphanumeric : alphanumeric field = true
  · have hkey : a.orderKey = "_key" := h field a (FieldMap.mem_entries_iff.1 he) halphanumeric
    simp [halphanumeric, Aggregation.toJson_inLegacy hkey]
  · simp [halphanumeric]

theorem opening_inLegacy (h : d.OrdersByKey alphanumeric) :
    (d.inLegacy alphanumeric).opening = d.opening.map fun e =>
      (e.1, if e.1 = "aggregations" then legacyAggregations alphanumeric e.2 else e.2) := by
  have hempty : (d.inLegacy alphanumeric).aggregations.isEmpty = d.aggregations.isEmpty :=
    List.isEmpty_map
  have hsort : ∀ e ∈ Json.listMember "sort" (d.sort.map SortOrder.toClause),
      e.1 ≠ "aggregations" := fun e he => ne_of_mem_listMember (by decide) he
  unfold opening
  rw [List.map_append, Json.map_change_of_ne hsort, List.map_cons, aggregationsJson_inLegacy h,
    hempty]
  by_cases hnone : d.aggregations.isEmpty = true
  · rw [if_pos hnone, if_pos hnone]
    rfl
  · rw [if_neg hnone, if_neg hnone]
    rfl

/-- The changed tree is written as the changed document. -/
theorem toJson_inLegacy (h : d.OrdersByKey alphanumeric) :
    (d.inLegacy alphanumeric).toJson = legacyForm alphanumeric d.toJson := by
  have hstart : (d.inLegacy alphanumeric).start.map Json.ofUInt64
      = some ((d.start.map Json.ofUInt64).getD (.int 0)) := by
    cases hstart : d.start with
    | none => simp [inLegacy, hstart]; rfl
    | some start => simp [inLegacy, hstart]
  rw [legacyForm, toJson_eq d, Json.changeMember_ofMembers, Json.withDefault_ofMembers,
    List.map_append, List.map_append, ← opening_inLegacy h,
    Json.map_change_of_ne fun e he => ne_of_mem_optionMember (by decide) he,
    Json.map_change_of_ne fun e he => ne_of_mem_optionMember (by decide) he,
    Json.ofMembers_default _ _ (ne_of_mem_opening (by decide) (by decide) (by decide))
      fun e he => ne_of_mem_optionMember (by decide) he, toJson_eq, hstart]
  rfl

/-- The order of the buckets of a field stands in the aggregation under the field. -/
theorem order?_toJson {d : Document} {field : String} {a : Aggregation}
    (hget : d.aggregations.get? field = some a) :
    order? d.toJson field = some (.ofMembers [(a.orderKey, .string a.orderDirection.word)]) := by
  have hentries : d.aggregations.isEmpty = false :=
    List.isEmpty_eq_false_iff_exists_mem.2 ⟨_, FieldMap.mem_entries_iff.2 hget⟩
  have hcounted : d.aggregationsJson.get? field = some a.toJson := by
    have hlookup := FieldMap.get?_mapValues (fun _ a => a.toJson) d.aggregations field
    rw [hget] at hlookup
    exact hlookup
  unfold order?
  rw [get?_aggregations, hentries, if_neg Bool.false_ne_true]
  have hterms : a.toJson.get? "terms" = some (.ofMembers [("field", .string a.field),
      ("size", .ofUInt32 a.size),
      ("order", .ofMembers [(a.orderKey, .string a.orderDirection.word)])]) :=
    Json.get?_ofMembers_singleton "terms" _
  show (d.aggregationsJson.get? field >>= fun counted =>
    counted.get? "terms" >>= fun terms => terms.get? "order") = _
  rw [hcounted, Option.bind_eq_bind, Option.bind_some, hterms]
  exact Json.get?_ofMembers_concat "order" _ [("field", .string a.field), ("size", .ofUInt32 a.size)]

/-- The buckets of an alphanumeric facet are ordered by keys, upwards. -/
theorem order?_of_isAlphanumeric {settings : Settings} {catalog : Catalog} {r : Request}
    {field : String} (dialect : Dialect) (hr : r.aggregations = true)
    (h : Aggregation.isAlphanumeric catalog.registry r field = true) :
    order? (build { settings with dialect := dialect } catalog r).toJson field
      = some (.ofMembers [(dialect.keyOrder, .string "asc")]) := by
  obtain ⟨a, hget⟩ :=
    Aggregation.exists_of_isAlphanumeric { settings with dialect := dialect } hr h
  obtain ⟨hkey, hdirection⟩ := Aggregation.orderKey_of_isAlphanumeric hget h
  have horder : order? (build { settings with dialect := dialect } catalog r).toJson field
      = some (.ofMembers [(a.orderKey, .string a.orderDirection.word)]) := order?_toJson hget
  rw [horder, hkey, hdirection]
  rfl

/-- The start of the window stands in the document when it has one. -/
theorem get?_from (d : Document) : d.toJson.get? "from" = d.start.map .ofUInt64 := by
  have hopening : FieldMap.lookupEntries "from" d.opening.reverse = none :=
    FieldMap.lookupEntries_reverse_eq_none
      (ne_of_mem_opening (by decide) (by decide) (by decide))
  rw [toJson_eq, Json.get?_ofMembers_append _ fun e he => ne_of_mem_optionMember (by decide) he,
    Json.get?_ofMembers, List.reverse_append, FieldMap.lookupEntries_append,
    Json.lookupEntries_optionMember, if_pos rfl, hopening, Option.or_none]

end Document

/-! ## Two replies with one number of matches -/

namespace Reply

/-- A reply with the total as it is given, whatever else the reply and its hits hold. -/
def withTotal (members hits : List (String × Json)) (total : Json) : Json :=
  .ofMembers (members ++ [("hits", .ofMembers (hits ++ [("total", total)]))])

/-- The total in the shape of modern engines: a number beside other members. -/
def wrappedTotal (more : List (String × Json)) (n : UInt64) : Json :=
  .ofMembers (more ++ [("value", .ofUInt64 n)])

variable {members hits : List (String × Json)}

theorem get?_withTotal_of_ne {key : String} (hne : "hits" ≠ key) (total : Json) :
    (withTotal members hits total).get? key = (Json.ofMembers members).get? key :=
  Json.get?_ofMembers_append members fun e he => by
    rw [List.mem_singleton.1 he]
    exact hne

theorem engineError?_withTotal (total : Json) :
    engineError? (withTotal members hits total) = engineError? (.ofMembers members) := by
  unfold engineError?
  rw [get?_withTotal_of_ne (by decide)]

theorem get?_hits_withTotal (total : Json) : (withTotal members hits total).get? "hits"
    = some (.ofMembers (hits ++ [("total", total)])) :=
  Json.get?_ofMembers_concat "hits" _ members

theorem totalHits_withTotal (total : Json) : totalHits (withTotal members hits total)
    = (total.asUInt64? <|> (total.get? "value").bind Json.asUInt64?).getD 0 := by
  unfold totalHits
  rw [get?_hits_withTotal, Option.bind_some, Json.get?_ofMembers_concat]

/-- A bare number is the number of matches. -/
theorem totalHits_bare (n : UInt64) : totalHits (withTotal members hits (.ofUInt64 n)) = n := by
  rw [totalHits_withTotal, readsBack_uint64 n]
  rfl

/-- A number beside other members is the number of matches. -/
theorem totalHits_wrapped (more : List (String × Json)) (n : UInt64) :
    totalHits (withTotal members hits (wrappedTotal more n)) = n := by
  have hvalue : (wrappedTotal more n).get? "value" = some (.ofUInt64 n) :=
    Json.get?_ofMembers_concat "value" _ more
  have hobject : (wrappedTotal more n).asUInt64? = none := rfl
  rw [totalHits_withTotal, hvalue, Option.bind_some, readsBack_uint64 n, hobject]
  rfl

/-- The total is not among the documents of the page. -/
theorem hits_withTotal (total other : Json) :
    Reply.hits (withTotal members hits total) = Reply.hits (withTotal members hits other) := by
  have hne : ∀ total : Json, (Json.ofMembers (hits ++ [("total", total)])).get? "hits"
      = (Json.ofMembers hits).get? "hits" := fun total =>
    Json.get?_ofMembers_append hits fun e he => by
      rw [List.mem_singleton.1 he]
      exact show "total" ≠ "hits" by decide
  unfold Reply.hits
  rw [get?_hits_withTotal, get?_hits_withTotal, Option.bind_some, Option.bind_some, hne, hne]

end Reply

/-- The shape of the total makes no difference to what is read from a reply. -/
theorem Decoded.ofReply_withTotal (catalog : Catalog) (r : Request)
    (members hits more : List (String × Json)) (n : UInt64) :
    ofReply catalog r (Reply.withTotal members hits (Reply.wrappedTotal more n))
      = ofReply catalog r (Reply.withTotal members hits (.ofUInt64 n)) := by
  have hbuckets : ∀ field, Reply.buckets? (Reply.withTotal members hits (Reply.wrappedTotal more n))
      field = Reply.buckets? (Reply.withTotal members hits (.ofUInt64 n)) field := by
    intro field
    unfold Reply.buckets?
    rw [Reply.get?_withTotal_of_ne (by decide), Reply.get?_withTotal_of_ne (by decide)]
  have hfacets : Facet.assemble (Reply.withTotal members hits (Reply.wrappedTotal more n))
      catalog.registry catalog.services
        = Facet.assemble (Reply.withTotal members hits (.ofUInt64 n)) catalog.registry
            catalog.services := by
    unfold Facet.assemble
    refine congrArg (List.filterMap · _) (funext fun e => ?_)
    rw [Facet.ofReply?, hbuckets, Facet.ofReply?]
  unfold ofReply Page.ofReply
  rw [Reply.engineError?_withTotal, Reply.engineError?_withTotal, hfacets,
    Reply.hits_withTotal (Reply.wrappedTotal more n) (.ofUInt64 n), Reply.totalHits_wrapped,
    Reply.totalHits_bare]

/-- A reply that reports no failure has a result, and the bare number is its count. -/
theorem Decoded.count_of_bare (catalog : Catalog) (r : Request) {members hits : List (String × Json)}
    {n : UInt64} (hreport : Reply.engineError? (Reply.withTotal members hits (.ofUInt64 n)) = none) :
    ∃ d, ofReply catalog r (Reply.withTotal members hits (.ofUInt64 n)) = .ok d ∧ d.count = n := by
  unfold ofReply
  rw [hreport]
  exact ⟨_, rfl, Reply.totalHits_bare n⟩

namespace Finder

/-- The engine answers the document of a run: the reply is what becomes of the document that is sent
after all those that were given up. -/
def Session.Answered (service : SearchService) (r : Request) (earlier : List Json)
    (steps : List Step) (reply : Json) : Prop :=
  service.transport (earlier.length + ((start r earlier).run service steps).givenUp)
    ((Finder.new r).queryDocument service) = .answered reply

/-- An access after a run that is answered reads from the reply, or fails with the failure that the
reply reports. -/
theorem Session.call_of_reply {service : SearchService} {r : Request} {earlier : List Json}
    {steps : List Step} {reply : Json} {outcome : Except SearchError Decoded}
    (h : Answered service r earlier steps reply)
    (hread : Decoded.ofReply service.catalog r reply = outcome) (accessor : Accessor) :
    let s := (start r earlier).run service steps
    (s.finder.call service s.sent accessor).finder = ⟨r, .ofOutcome outcome⟩ ∧
      (s.finder.call service s.sent accessor).answer
        = some (outcome.bind fun d => accessor.read d) := by
  intro s
  have hx : Execution.ofDelivery service.catalog r (service.transport
      (earlier.length + s.givenUp) ((Finder.new r).queryDocument service))
        = .ofOutcome outcome := by
    rw [show service.transport _ _ = .answered reply from h, Execution.ofDelivery, hread]
  obtain ⟨hfinder, hanswer⟩ := call_of_run hx accessor
  rw [Execution.isDone_ofOutcome, if_pos rfl, Execution.outcome_ofOutcome] at hanswer
  exact ⟨hfinder, hanswer⟩

end Finder

/-! ## The main statement -/

/-- **The two dialects differ only where they must.** For every registry, boosts, caps and request,
the document of the legacy dialect is that of the modern one, changed in two places: the counts for
alphanumeric facets are ordered by `_term` where they were ordered by `_key`, and the start of the
window is zero where it was left out. And take any two runs of finders with one request and one
catalog, one answered by a reply with a bare number of matches and the other by the same reply with
that number beside other members: every access comes to the same, and if the reply reports no
failure, it is read from one result that counts this number. -/
theorem dialects_differ_in_order_and_start (settings : Settings) (catalog : Catalog) (r : Request) :
    let document (dialect : Dialect) : Json :=
      (Document.build { settings with dialect := dialect } catalog r).toJson
    let alphanumeric := Aggregation.isAlphanumeric catalog.registry r
    document .legacy = Document.legacyForm alphanumeric (document .modern) ∧
    (∀ field, r.aggregations = true → alphanumeric field = true →
      Document.order? (document .modern) field = some (.ofMembers [("_key", .string "asc")]) ∧
      Document.order? (document .legacy) field = some (.ofMembers [("_term", .string "asc")])) ∧
    ((document .modern).get? "from" = none ↔ r.start = 0) ∧
    (document .legacy).get? "from" = some (.ofUInt64 r.start) ∧
    ∀ (n : UInt64) (members hits more : List (String × Json)) (settings' : Settings)
      (transport transport' : Transport) (earlier earlier' : List Json)
      (steps steps' : List Finder.Step),
      let bare := Reply.withTotal members hits (.ofUInt64 n)
      let wrapped := Reply.withTotal members hits (Reply.wrappedTotal more n)
      let service : SearchService := ⟨settings, catalog, transport⟩
      let service' : SearchService := ⟨settings', catalog, transport'⟩
      let s := (Finder.Session.start r earlier).run service steps
      let s' := (Finder.Session.start r earlier').run service' steps'
      Finder.Session.Answered service r earlier steps bare →
      Finder.Session.Answered service' r earlier' steps' wrapped →
      (∀ accessor,
        (s.finder.call service s.sent accessor).finder
          = (s'.finder.call service' s'.sent accessor).finder ∧
        (s.finder.call service s.sent accessor).answer
          = (s'.finder.call service' s'.sent accessor).answer) ∧
      (Reply.engineError? bare = none → ∃ d : Decoded, d.count = n ∧ ∀ accessor,
        (s.finder.call service s.sent accessor).answer = some (accessor.read d) ∧
        (s'.finder.call service' s'.sent accessor).answer = some (accessor.read d)) := by
  intro document alphanumeric
  refine ⟨?_, fun field hr h => ?_, ?_, ?_, ?_⟩
  · show (Document.build { settings with dialect := .legacy } catalog r).toJson = _
    rw [Document.build_legacy]
    exact Document.toJson_inLegacy fun field a hget h =>
      (Aggregation.orderKey_of_isAlphanumeric hget h).1
  · exact ⟨Document.order?_of_isAlphanumeric .modern hr h,
      Document.order?_of_isAlphanumeric .legacy hr h⟩
  · show (Document.build _ _ _).toJson.get? "from" = none ↔ _
    rw [Document.get?_from, Document.start_modern, Option.map_eq_none_iff]
    simp
  · show (Document.build _ _ _).toJson.get? "from" = _
    rw [Document.get?_from, Document.start_legacy]
    rfl
  · intro n members hits more settings' transport transport' earlier earlier' steps steps' bare
      wrapped service service' s s' hbare hwrapped
    have hread : Decoded.ofReply catalog r wrapped = Decoded.ofReply catalog r bare :=
      Decoded.ofReply_withTotal catalog r members hits more n
    have hcall := Finder.Session.call_of_reply hbare rfl
    have hcall' := Finder.Session.call_of_reply hwrapped hread
    refine ⟨fun accessor => ⟨?_, ?_⟩, fun hreport => ?_⟩
    · exact (hcall accessor).1.trans (hcall' accessor).1.symm
    · exact (hcall accessor).2.trans (hcall' accessor).2.symm
    · obtain ⟨d, hd, hcount⟩ := Decoded.count_of_bare catalog r hreport
      rw [show Decoded.ofReply service.catalog r bare = .ok d from hd] at hcall hcall'
      exact ⟨d, hcount, fun accessor => ⟨(hcall accessor).2, (hcall' accessor).2⟩⟩

/-- A facet of a field that is itself called `_key`: the name of the field stays, and its buckets are
ordered by `_term`. Two replies with seven matches, one in the shape of each dialect, are counted
alike. -/
theorem field_named_key_in_two_dialects :
    let element := (Element.plain "_key" .system).asFacetable .alphanumeric
    let catalog : Catalog := ⟨⟨[element], by decide⟩, .empty, .empty⟩
    let r := Request.initial
    let document (dialect : Dialect) : Json :=
      (Document.build { Settings.usual with dialect := dialect } catalog r).toJson
    let hits := [("hits", Json.array [])]
    let bare := Reply.withTotal [] hits (.ofUInt64 7)
    let wrapped := Reply.withTotal [] hits (Reply.wrappedTotal [("relation", .string "eq")] 7)
    let legacy : SearchService :=
      ⟨{ Settings.usual with dialect := .legacy }, catalog, fun _ _ => .answered bare⟩
    let modern : SearchService := ⟨.usual, catalog, fun _ _ => .answered wrapped⟩
    Document.order? (document .modern) "_key" = some (.ofMembers [("_key", .string "asc")]) ∧
    Document.order? (document .legacy) "_key" = some (.ofMembers [("_term", .string "asc")]) ∧
    ((Finder.new r).call legacy [] .count).answer = some (.ok (.count 7)) ∧
    ((Finder.new r).call modern [] .count).answer = some (.ok (.count 7)) := by
  intro element catalog r document hits bare wrapped legacy modern
  have hbare : Finder.Session.Answered legacy r [] [] bare := rfl
  have hwrapped : Finder.Session.Answered modern r [] [] wrapped := rfl
  obtain ⟨-, horder, -, -, hanswers⟩ := dialects_differ_in_order_and_start legacy.settings catalog r
  obtain ⟨hmodern, hlegacy⟩ := horder "_key" rfl rfl
  obtain ⟨-, hread⟩ := hanswers 7 [] hits [("relation", .string "eq")] modern.settings
    legacy.transport modern.transport [] [] [] [] hbare hwrapped
  obtain ⟨d, hcount, hanswer⟩ := hread rfl
  obtain ⟨hcalled, hcalled'⟩ := hanswer .count
  rw [Accessor.read, hcount] at hcalled hcalled'
  exact ⟨hmodern, hlegacy, hcalled, hcalled'⟩

end HarvestSearch
