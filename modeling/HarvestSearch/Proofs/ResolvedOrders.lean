/-
The sort orders of a command line, from the text to the document.

What is typed for an order goes through three hands (`gleaner_query::build_request`). The text is
cut at its last colon (`SortOrder.Parts`), the field may be the name of an element and then stands
for that element's sort field (`Registry.StandsFor`), and the order is written as a sort clause of
the document. `Arguments.Resolves` says what an order of the document has to do with the text it
comes from, and nothing in it depends on the other texts of the command line. That is so because the
texts are read one by one, up to the first that names no field (`Arguments.orders_eq_mapM`).

The clauses are read off the JSON again by `SortOrder.ofClause?`. The rank of a match is written
without a type and a field may be sorted by twice, and neither keeps a clause from being read
(`SortOrder.readsBack_toClause`). `Arguments.sorts_resolved` is the main statement.
-/
import HarvestSearch.CommandLine
import HarvestSearch.Proofs.EntriesInOrder
import HarvestSearch.Proofs.SpelledOrders
import HarvestSearch.Proofs.WellFormedDocuments
import HarvestSearch.Proofs.WrittenRecords
import HarvestSearch.Sample

set_option autoImplicit false

namespace HarvestSearch

/-! ## Names of sort fields -/

namespace Registry

/-- What a name stands for where a field to sort by is expected: the sort field of the sortable element
of that name, and the name itself when there is no such element. -/
inductive StandsFor (registry : Registry) (name : String) : String → Prop where
  | element {e : Element} (he : e ∈ registry.elements) (hname : e.name = name)
      (hsortable : e.sortable = true) : StandsFor registry name e.sortField
  | name (h : ∀ e ∈ registry.elements, e.name = name → e.sortable = false) :
    StandsFor registry name name

variable {registry : Registry} {name : String}

theorem find?_eq_none_iff :
    registry.find? name = none ↔ ∀ e ∈ registry.elements, e.name ≠ name := by
  simp [find?]

/-- There is one element of a name at most. -/
theorem find?_eq_some_iff {e : Element} :
    registry.find? name = some e ↔ e ∈ registry.elements ∧ e.name = name := by
  have hfound : ∀ {e : Element}, registry.find? name = some e →
      e ∈ registry.elements ∧ e.name = name := fun h =>
    ⟨List.mem_of_find?_eq_some h, by simpa using List.find?_some h⟩
  refine ⟨hfound, fun ⟨he, hname⟩ => ?_⟩
  cases h : registry.find? name with
  | none => exact absurd hname (find?_eq_none_iff.1 h e he)
  | some other =>
    obtain ⟨hother, hsame⟩ := hfound h
    rw [List.inj_on_of_nodup_map registry.distinct hother he (hsame.trans hname.symm)]

theorem StandsFor.unique {field other : String} (h : registry.StandsFor name field)
    (hother : registry.StandsFor name other) : field = other := by
  cases h with
  | @element e he hname hsortable =>
    cases hother with
    | @element e' he' hname' _ =>
      rw [List.inj_on_of_nodup_map registry.distinct he he' (hname.trans hname'.symm)]
    | name hnone => exact absurd (hnone e he hname) (by simp [hsortable])
  | name hnone =>
    cases hother with
    | @element e he hname hsortable => exact absurd (hnone e he hname) (by simp [hsortable])
    | name _ => rfl

end Registry

/-! ## Sort clauses -/

/-- The order that a sort clause asks for: the name of its one member, and the direction told there. -/
def SortOrder.ofClause? : Json → Option SortOrder
  | .object [(field, options)] =>
    (options.field "order" SortDirection.ofJson?).map fun direction => ⟨field, direction⟩
  | _ => none

/-- A clause is read back, whether or not it tells a type. -/
theorem SortOrder.readsBack_toClause : ReadsBack toClause ofClause? := by
  intro order
  have hne : "unmapped_type" ≠ "order" := by decide
  obtain ⟨options, hoptions, hclause⟩ : ∃ options,
      options.get? "order" = some (.string order.direction.word) ∧
        order.toClause = .object [(order.field, options)] := by
    refine ⟨_, ?_, rfl⟩
    by_cases hscore : order.field = Field.score
    · rw [if_pos hscore]
      exact Json.get?_ofMembers_singleton "order" _
    · rw [if_neg hscore]
      exact Json.get?_ofMembers_cons _ fun e he => List.mem_singleton.1 he ▸ hne
  have hdirection : options.field "order" SortDirection.ofJson? = some order.direction :=
    readsBack_sortDirection.field hoptions
  rw [hclause, ofClause?, hdirection]
  rfl

namespace Document

/-- The sort clauses of a document. A document that does not sort has none. -/
def sortClauses (document : Json) : List Json :=
  ((document.get? "sort").bind Json.asArray?).getD []

theorem sortClauses_toJson (d : Document) :
    sortClauses d.toJson = d.sort.map SortOrder.toClause := by
  unfold sortClauses
  by_cases hnone : d.sort = []
  · have habsent : d.toJson.get? "sort" = none := by
      refine Option.eq_none_iff_forall_ne_some.2 fun clauses hclauses => ?_
      exact (d.get?_sort_eq_some_iff.1 hclauses).1 hnone
    rw [habsent, hnone]
    rfl
  · rw [d.get?_sort_eq_some_iff.2 ⟨hnone, rfl⟩]
    rfl

end Document

/-! ## One text -/

namespace Arguments

variable {catalog : Catalog} {raw : String} {order : SortOrder}

/-- The text names no field: nothing but white space stands before its last colon, or in all of it if it
has no colon. -/
def LacksField (raw : String) : Prop :=
  ∃ front back, SortOrder.Parts raw front back ∧ Text.isBlank front = true

/-- What the order of a text is. Its field is what the trimmed text before the last colon stands for,
and it is descending exactly if what stands behind the last colon is a spelling of that direction. -/
def Resolves (registry : Registry) (raw : String) (order : SortOrder) : Prop :=
  ∃ front back, SortOrder.Parts raw front back ∧
    registry.StandsFor (Text.trim front) order.field ∧
    (order.direction = .desc ↔ ∃ text, back = some text ∧ SortDirection.Spells text .desc)

/-- Reads one order and looks its field up. -/
def readOrder (catalog : Catalog) (raw : String) : Except SortFault SortOrder :=
  match SortOrder.parse? raw with
  | none => .error ⟨raw⟩
  | some order => .ok (resolveOrder catalog order)

theorem readOrder_eq_error_iff {fault : SortFault} :
    readOrder catalog raw = .error fault ↔ LacksField raw ∧ fault = ⟨raw⟩ := by
  rw [LacksField, ← SortOrder.parse?_eq_none_iff, readOrder]
  cases SortOrder.parse? raw with
  | none => simp [eq_comm]
  | some order => simp

theorem exists_readOrder_eq_ok_iff :
    (∃ order, readOrder catalog raw = .ok order) ↔ ¬LacksField raw := by
  rw [LacksField, ← SortOrder.parse?_eq_none_iff, readOrder]
  cases SortOrder.parse? raw with
  | none => simp
  | some order => simp

theorem field_resolveOrder (catalog : Catalog) (order : SortOrder) :
    catalog.registry.StandsFor order.field (resolveOrder catalog order).field := by
  unfold resolveOrder
  cases hfound : catalog.registry.find? order.field with
  | none => exact .name fun e he hname => absurd hname (Registry.find?_eq_none_iff.1 hfound e he)
  | some e =>
    obtain ⟨he, hname⟩ := Registry.find?_eq_some_iff.1 hfound
    by_cases hsortable : e.sortable = true
    · simp only [if_pos hsortable]
      exact .element he hname hsortable
    · simp only [if_neg hsortable]
      refine .name fun other hother hsame => ?_
      -- the element that was found is the only one of the name
      rw [Registry.find?_eq_some_iff.2 ⟨hother, hsame⟩] at hfound
      rw [Option.some.inj hfound, ← Bool.not_eq_true]
      exact hsortable

theorem direction_resolveOrder (catalog : Catalog) (order : SortOrder) :
    (resolveOrder catalog order).direction = order.direction := by
  unfold resolveOrder
  cases catalog.registry.find? order.field with
  | none => rfl
  | some e =>
    by_cases hsortable : e.sortable = true
    · simp only [if_pos hsortable]
      rfl
    · simp only [if_neg hsortable]

/-- A text stands for one order at most. -/
theorem Resolves.unique {registry : Registry} {other : SortOrder} (h : Resolves registry raw order)
    (hother : Resolves registry raw other) : order = other := by
  obtain ⟨front, back, hparts, hfield, hdirection⟩ := h
  obtain ⟨front', back', hparts', hfield', hdirection'⟩ := hother
  obtain ⟨rfl, rfl⟩ := hparts.unique hparts'
  have hsame : order.direction = .desc ↔ other.direction = .desc :=
    hdirection.trans hdirection'.symm
  obtain ⟨field, direction⟩ := order
  obtain ⟨field', direction'⟩ := other
  obtain rfl : field = field' := hfield.unique hfield'
  obtain rfl : direction = direction' := by
    cases direction <;> cases direction' <;> simp at hsame ⊢
  rfl

theorem resolves_of_readOrder (h : readOrder catalog raw = .ok order) :
    Resolves catalog.registry raw order := by
  unfold readOrder at h
  cases hparse : SortOrder.parse? raw with
  | none =>
    rw [hparse] at h
    cases h
  | some parsed =>
    rw [hparse] at h
    cases h
    obtain ⟨front, back, hparts, -, rfl⟩ := SortOrder.parse?_eq_some_iff.1 hparse
    refine ⟨front, back, hparts,
      field_resolveOrder catalog ⟨Text.trim front, .ofPart back⟩, ?_⟩
    rw [direction_resolveOrder]
    cases back with
    | none => simp [SortDirection.ofPart]
    | some text => simp [SortDirection.ofPart, SortDirection.ofWord_eq_desc_iff]

/-! ## All texts of a command line -/

/-- The texts are read one by one. -/
theorem orders_eq_mapM (catalog : Catalog) (raws : List String) :
    orders catalog raws = raws.mapM (readOrder catalog) := by
  induction raws with
  | nil => rfl
  | cons raw raws ih =>
    rw [List.mapM_cons, orders, readOrder, ih]
    cases SortOrder.parse? raw with
    | none => rfl
    | some order => rfl

variable {a : Arguments}

theorem request_eq_error_iff {fault : SortFault} :
    a.request catalog = .error fault ↔ a.sorts.mapM (readOrder catalog) = .error fault := by
  rw [request, Except.bind_eq_error_iff, orders_eq_mapM]
  simp [pure, Except.pure]

theorem request_eq_ok_iff {r : Request} : a.request catalog = .ok r ↔
    ∃ orders, a.sorts.mapM (readOrder catalog) = .ok orders ∧
      Request.initial.applyAll (a.calls orders) = r := by
  rw [request, Except.bind_eq_ok_iff, orders_eq_mapM]
  simp [pure, Except.pure]

/-- One call of a command line sets the orders, and no other touches them. -/
theorem orders_applyAll_calls (a : Arguments) (orders : List SortOrder) :
    (Request.initial.applyAll (a.calls orders)).orders = orders := by
  simp only [calls, Request.applyAll, List.foldl_append]
  cases a.query <;> cases a.service <;> cases a.limit <;> rfl

/-- The request is made unless a text names no field, and the first such text is told. -/
theorem request_eq_error_iff_first {fault : SortFault} : a.request catalog = .error fault ↔
    ∃ front back, a.sorts = front ++ fault.raw :: back ∧
      (∀ raw ∈ front, ¬LacksField raw) ∧ LacksField fault.raw := by
  rw [request_eq_error_iff, Except.mapM_eq_error_iff]
  simp only [exists_readOrder_eq_ok_iff, readOrder_eq_error_iff]
  constructor
  · rintro ⟨front, raw, back, hsorts, hfront, hraw, rfl⟩
    exact ⟨front, back, hsorts, hfront, hraw⟩
  · rintro ⟨front, back, hsorts, hfront, hraw⟩
    exact ⟨front, fault.raw, back, hsorts, hfront, hraw, rfl⟩

theorem exists_request_eq_ok_iff :
    (∃ r, a.request catalog = .ok r) ↔ ∀ raw ∈ a.sorts, ¬LacksField raw := by
  simp only [request_eq_ok_iff, ← @exists_readOrder_eq_ok_iff catalog,
    ← Except.exists_mapM_eq_ok_iff]
  constructor
  · rintro ⟨_, orders, horders, -⟩
    exact ⟨orders, horders⟩
  · rintro ⟨orders, horders⟩
    exact ⟨_, orders, horders, rfl⟩

/-! ## The main statement -/

/-- **Sort orders are resolved one for one or not at all.** For every command line and every catalog,
the request fails exactly if some text for an order names no field, and tells the first of them. If it
is made, the document has one sort clause for each text, in the same order. The clause of a text reads
as the one order that the text stands for in the catalog, and all clauses read together are the orders
of the request. -/
theorem sorts_resolved (a : Arguments) (catalog : Catalog) :
    ((∃ fault, a.request catalog = .error fault) ↔ ∃ raw ∈ a.sorts, LacksField raw) ∧
    (∀ fault, a.request catalog = .error fault ↔
      ∃ front back, a.sorts = front ++ fault.raw :: back ∧
        (∀ raw ∈ front, ¬LacksField raw) ∧ LacksField fault.raw) ∧
    ∀ r, a.request catalog = .ok r → ∀ settings,
      let clauses := Document.sortClauses (Document.build settings catalog r).toJson
      List.Forall₂ (fun raw clause => ∃ order, SortOrder.ofClause? clause = some order ∧
        ∀ other, Resolves catalog.registry raw other ↔ other = order) a.sorts clauses ∧
      clauses.mapM SortOrder.ofClause? = some r.orders := by
  refine ⟨?_, fun fault => request_eq_error_iff_first, fun r hr settings => ?_⟩
  · have hok := @exists_request_eq_ok_iff catalog a
    cases hrequest : a.request catalog with
    | error fault =>
      rw [hrequest] at hok
      simpa using hok
    | ok r =>
      rw [hrequest] at hok
      simpa using hok
  · obtain ⟨orders, horders, hr⟩ := request_eq_ok_iff.1 hr
    have hsort : (Document.build settings catalog r).sort = orders := by
      rw [← hr]
      exact orders_applyAll_calls a orders
    intro clauses
    have hclauses : clauses = orders.map SortOrder.toClause := by
      rw [← hsort]
      exact Document.sortClauses_toJson _
    rw [hclauses, ← hr, orders_applyAll_calls]
    refine ⟨?_, mapM_map_eq_some SortOrder.readsBack_toClause orders⟩
    rw [List.forall₂_map_right_iff]
    refine (Except.forall₂_of_mapM horders).imp fun raw order hread => ?_
    have hresolves := resolves_of_readOrder hread
    exact ⟨order, SortOrder.readsBack_toClause order, fun other =>
      ⟨fun h => h.unique hresolves, fun h => h ▸ hresolves⟩⟩

/-- An element by its name in both directions, the rank of a match, and a field with a colon that is
the name of no element. And a command line with two texts that name no field. -/
theorem sorts_of_title_and_rank :
    let a : Arguments :=
      { (default : Arguments) with sorts := ["title:desc", " _score", "dc:date: DESC", "title"] }
    let b : Arguments := { (default : Arguments) with sorts := ["title", " :desc", ""] }
    (∃ r, a.request Sample.catalog = .ok r ∧
      r.orders = [⟨"local_title.sort", .desc⟩, ⟨"_score", .asc⟩, ⟨"dc:date", .desc⟩,
        ⟨"local_title.sort", .asc⟩] ∧
      (Document.sortClauses (Document.build .usual Sample.catalog r).toJson).mapM
        SortOrder.ofClause? = some r.orders) ∧
    (¬LacksField "title" ∧ LacksField " :desc") ∧
    b.request Sample.catalog = .error ⟨" :desc"⟩ ∧
    SortFault.message ⟨" :desc"⟩ = "Sort order ' :desc' must name a field." := by
  intro a b
  obtain ⟨-, -, hresolved⟩ := sorts_resolved a Sample.catalog
  obtain ⟨-, hfirst, -⟩ := sorts_resolved b Sample.catalog
  have hthere : ¬LacksField "title" := by
    rw [LacksField, ← SortOrder.parse?_eq_none_iff]
    decide
  have hlacks : LacksField " :desc" := by
    rw [LacksField, ← SortOrder.parse?_eq_none_iff]
    decide
  have hread : a.sorts.mapM (readOrder Sample.catalog) = .ok [⟨"local_title.sort", .desc⟩,
      ⟨"_score", .asc⟩, ⟨"dc:date", .desc⟩, ⟨"local_title.sort", .asc⟩] := rfl
  obtain ⟨r, hr, horders⟩ : ∃ r, a.request Sample.catalog = .ok r ∧ r.orders = _ :=
    ⟨_, request_eq_ok_iff.2 ⟨_, hread, rfl⟩, orders_applyAll_calls a _⟩
  refine ⟨⟨r, hr, horders, (hresolved r hr .usual).2⟩, ⟨hthere, hlacks⟩, ?_, by decide⟩
  exact (hfirst _).2 ⟨["title"], [""], rfl, by simpa using hthere, hlacks⟩

end Arguments

end HarvestSearch
