/-
What is printed can be read.

A dry run of `gleaner_query::run` prints a query document and a real run a `gleaner_query::Report`,
and both texts are read back: the document as it is, because its members are written in the order of
their names (`parse?_pretty_build`), and the report by the reader of its parts, whatever order their
members come in (`ofJson?_of_printed`).

A document is as deep as its deepest member and its whole numbers are words or bounded strengths, so
`Json.InOrder` is shown writer by writer, with the depth that each of them adds.
-/
import HarvestSearch.Program
import HarvestSearch.Proofs.IndentedText
import HarvestSearch.Proofs.WrittenRecords

set_option autoImplicit false

namespace HarvestSearch

/-! ## Values in order -/

namespace Json

variable {depth : Nat}

/-- Values that come back from their text as they are: the members of their objects are in name
order. -/
structure InOrder (depth : Nat) (j : Json) : Prop where
  plain : Plain depth j
  sorted_eq : j.sorted = j

theorem InOrder.parse?_pretty {j : Json} (h : InOrder maxDepth j) :
    parse? (j.pretty ++ "\n") = some j := by
  rw [Json.parse?_pretty h.plain, h.sorted_eq]

theorem inOrder_bool (b : Bool) : InOrder depth (.bool b) := ⟨.bool b, rfl⟩

theorem inOrder_string (s : String) : InOrder depth (.string s) := ⟨.string s, rfl⟩

theorem inOrder_int {n : Int} (h : InWords n) : InOrder depth (.int n) := ⟨.int h, rfl⟩

theorem inWords_uint64 (n : UInt64) : InWords n.toNat := by
  have hlt := n.toNat_lt
  unfold InWords signedMagnitude maxWord
  omega

theorem inWords_uint32 (n : UInt32) : InWords n.toNat := by
  have hlt := n.toNat_lt
  unfold InWords signedMagnitude maxWord
  omega

theorem InOrder.array {items : List Json} (h : ∀ item ∈ items, InOrder depth item) :
    InOrder (depth + 1) (.array items) := by
  refine ⟨.array fun item hitem => (h item hitem).plain, ?_⟩
  rw [sorted_array, List.map_congr_left fun item hitem => (h item hitem).sorted_eq, List.map_id']

/-- The members are put in order, and so are their values. -/
theorem sorted_ofMembers (members : List (String × Json)) :
    (ofMembers members).sorted = .ofMembers (members.map fun e => (e.1, e.2.sorted)) := by
  let values := (FieldMap.ofList members).mapValues fun _ value => value.sorted
  have hvalues : values = .ofList (members.map fun e => (e.1, e.2.sorted)) :=
    FieldMap.mapValues_ofList (fun _ value => value.sorted) members
  rw [ofMembers, ofMap, sorted_object]
  exact congrArg ofMap ((FieldMap.ofList_entries values).trans hvalues)

theorem InOrder.ofMembers {members : List (String × Json)}
    (h : ∀ e ∈ members, InOrder depth e.2) : InOrder (depth + 1) (.ofMembers members) := by
  refine ⟨.object fun e he => ?_, ?_⟩
  · have hfound : (FieldMap.ofList members).get? e.1 = some e.2 := FieldMap.mem_entries_iff.1 he
    rw [FieldMap.get?_ofList] at hfound
    exact (h e (List.mem_reverse.1 (FieldMap.mem_of_lookupEntries hfound))).plain
  · have hvalues : (members.map fun e => (e.1, e.2.sorted)) = members.map id :=
      List.map_congr_left fun e he => Prod.ext rfl (h e he).sorted_eq
    rw [sorted_ofMembers, hvalues, List.map_id]

theorem InOrder.ofMember {value : Json} (h : InOrder depth value) (key : String) :
    InOrder (depth + 1) (.ofMembers [(key, value)]) :=
  .ofMembers fun e he => by
    rw [List.mem_singleton.1 he]
    exact h

theorem inOrder_ofStrings (items : List String) : InOrder (depth + 1) (.ofStrings items) :=
  .array (List.forall_mem_map.2 fun s _ => inOrder_string s)

theorem InOrder.of_mem_listMember {key : String} {items : List Json} {e : String × Json}
    (h : ∀ item ∈ items, InOrder depth item) (he : e ∈ listMember key items) :
    InOrder (depth + 1) e.2 := by
  obtain ⟨-, rfl⟩ := mem_listMember.1 he
  exact .array h

end Json

open Json (InOrder)

/-! ## Documents -/

variable {depth : Nat}

theorem Clause.inOrder (c : Clause) : InOrder (depth + 3) c.toJson := by
  cases c with
  | matchAll =>
    have hall : InOrder (depth + 2) (.ofMembers []) := .ofMembers (by simp)
    exact hall.ofMember _
  | queryString expression field =>
    exact .ofMember (.ofMembers (by simp [Json.inOrder_string, Json.inOrder_bool])) _
  | term field value => exact .ofMember ((Json.inOrder_string value).ofMember field) _
  | terms field values => exact .ofMember ((Json.inOrder_ofStrings values).ofMember field) _
  | hasValue field => exact .ofMember ((Json.inOrder_string field).ofMember _) _

theorem Clause.inOrder_list {clauses : List Clause} :
    ∀ item ∈ clauses.map Clause.toJson, InOrder (depth + 3) item :=
  List.forall_mem_map.2 fun c _ => c.inOrder

theorem BoolQuery.inOrder (q : BoolQuery) : InOrder (depth + 6) q.toJson := by
  refine .ofMember (.ofMembers fun e he => ?_) _
  rcases List.mem_cons.1 he with rfl | he
  · exact .array Clause.inOrder_list
  rcases List.mem_append.1 he with he | he
  · exact .of_mem_listMember Clause.inOrder_list he
  · exact .of_mem_listMember Clause.inOrder_list he

theorem ScoreFunction.inOrder {f : ScoreFunction} (h : Json.InWords f.weight) :
    InOrder (depth + 4) f.toJson :=
  .ofMembers (by simp [f.filter.inOrder, Json.inOrder_int h])

theorem ScoredQuery.inOrder {q : ScoredQuery} (h : ∀ f ∈ q.functions, Json.InWords f.weight) :
    InOrder (depth + 8) q.toJson := by
  have hboost : Json.InWords maxBoost := ⟨by decide, by decide⟩
  have hfunctions : ∀ item ∈ q.functions.map ScoreFunction.toJson, InOrder (depth + 5) item :=
    List.forall_mem_map.2 fun f hf => ScoreFunction.inOrder (h f hf)
  have hmodes : ∀ e ∈ [("score_mode", Json.string "max"), ("boost_mode", .string "multiply"),
      ("max_boost", .int maxBoost), ("boost", .int maxBoost)], InOrder (depth + 6) e.2 := by
    simp [Json.inOrder_string, Json.inOrder_int hboost]
  refine .ofMember (.ofMembers fun e he => ?_) _
  rcases List.mem_append.1 he with he | he
  · rcases List.mem_cons.1 he with rfl | he
    · exact q.query.inOrder
    · exact .of_mem_listMember hfunctions he
  · exact hmodes e he

theorem Aggregation.inOrder (a : Aggregation) : InOrder (depth + 3) a.toJson := by
  have hsize : InOrder (depth + 1) (.ofUInt32 a.size) :=
    Json.inOrder_int (Json.inWords_uint32 a.size)
  have horder : InOrder (depth + 1) (.ofMembers [(a.orderKey, .string a.orderDirection.word)]) :=
    (Json.inOrder_string _).ofMember _
  exact .ofMember (.ofMembers (by simp [Json.inOrder_string, hsize, horder])) _

theorem SortOrder.inOrder_toClause (order : SortOrder) : InOrder (depth + 2) order.toClause := by
  refine .ofMember (.ofMembers ?_) _
  split
  · simp [Json.inOrder_string]
  · simp [Json.inOrder_string]

/-- A document whose weights are kept comes back as it is. -/
theorem Document.inOrder {d : Document} (h : ∀ f ∈ d.query.functions, Json.InWords f.weight) :
    InOrder (depth + 9) d.toJson := by
  have haggregations : InOrder (depth + 8)
      (.object (d.aggregations.entries.map fun e => (e.1, e.2.toJson))) := by
    have hentries : (d.aggregations.mapValues fun _ a => a.toJson).entries
        = d.aggregations.entries.map fun e => (e.1, e.2.toJson) := rfl
    rw [← hentries, ← Json.ofMembers_of_sorted (FieldMap.sorted _)]
    refine .ofMembers fun e he => ?_
    obtain ⟨entry, -, rfl⟩ := List.mem_map.1 he
    exact entry.2.inOrder
  have hsort : ∀ item ∈ d.sort.map SortOrder.toClause, InOrder (depth + 7) item :=
    List.forall_mem_map.2 fun order _ => order.inOrder_toClause
  have hword : ∀ (key : String) (n : Option UInt64),
      ∀ e ∈ Json.optionMember key (n.map .ofUInt64), InOrder (depth + 8) e.2 := by
    intro key n e he
    obtain ⟨value, hvalue, rfl⟩ := Json.mem_optionMember.1 he
    obtain ⟨n, -, rfl⟩ := Option.map_eq_some_iff.1 hvalue
    exact Json.inOrder_int (Json.inWords_uint64 n)
  refine .ofMembers fun e he => ?_
  rcases List.mem_append.1 he with he | he
  · rcases List.mem_append.1 he with he | he
    · rcases List.mem_append.1 he with he | he
      · rcases List.mem_cons.1 he with rfl | he
        · exact ScoredQuery.inOrder h
        · cases hempty : d.aggregations.isEmpty with
          | true =>
            rw [if_pos hempty] at he
            cases he
          | false =>
            rw [if_neg (by simp [hempty]), List.mem_singleton] at he
            rw [he]
            exact haggregations
      · exact .of_mem_listMember hsort he
    · exact hword "from" d.start e he
  · exact hword "size" d.size e he

theorem inWords_clampBoost (strength : Int) : Json.InWords (clampBoost strength) := by
  unfold Json.InWords clampBoost maxBoost Json.signedMagnitude Json.maxWord
  omega

/-- **The document of a request is read from its text as it is.** -/
theorem Document.parse?_pretty_build (settings : Settings) (catalog : Catalog) (r : Request) :
    Json.parse? ((build settings catalog r).toJson.pretty ++ "\n")
      = some (build settings catalog r).toJson := by
  refine (inOrder fun f hf => ?_).parse?_pretty
  obtain ⟨boost, -, rfl⟩ := List.mem_map.1 hf
  exact inWords_clampBoost boost.strength

/-! ## Reports -/

namespace Json

/-- The names of the members of an object. -/
def memberNames : Json → List String
  | .object members => members.map (·.1)
  | _ => []

/-- A member is found in the value in order as it is found in the value. -/
theorem get?_sorted {j : Json} (hnames : j.memberNames.Nodup) {key : String} {value : Json}
    (h : j.get? key = some value) : j.sorted.get? key = some value.sorted := by
  cases j with
  | object members =>
    have hsorted : ((members.map fun e => (e.1, e.2.sorted)).map (·.1)).Nodup := by
      rwa [List.map_map]
    rw [sorted_object, get?_ofMembers, FieldMap.lookupEntries_reverse hsorted]
    exact (FieldMap.lookupEntries_map (fun _ value => value.sorted) members key).trans
      (congrArg (Option.map sorted) h)
  | _ => cases h

end Json

/-- A record is read from its written form in order. -/
def ReadsSorted {α : Type} (write : α → Json) (read : Json → Option α) : Prop :=
  ReadsBack (fun a => (write a).sorted) read

theorem ReadsSorted.field {α : Type} {write : α → Json} {read : Json → Option α}
    (h : ReadsSorted write read) {j : Json} (hnames : j.memberNames.Nodup) {key : String} {a : α}
    (hget : j.get? key = some (write a)) : j.sorted.field key read = some a :=
  ReadsBack.field h (Json.get?_sorted hnames hget)

theorem ReadsSorted.listOf {α : Type} {write : α → Json} {read : Json → Option α}
    (h : ReadsSorted write read) :
    ReadsSorted (fun as => .array (as.map write)) (Json.listOf read) := by
  intro as
  have hitems : (Json.array (as.map write)).sorted = .array (as.map fun a => (write a).sorted) := by
    rw [Json.sorted_array, List.map_map]
    rfl
  show Json.listOf read (Json.array (as.map write)).sorted = _
  rw [hitems]
  exact ReadsBack.listOf h as

theorem readsSorted_string : ReadsSorted Json.string Json.asString? := readsBack_string

theorem readsSorted_uint64 : ReadsSorted Json.ofUInt64 Json.asUInt64? := readsBack_uint64

theorem readsSorted_itemElement : ReadsSorted ItemElement.toJson ItemElement.ofJson? := by
  intro e
  have hnames : e.toJson.memberNames.Nodup := (by decide : ["name", "value"].Nodup)
  have hname : e.toJson.sorted.field "name" Json.asString? = some e.name :=
    readsSorted_string.field hnames rfl
  have hvalue : e.toJson.sorted.field "value" Json.asString? = some e.value :=
    readsSorted_string.field hnames rfl
  show ItemElement.ofJson? e.toJson.sorted = _
  rw [ItemElement.ofJson?, hname, hvalue]
  rfl

theorem readsSorted_item : ReadsSorted Item.toJson Item.ofJson? := by
  intro item
  have hnames : item.toJson.memberNames.Nodup :=
    (by decide : (Field.bookkeeping ++ [Field.elements]).Nodup)
  have hoption : ∀ {key : String} {o : Option String},
      item.toJson.get? key = some (Json.ofOption .string o) →
        item.toJson.sorted.fieldOption key Json.asString? = some o := by
    intro key o hget
    refine readsBack_string.fieldOption (fun _ => Json.noConfusion) ?_
    refine (Json.get?_sorted hnames hget).trans ?_
    cases o with
    | none => rfl
    | some text => rfl
  have hid : item.toJson.sorted.field Field.indexId Json.asString? = some item.indexId :=
    readsSorted_string.field hnames rfl
  have haddress : item.toJson.sorted.field Field.sourceUri Json.asString? = some item.sourceUri :=
    readsSorted_string.field hnames rfl
  have hservice : item.toJson.sorted.fieldOption Field.serviceKey Json.asString?
      = some item.serviceKey := hoption rfl
  have hvariant : item.toJson.sorted.fieldOption Field.variant Json.asString? = some item.variant :=
    hoption rfl
  have hparent : item.toJson.sorted.fieldOption Field.parentId Json.asString?
      = some item.parentId := hoption rfl
  have helements : item.toJson.sorted.field Field.elements (Json.listOf ItemElement.ofJson?)
      = some item.elements := readsSorted_itemElement.listOf.field hnames rfl
  show Item.ofJson? item.toJson.sorted = _
  rw [Item.ofJson?, hid, haddress, hservice, hvariant, hparent, helements]
  rfl

theorem readsSorted_bucket : ReadsSorted Bucket.toJson Bucket.ofJson? := by
  intro b
  have hnames : b.toJson.memberNames.Nodup := (by decide : ["name", "label", "count"].Nodup)
  have hname : b.toJson.sorted.field "name" Json.asString? = some b.name :=
    readsSorted_string.field hnames rfl
  have hlabel : b.toJson.sorted.field "label" Json.asString? = some b.label :=
    readsSorted_string.field hnames rfl
  have hcount : b.toJson.sorted.field "count" Json.asUInt64? = some b.count :=
    readsSorted_uint64.field hnames rfl
  show Bucket.ofJson? b.toJson.sorted = _
  rw [Bucket.ofJson?, hname, hlabel, hcount]
  rfl

theorem readsSorted_facet : ReadsSorted Facet.toJson Facet.ofJson? := by
  intro f
  have hnames : f.toJson.memberNames.Nodup := (by decide : ["name", "field", "buckets"].Nodup)
  have hname : f.toJson.sorted.field "name" Json.asString? = some f.name :=
    readsSorted_string.field hnames rfl
  have hfield : f.toJson.sorted.field "field" Json.asString? = some f.field :=
    readsSorted_string.field hnames rfl
  have hbuckets : f.toJson.sorted.field "buckets" (Json.listOf Bucket.ofJson?) = some f.buckets :=
    readsSorted_bucket.listOf.field hnames rfl
  show Facet.ofJson? f.toJson.sorted = _
  rw [Facet.ofJson?, hname, hfield, hbuckets]
  rfl

/-! ### Reports as text -/

open Json (Plain)

theorem Json.plain_uint64 (n : UInt64) : Plain depth (.ofUInt64 n) := .int (inWords_uint64 n)

theorem Json.plain_ofOption (o : Option String) : Plain depth (.ofOption .string o) := by
  cases o with
  | none => exact .null
  | some text => exact .string text

theorem ItemElement.plain (e : ItemElement) : Plain (depth + 1) e.toJson :=
  .object (by simp [Plain.string])

theorem Item.plain (item : Item) : Plain (depth + 3) item.toJson := by
  have helements : Plain (depth + 2) (.array (item.elements.map ItemElement.toJson)) :=
    .array (List.forall_mem_map.2 fun e _ => e.plain)
  exact .object (by simp [Plain.string, Json.plain_ofOption, helements])

theorem Bucket.plain (b : Bucket) : Plain (depth + 1) b.toJson :=
  .object (by simp [Plain.string, Json.plain_uint64])

theorem Facet.plain (f : Facet) : Plain (depth + 3) f.toJson := by
  have hbuckets : Plain (depth + 2) (.array (f.buckets.map Bucket.toJson)) :=
    .array (List.forall_mem_map.2 fun b _ => b.plain)
  exact .object (by simp [Plain.string, hbuckets])

namespace Program

/-- The report that a value tells, member by member. -/
def Report.ofJson? (j : Json) : Option Report := do
  pure {
    count := ← j.field "count" Json.asUInt64?
    facets := ← j.field "facets" (Json.listOf Facet.ofJson?)
    items := ← j.field "items" (Json.listOf Item.ofJson?) }

theorem readsSorted_report : ReadsSorted Report.toJson Report.ofJson? := by
  intro r
  have hnames : r.toJson.memberNames.Nodup := (by decide : ["count", "facets", "items"].Nodup)
  have hcount : r.toJson.sorted.field "count" Json.asUInt64? = some r.count :=
    readsSorted_uint64.field hnames rfl
  have hfacets : r.toJson.sorted.field "facets" (Json.listOf Facet.ofJson?) = some r.facets :=
    readsSorted_facet.listOf.field hnames rfl
  have hitems : r.toJson.sorted.field "items" (Json.listOf Item.ofJson?) = some r.items :=
    readsSorted_item.listOf.field hnames rfl
  show Report.ofJson? r.toJson.sorted = _
  rw [Report.ofJson?, hcount, hfacets, hitems]
  rfl

theorem Report.plain (r : Report) : Plain (depth + 5) r.toJson := by
  have hfacets : Plain (depth + 4) (.array (r.facets.map Facet.toJson)) :=
    .array (List.forall_mem_map.2 fun f _ => f.plain)
  have hitems : Plain (depth + 4) (.array (r.items.map Item.toJson)) :=
    .array (List.forall_mem_map.2 fun item _ => item.plain)
  exact .object (by simp [Json.plain_uint64, hfacets, hitems])

/-- **A report is read from its text**, count, facets and items. -/
theorem Report.ofJson?_of_printed (r : Report) :
    (Json.parse? (r.toJson.pretty ++ "\n")).bind Report.ofJson? = some r := by
  rw [Json.parse?_pretty r.plain]
  exact readsSorted_report r

end Program

end HarvestSearch
