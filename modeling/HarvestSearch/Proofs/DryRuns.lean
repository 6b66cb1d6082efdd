/-
What a dry run shows of a real one.

Both kinds of run (`gleaner_query::run`) take the same steps before they part: the configuration,
the catalog file, the catalog, the request, the engine. `StepFault` says at which step, and why,
they end there, and a `Plan` holds what all of them made. Neither mentions the connection or the
kind of run, and every run has one or the other (`exists_fault_or_plan`).

With a plan, the dry run prints the document, and the real run posts it. The three accesses that the
report is put together from come to one (`report_of_plan`), because the engine answers at once or
fails at once. `Plan.SearchFault` says when and why there is no report, and `Plan.Reads` what a
report says, in terms of the paths of the reply. Both kinds of run are compared by all that they
leave behind: the exit code, the printed text, the cause of a failure and what was sent. What a text
is worth is known from reading it (`Document.parse?_pretty_build`, `Report.ofJson?_of_printed`).
-/
import HarvestSearch.Program
import HarvestSearch.Proofs.DecodedFacets
import HarvestSearch.Proofs.EntriesInOrder
import HarvestSearch.Proofs.PrintedResults
import HarvestSearch.Proofs.RefusedDocuments
import HarvestSearch.Proofs.RequestedFacets
import Mathlib.Data.List.Induction

set_option autoImplicit false

namespace HarvestSearch

/-! ## The hits of a report -/

namespace Page

variable {registry : Registry}

/-- Every hit has an item, or there is a first hit that is refused. -/
theorem accepted_or_first_refused (registry : Registry) (hits : List Json) :
    (∀ hit ∈ hits, ∃ item, Accepts registry hit item) ∨
    ∃ front hit back message, hits = front ++ hit :: back ∧
      (∀ other ∈ front, ∃ item, Accepts registry other item) ∧
      Refuses registry front.length hit message := by
  induction hits using List.reverseRecOn with
  | nil => exact .inl fun hit hhit => absurd hhit List.not_mem_nil
  | append_singleton hits last ih =>
    rcases ih with hall | ⟨front, hit, back, message, rfl, hfront, hrefused⟩
    · rcases decodeHit_cases registry hits.length last with ⟨item, -, hitem⟩ | ⟨message, -, hlast⟩
      · left
        intro hit hhit
        rcases List.mem_append.1 hhit with hhit | hhit
        · exact hall hit hhit
        · rw [List.mem_singleton.1 hhit]
          exact ⟨item, hitem⟩
      · exact .inr ⟨hits, last, [], message, rfl, hall, hlast⟩
    · exact .inr ⟨front, hit, back ++ [last], message, by simp, hfront, hrefused⟩

/-- When every hit has an item, the page has these items and nothing else. -/
theorem forall₂_items_of_accepted {hits : List Json}
    (h : ∀ hit ∈ hits, ∃ item, Accepts registry hit item) :
    ∀ position, List.Forall₂ (Accepts registry) hits (ofHits registry position hits).items := by
  induction hits with
  | nil => exact fun _ => .nil
  | cons hit hits ih =>
    intro position
    have hrest := ih (fun other hother => h other (List.mem_cons_of_mem _ hother)) (position + 1)
    rcases decodeHit_cases registry position hit with ⟨item, hitem, haccepts⟩ | ⟨message, -, hno⟩
    · rw [ofHits, hitem]
      exact .cons haccepts hrest
    · obtain ⟨item, haccepts⟩ := h hit List.mem_cons_self
      exact absurd haccepts (hno.not_accepts item)

end Page

/-! ## The count of a report -/

/-- **The number of matches that a reply tells**: a word at the path `hits.total`, or a word under
`value` there, and zero when neither of them is a word. -/
inductive Reply.TellsTotal (reply : Json) : UInt64 → Prop where
  | bare {n : UInt64} (h : reply.atPath? ["hits", "total"] = some (.int n.toNat)) :
    TellsTotal reply n
  | inside {n : UInt64} (h : reply.atPath? ["hits", "total", "value"] = some (.int n.toNat)) :
    TellsTotal reply n
  | none (hbare : ∀ n : UInt64, reply.atPath? ["hits", "total"] ≠ some (.int n.toNat))
      (hinside : ∀ n : UInt64, reply.atPath? ["hits", "total", "value"] ≠ some (.int n.toNat)) :
    TellsTotal reply 0

theorem Reply.tellsTotal_totalHits (reply : Json) : TellsTotal reply (totalHits reply) := by
  have hbare : (reply.get? "hits").bind (Json.get? "total") = reply.atPath? ["hits", "total"] := by
    simp only [Json.atPath?, Option.bind_fun_some]
  have hinside : (reply.atPath? ["hits", "total"]).bind (Json.get? "value")
      = reply.atPath? ["hits", "total", "value"] := by
    simp only [Json.atPath?, Option.bind_fun_some, Option.bind_assoc]
  unfold totalHits
  rw [hbare]
  cases htotal : reply.atPath? ["hits", "total"] with
  | none =>
    rw [htotal, Option.bind_none] at hinside
    exact .none (fun n => by simp [htotal]) fun n => by simp [← hinside]
  | some total =>
    rw [htotal, Option.bind_some] at hinside
    show TellsTotal reply ((total.asUInt64? <|> (total.get? "value").bind Json.asUInt64?).getD 0)
    rw [hinside]
    cases hword : total.asUInt64? with
    | some n => exact .bare (htotal.trans (congrArg some (Json.asUInt64?_eq_some_iff.1 hword)))
    | none =>
      have hnobare : ∀ n : UInt64, reply.atPath? ["hits", "total"] ≠ some (.int n.toNat) := by
        intro n hn
        rw [htotal, Option.some_inj, ← Json.asUInt64?_eq_some_iff, hword] at hn
        cases hn
      cases hvalue : (reply.atPath? ["hits", "total", "value"]).bind Json.asUInt64? with
      | some n =>
        obtain ⟨value, hat, hn⟩ := Option.bind_eq_some_iff.1 hvalue
        exact .inside (hat.trans (congrArg some (Json.asUInt64?_eq_some_iff.1 hn)))
      | none =>
        refine .none hnobare fun n hn => ?_
        rw [hn, Option.bind_some, Json.asUInt64?_eq_some_iff.2 rfl] at hvalue
        cases hvalue

theorem Decoded.count_of_ofReply {catalog : Catalog} {r : Request} {reply : Json} {d : Decoded}
    (h : Decoded.ofReply catalog r reply = .ok d) : d.count = Reply.totalHits reply := by
  unfold Decoded.ofReply at h
  split at h
  · cases h
  · cases h
    rfl

/-! ## Accesses and arguments -/

/-- An access whose document is answered for stores the outcome and returns it. -/
theorem Finder.access_of_completed (service : SearchService) (sent : List Json) {f : Finder}
    (hf : f.execution.isDone = false) {x : Execution}
    (hx : x = .ofDelivery service.catalog f.request
      (service.transport sent.length (f.queryDocument service)))
    (hdone : x.isDone = true) :
    f.access service sent
      = ⟨⟨f.request, x⟩, sent ++ [f.queryDocument service], some x.outcome⟩ := by
  subst hx
  simp only [access, hf, hdone, Bool.false_eq_true, if_false, if_true]

/-- Documents and facets are asked for as the arguments say. -/
theorem Arguments.limit_and_facets_of_request {a : Arguments} {catalog : Catalog} {r : Request}
    (h : a.request catalog = .ok r) : r.limit = a.limit ∧ r.aggregations = !a.noFacets := by
  obtain ⟨orders, -, hrequest⟩ := Except.bind_eq_ok_iff.1 h
  cases hrequest
  simp only [calls, Request.applyAll, List.foldl_append]
  cases a.query <;> cases a.service <;> cases a.limit <;> exact ⟨rfl, rfl⟩

namespace Program

/-! ## The steps before the search -/

/-- The step that ends a run before it searches, and what it says. -/
inductive StepFault (a : Arguments) (files : Files) : RunError → Prop where
  | config {error : LoadError} (h : Load.config a.config files.config = .error error) :
    StepFault a files (.load error)
  | catalogFile {config : Config} {error : LoadError}
      (hconfig : Load.config a.config files.config = .ok config)
      (h : Load.catalogFile a.catalog files.catalog = .error error) :
    StepFault a files (.load error)
  | catalog {config : Config} {file : CatalogFile} {error : DomainError}
      (hconfig : Load.config a.config files.config = .ok config)
      (hfile : Load.catalogFile a.catalog files.catalog = .ok file)
      (h : Catalog.ofFile file = .error error) :
    StepFault a files (.catalog error)
  | sort {config : Config} {file : CatalogFile} {catalog : Catalog} {fault : Arguments.SortFault}
      (hconfig : Load.config a.config files.config = .ok config)
      (hfile : Load.catalogFile a.catalog files.catalog = .ok file)
      (hcatalog : Catalog.ofFile file = .ok catalog) (h : a.request catalog = .error fault) :
    StepFault a files (.sort fault)
  | service {config : Config} {file : CatalogFile} {catalog : Catalog} {request : Request}
      {error : EngineError} (hconfig : Load.config a.config files.config = .ok config)
      (hfile : Load.catalogFile a.catalog files.catalog = .ok file)
      (hcatalog : Catalog.ofFile file = .ok catalog) (hrequest : a.request catalog = .ok request)
      (h : Engine.ofConfig config.engine = .error error) :
    StepFault a files (.search (.transport error.message))

/-- What the steps before the search have made. -/
structure Plan (a : Arguments) (files : Files) where
  config : Config
  file : CatalogFile
  catalog : Catalog
  request : Request
  engine : Engine
  config_eq : Load.config a.config files.config = .ok config
  file_eq : Load.catalogFile a.catalog files.catalog = .ok file
  catalog_eq : Catalog.ofFile file = .ok catalog
  request_eq : a.request catalog = .ok request
  engine_eq : Engine.ofConfig config.engine = .ok engine

namespace Plan

variable {a : Arguments} {files : Files}

/-- The query document. -/
def document (plan : Plan a files) : Json :=
  (Document.build (.ofConfig plan.config) plan.catalog plan.request).toJson

/-- The run that is ready to search over a connection. -/
def prepared (connection : Http.Connection) (plan : Plan a files) : Prepared :=
  ⟨⟨.ofConfig plan.config, plan.catalog, plan.engine.deliver connection⟩, .new plan.request⟩

end Plan

variable {a : Arguments} {files : Files}

/-- Every run has a step that ends it or a plan. -/
theorem exists_fault_or_plan (a : Arguments) (files : Files) :
    (∃ error, StepFault a files error) ∨ Nonempty (Plan a files) := by
  cases hconfig : Load.config a.config files.config with
  | error error => exact .inl ⟨_, .config hconfig⟩
  | ok config =>
    cases hfile : Load.catalogFile a.catalog files.catalog with
    | error error => exact .inl ⟨_, .catalogFile hconfig hfile⟩
    | ok file =>
      cases hcatalog : Catalog.ofFile file with
      | error error => exact .inl ⟨_, .catalog hconfig hfile hcatalog⟩
      | ok catalog =>
        cases hrequest : a.request catalog with
        | error fault => exact .inl ⟨_, .sort hconfig hfile hcatalog hrequest⟩
        | ok request =>
          cases hengine : Engine.ofConfig config.engine with
          | error error => exact .inl ⟨_, .service hconfig hfile hcatalog hrequest hengine⟩
          | ok engine =>
            exact .inr ⟨config, file, catalog, request, engine, hconfig, hfile, hcatalog, hrequest,
              hengine⟩

theorem prepare_of_fault {error : RunError} (h : StepFault a files error)
    (connection : Http.Connection) : prepare connection a files = .error error := by
  cases h with
  | config h => simp only [prepare, h, Except.mapError, bind, Except.bind]
  | catalogFile hconfig h => simp only [prepare, hconfig, h, Except.mapError, bind, Except.bind]
  | catalog hconfig hfile h =>
    simp only [prepare, hconfig, hfile, h, Except.mapError, bind, Except.bind]
  | sort hconfig hfile hcatalog h =>
    simp only [prepare, hconfig, hfile, hcatalog, h, Except.mapError, bind, Except.bind]
  | service hconfig hfile hcatalog hrequest h =>
    simp only [prepare, SearchService.ofConfig, hconfig, hfile, hcatalog, hrequest, h,
      Except.mapError, bind, Except.bind]

theorem prepare_of_plan (plan : Plan a files) (connection : Http.Connection) :
    prepare connection a files = .ok (plan.prepared connection) := by
  simp only [prepare, SearchService.ofConfig, plan.config_eq, plan.file_eq, plan.catalog_eq,
    plan.request_eq, plan.engine_eq, Except.mapError, bind, Except.bind, pure, Except.pure,
    Plan.prepared]

/-- A run with a step that ends it is a run without a plan. -/
theorem exists_fault_iff (a : Arguments) (files : Files) :
    (∃ error, StepFault a files error) ↔ ¬Nonempty (Plan a files) := by
  constructor
  · rintro ⟨error, hfault⟩ ⟨plan⟩
    have hended := prepare_of_fault hfault fun _ => .error ""
    rw [prepare_of_plan plan] at hended
    cases hended
  · intro hno
    exact (exists_fault_or_plan a files).resolve_right hno

/-! ## The search -/

namespace Plan

/-- The failure that ends a search: the call fails, the engine reports one, or, where documents are
asked for, a hit has no item, and the first such hit counts. -/
inductive SearchFault (connection : Http.Connection) (plan : Plan a files) :
    SearchError → Prop where
  | call {error : EngineError}
      (h : plan.engine.search connection plan.document = .error error) :
    SearchFault connection plan (.transport error.message)
  | report {reply : Json} {detail : String}
      (hreply : plan.engine.search connection plan.document = .ok reply)
      (h : Reply.engineError? reply = some detail) :
    SearchFault connection plan (.engine detail)
  | hit {reply hit : Json} {front back : List Json} {message : String}
      (hreply : plan.engine.search connection plan.document = .ok reply)
      (hreport : Reply.engineError? reply = none) (hlimit : a.limit ≠ some 0)
      (hhits : Reply.HoldsHits reply (front ++ hit :: back))
      (hfront : ∀ other ∈ front, ∃ item, Page.Accepts plan.catalog.registry other item)
      (h : Page.Refuses plan.catalog.registry front.length hit message) :
    SearchFault connection plan (.invalidDocument message)

/-- The report is read off a reply: its count, its facets where they are asked for, and where
documents are asked for one item for each of its hits. -/
structure Reads (plan : Plan a files) (reply : Json) (report : Report) : Prop where
  unreported : Reply.engineError? reply = none
  count : Reply.TellsTotal reply report.count
  facets : if a.noFacets then report.facets = []
    else Reply.ShowsFacets plan.catalog.registry plan.catalog.services reply report.facets
  items : if a.limit = some 0 then report.items = []
    else ∃ hits, Reply.HoldsHits reply hits ∧
      List.Forall₂ (Page.Accepts plan.catalog.registry) hits report.items

/-- What the one reply of the engine is decoded to, if nothing fails. -/
def outcome (connection : Http.Connection) (plan : Plan a files) : Except SearchError Decoded := do
  let reply ← (plan.engine.search connection plan.document).mapError
    fun error => SearchError.transport error.message
  Decoded.ofReply plan.catalog plan.request reply

/-- The report on the outcome. -/
def answer (connection : Http.Connection) (plan : Plan a files) : Except SearchError Report := do
  let decoded ← plan.outcome connection
  pure ⟨decoded.count, decoded.facets, ← decoded.items⟩

theorem outcome_of_reply {connection : Http.Connection} {plan : Plan a files} {reply : Json}
    (h : plan.engine.search connection plan.document = .ok reply) :
    plan.outcome connection = Decoded.ofReply plan.catalog plan.request reply := by
  rw [outcome, h]
  rfl

theorem answer_of_items_ok {connection : Http.Connection} {plan : Plan a files} {d : Decoded}
    {items : List Item} (hd : plan.outcome connection = .ok d) (h : d.items = .ok items) :
    plan.answer connection = .ok ⟨d.count, d.facets, items⟩ := by
  simp only [answer, hd, h, bind, Except.bind, pure, Except.pure]

theorem answer_of_items_error {connection : Http.Connection} {plan : Plan a files} {d : Decoded}
    {error : SearchError} (hd : plan.outcome connection = .ok d) (h : d.items = .error error) :
    plan.answer connection = .error error := by
  simp only [answer, hd, h, bind, Except.bind]

theorem answer_of_outcome_error {connection : Http.Connection} {plan : Plan a files}
    {error : SearchError} (h : plan.outcome connection = .error error) :
    plan.answer connection = .error error := by
  rw [answer, h]
  rfl

theorem answer_of_fault {connection : Http.Connection} {plan : Plan a files} {error : SearchError}
    (h : plan.SearchFault connection error) : plan.answer connection = .error error := by
  cases h with
  | call h =>
    refine answer_of_outcome_error ?_
    rw [outcome, h]
    rfl
  | report hreply h =>
    refine answer_of_outcome_error ?_
    rw [outcome_of_reply hreply, Decoded.ofReply, h]
  | @hit reply hit front back message hreply hreport hlimit hhits hfront h =>
    rcases Decoded.ofReply_cases plan.catalog plan.request reply with
      ⟨detail, hdetail, -⟩ | ⟨-, d, hdecoded⟩
    · exact absurd (hreport.symm.trans hdetail) (Option.some_ne_none _).symm
    · obtain ⟨rest, hrejected⟩ := Page.rejected_of_first_refused back hfront h
      have hpage : d.page = Page.ofReply reply plan.catalog.registry := by
        have hrequest := (Arguments.limit_and_facets_of_request plan.request_eq).1
        rw [Decoded.page_of_ofReply hdecoded, hrequest, if_neg hlimit]
      refine answer_of_items_error ((outcome_of_reply hreply).trans hdecoded) ?_
      rw [Decoded.items, hpage, Page.ofReply_of_holdsHits hhits, hrejected]

/-- A report is read off a reply that is decoded, unless documents are asked for and some hit, a
first one, is refused. -/
theorem reads_or_first_refused {plan : Plan a files} {reply : Json} {d : Decoded}
    (hreport : Reply.engineError? reply = none)
    (hdecoded : Decoded.ofReply plan.catalog plan.request reply = .ok d) :
    (∃ items, d.items = .ok items ∧ plan.Reads reply ⟨d.count, d.facets, items⟩) ∨
    (a.limit ≠ some 0 ∧ ∃ front hit back message, Reply.HoldsHits reply (front ++ hit :: back) ∧
      (∀ other ∈ front, ∃ item, Page.Accepts plan.catalog.registry other item) ∧
      Page.Refuses plan.catalog.registry front.length hit message) := by
  obtain ⟨hlimit, haggregations⟩ := Arguments.limit_and_facets_of_request plan.request_eq
  have hcount : Reply.TellsTotal reply d.count := by
    rw [Decoded.count_of_ofReply hdecoded]
    exact Reply.tellsTotal_totalHits reply
  have hfacets : if a.noFacets then d.facets = []
      else Reply.ShowsFacets plan.catalog.registry plan.catalog.services reply d.facets := by
    rw [Decoded.facets_of_ofReply hdecoded, haggregations]
    cases a.noFacets with
    | true => rfl
    | false => exact Facet.showsFacets_assemble reply _ _
  have hpage := Decoded.page_of_ofReply hdecoded
  rw [hlimit] at hpage
  by_cases hzero : a.limit = some 0
  · -- no documents are asked for, so none can be refused
    rw [if_pos hzero] at hpage
    have hitems : d.items = .ok [] := by
      rw [Decoded.items_eq_ok_iff, hpage]
      exact ⟨rfl, rfl⟩
    exact .inl ⟨[], hitems, hreport, hcount, hfacets, by rw [if_pos hzero]⟩
  · rw [if_neg hzero] at hpage
    have hhits : Reply.HoldsHits reply (Reply.hits reply) := Reply.holdsHits_iff.2 rfl
    rcases Page.accepted_or_first_refused plan.catalog.registry (Reply.hits reply) with
      hall | ⟨front, hit, back, message, hsplit, hfront, hrefused⟩
    · have hitems : d.items = .ok d.page.items := by
        rw [Decoded.items_eq_ok_iff, hpage]
        exact ⟨Page.rejected_of_accepted hall 0, rfl⟩
      refine .inl ⟨_, hitems, hreport, hcount, hfacets, ?_⟩
      rw [if_neg hzero, hpage]
      exact ⟨_, hhits, Page.forall₂_items_of_accepted hall 0⟩
    · rw [hsplit] at hhits
      exact .inr ⟨hzero, front, hit, back, message, hhits, hfront, hrefused⟩

/-- A search ends in a fault, or in a report that is read off the one reply. -/
theorem answer_cases (connection : Http.Connection) (plan : Plan a files) :
    (∃ error, plan.SearchFault connection error) ∨
    ∃ reply report, plan.engine.search connection plan.document = .ok reply ∧
      plan.Reads reply report ∧ plan.answer connection = .ok report := by
  cases hreply : plan.engine.search connection plan.document with
  | error error => exact .inl ⟨_, .call hreply⟩
  | ok reply =>
    rcases Decoded.ofReply_cases plan.catalog plan.request reply with
      ⟨detail, hdetail, -⟩ | ⟨hreport, d, hdecoded⟩
    · exact .inl ⟨_, .report hreply hdetail⟩
    · rcases reads_or_first_refused hreport hdecoded with
        ⟨items, hitems, hreads⟩ | ⟨hlimit, front, hit, back, message, hhits, hfront, hrefused⟩
      · have houtcome := (outcome_of_reply hreply).trans hdecoded
        exact .inr ⟨reply, _, rfl, hreads, answer_of_items_ok houtcome hitems⟩
      · exact .inl ⟨_, .hit hreply hreport hlimit hhits hfront hrefused⟩

/-- The three ways in which a search can fail. -/
theorem exists_searchFault_iff (connection : Http.Connection) (plan : Plan a files) :
    (∃ error, plan.SearchFault connection error) ↔
      (∃ error, plan.engine.search connection plan.document = .error error) ∨
      ∃ reply, plan.engine.search connection plan.document = .ok reply ∧
        (Reply.engineError? reply ≠ none ∨ a.limit ≠ some 0 ∧ ∃ hits, Reply.HoldsHits reply hits ∧
          ∃ hit ∈ hits, ∀ item, ¬Page.Accepts plan.catalog.registry hit item) := by
  constructor
  · rintro ⟨error, hfault⟩
    cases hfault with
    | call h => exact .inl ⟨_, h⟩
    | report hreply h => exact .inr ⟨_, hreply, .inl (by rw [h]; exact Option.some_ne_none _)⟩
    | hit hreply _ hlimit hhits _ h =>
      refine .inr ⟨_, hreply, .inr ⟨hlimit, _, hhits, _, ?_, h.not_accepts⟩⟩
      exact List.mem_append_right _ List.mem_cons_self
  · rintro (⟨error, h⟩ | ⟨reply, hreply, hno⟩)
    · exact ⟨_, .call h⟩
    cases hreport : Reply.engineError? reply with
    | some detail => exact ⟨_, .report hreply hreport⟩
    | none =>
      obtain ⟨hlimit, hits, hhits, hit, hhit, hrefused⟩ := hno.resolve_left (absurd hreport)
      rcases Page.accepted_or_first_refused plan.catalog.registry hits with
        hall | ⟨front, first, back, message, rfl, hfront, hfirst⟩
      · obtain ⟨item, haccepts⟩ := hall hit hhit
        exact absurd haccepts (hrefused item)
      · exact ⟨_, .hit hreply hreport hlimit hhits hfront hfirst⟩

/-- What is delivered of the document makes the outcome. -/
theorem ofDelivery_deliver (connection : Http.Connection) (plan : Plan a files) (n : Nat) :
    Execution.ofDelivery plan.catalog plan.request
        (plan.engine.deliver connection n plan.document)
      = .ofOutcome (plan.outcome connection) := by
  unfold outcome Engine.deliver
  cases plan.engine.search connection plan.document <;> rfl

end Plan

/-! ## Runs -/

/-- **The three accesses of a report come to one.** The first posts the document, and the other two
read what became of it. -/
theorem report_of_plan (connection : Http.Connection) (plan : Plan a files) :
    report (plan.prepared connection) = ([plan.document], plan.answer connection) := by
  let done : Finder := ⟨plan.request, .ofOutcome (plan.outcome connection)⟩
  have hdone : done.execution.isDone = true := Execution.isDone_ofOutcome _
  have hstored : done.execution.outcome = plan.outcome connection := Execution.outcome_ofOutcome _
  have hfirst : (plan.prepared connection).finder.access (plan.prepared connection).service []
      = ⟨done, [plan.document], some (plan.outcome connection)⟩ := by
    have hdelivered := (plan.ofDelivery_deliver connection 0).symm
    rw [← hstored]
    exact Finder.access_of_completed _ [] rfl hdelivered hdone
  have hagain : ∀ sent, done.access (plan.prepared connection).service sent
      = ⟨done, sent, some (plan.outcome connection)⟩ := by
    intro sent
    rw [Finder.access, if_pos hdone, hstored]
  unfold report Plan.answer
  simp only [hfirst, hagain, outcomeOf, Option.getD_some]
  cases plan.outcome connection with
  | error error => rfl
  | ok d => rfl

theorem runArguments_of_fault {error : RunError} (h : StepFault a files error)
    (connection : Http.Connection) (dryRun : Bool) :
    runArguments connection { a with dryRun := dryRun } files = failed error [] := by
  have hprepare : prepare connection { a with dryRun := dryRun } files = .error error :=
    prepare_of_fault h connection
  rw [runArguments, hprepare]

theorem dry_run_of_plan (plan : Plan a files) (connection : Http.Connection) :
    runArguments connection { a with dryRun := true } files
      = printed plan.document.pretty [] := by
  have hprepare : prepare connection { a with dryRun := true } files
      = .ok (plan.prepared connection) := prepare_of_plan plan connection
  rw [runArguments, hprepare]
  rfl

theorem real_run_of_plan (plan : Plan a files) (connection : Http.Connection) :
    runArguments connection { a with dryRun := false } files
      = match plan.answer connection with
        | .ok report => printed report.toJson.pretty [plan.document]
        | .error error => failed (.search error) [plan.document] := by
  have hprepare : prepare connection { a with dryRun := false } files
      = .ok (plan.prepared connection) := prepare_of_plan plan connection
  rw [runArguments, hprepare]
  simp only [report_of_plan, Bool.false_eq_true, if_false]
  cases plan.answer connection <;> rfl

/-- What a run comes to over a connection depends on the one call that it makes. -/
theorem Plan.answer_congr (plan : Plan a files) {connection other : Http.Connection}
    (h : other (plan.engine.request plan.document)
      = connection (plan.engine.request plan.document)) :
    plan.answer other = plan.answer connection := by
  have hsearch : plan.engine.search other plan.document
      = plan.engine.search connection plan.document := by
    rw [Engine.search, Engine.search, h]
  rw [answer, answer, outcome, outcome, hsearch]

/-! ## The main statement -/

/-- **A dry run shows what a real run sends.** Every run either has a step that ends it or has a
plan. A step that ends it ends the dry run and the real run alike, with the same error, with nothing
printed and with nothing sent. With a plan, the dry run prints the document on lines of its own and
sends nothing, whatever the connection is, and what it prints is read as that document. The real run
posts this document once, as the body of a request, and nothing but what becomes of that request can
change the run. It fails, with nothing printed, exactly when the call fails, the reply reports a
failure, or documents are asked for and some hit has no item. Otherwise it prints a report whose
count, facets and items are read off the one reply, and what it prints is read as that report. -/
theorem dry_run_shows_what_is_sent (connection : Http.Connection) (a : Arguments) (files : Files) :
    let dry := runArguments connection { a with dryRun := true } files
    let real := runArguments connection { a with dryRun := false } files
    ((∃ error, StepFault a files error) ↔ ¬Nonempty (Plan a files)) ∧
    (∀ error, StepFault a files error →
      dry = ⟨1, "", some error.message, []⟩ ∧ real = ⟨1, "", some error.message, []⟩) ∧
    ∀ plan : Plan a files,
      dry = ⟨0, plan.document.pretty ++ "\n", none, []⟩ ∧
      Json.parse? dry.stdout = some plan.document ∧
      real.sent = [plan.document] ∧
      (∃ posted : Http.Request, posted.method = "POST" ∧ posted.body = plan.document ∧
        ∀ other : Http.Connection, other posted = connection posted →
          runArguments other { a with dryRun := false } files = real) ∧
      ((∃ error, plan.SearchFault connection error) ↔
        (∃ error, plan.engine.search connection plan.document = .error error) ∨
        ∃ reply, plan.engine.search connection plan.document = .ok reply ∧
          (Reply.engineError? reply ≠ none ∨ a.limit ≠ some 0 ∧
            ∃ hits, Reply.HoldsHits reply hits ∧
              ∃ hit ∈ hits, ∀ item, ¬Page.Accepts plan.catalog.registry hit item)) ∧
      (∀ error, plan.SearchFault connection error →
        real = ⟨1, "", some error.message, [plan.document]⟩) ∧
      ((∀ error, ¬plan.SearchFault connection error) → ∃ reply report,
        plan.engine.search connection plan.document = .ok reply ∧ plan.Reads reply report ∧
          real = ⟨0, report.toJson.pretty ++ "\n", none, [plan.document]⟩ ∧
          (Json.parse? real.stdout).bind Report.ofJson? = some report) := by
  intro dry real
  refine ⟨exists_fault_iff a files, fun error h => ?_, fun plan => ?_⟩
  · exact ⟨runArguments_of_fault h connection true, runArguments_of_fault h connection false⟩
  have hdry : dry = ⟨0, plan.document.pretty ++ "\n", none, []⟩ := dry_run_of_plan plan connection
  have hreal : real = match plan.answer connection with
      | .ok report => ⟨0, report.toJson.pretty ++ "\n", none, [plan.document]⟩
      | .error error => ⟨1, "", some error.message, [plan.document]⟩ :=
    real_run_of_plan plan connection
  refine ⟨hdry, ?_, ?_, ⟨plan.engine.request plan.document, rfl, rfl, fun other h => ?_⟩,
    plan.exists_searchFault_iff connection, fun error h => ?_, fun hno => ?_⟩
  · rw [hdry]
    exact Document.parse?_pretty_build _ _ _
  · rw [hreal]
    cases plan.answer connection <;> rfl
  · rw [real_run_of_plan plan other, plan.answer_congr h, ← real_run_of_plan plan connection]
  · rw [hreal, Plan.answer_of_fault h]
  · rcases plan.answer_cases connection with ⟨error, h⟩ | ⟨reply, report, hreply, hreads, h⟩
    · exact absurd h (hno error)
    · have hprinted : real = ⟨0, report.toJson.pretty ++ "\n", none, [plan.document]⟩ := by
        rw [hreal, h]
      refine ⟨reply, report, hreply, hreads, hprinted, ?_⟩
      rw [hprinted]
      exact report.ofJson?_of_printed

/-- Two small files: the dry run prints a document, and the real run posts it. It prints a report
where the engine answers, and fails where it cannot be reached. -/
theorem dry_run_beside_real_runs :
    let a : Arguments := ⟨"gleaner.toml", "catalog.toml", some "tea", [], [], none, [], [], true,
      [], 0, none, false, false⟩
    let config := "service.log_level=\"info\"\n[engine]\n"
      ++ "url=\"http://localhost:9200\"\nindex=\"gleaner\"\ntimeout_ms=5000\n"
    let catalog := "[[elements]]\nname=\"title\"\nlabel=\"Title\"\nsearchable=true\n"
    let files : Files := ⟨some config.toUTF8, some catalog.toUTF8⟩
    let refused : Http.Connection := fun _ => .error "connection refused"
    let answered : Http.Connection := fun _ => .ok ⟨200, r#"{"hits":{"total":{"value":1},"hits":[{"#
      ++ r#""_source":{"index_id":"a","source_uri":"http://x","local_title":"Tea"}}]}}"#⟩
    let written := r#"{"query":{"function_score":{"boost":10,"boost_mode":"multiply","#
      ++ r#""max_boost":10,"query":{"bool":{"must":[{"query_string":{"default_field":"search_all","#
      ++ r#""default_operator":"AND","lenient":true,"query":"(tea OR tea*)"}}]}},"#
      ++ r#""score_mode":"max"}}}"#
    let text := r#"{
  "count": 1,
  "facets": [],
  "items": [
    {
      "index_id": "a",
      "source_uri": "http://x",
      "service_key": null,
      "variant": null,
      "parent_id": null,
      "elements": [
        {
          "name": "title",
          "value": "Tea"
        }
      ]
    }
  ]
}
"#
    ∃ plan : Plan a files, plan.document.compact = written ∧
      runArguments answered { a with dryRun := true } files
        = ⟨0, plan.document.pretty ++ "\n", none, []⟩ ∧
      runArguments answered { a with dryRun := false } files
        = ⟨0, text, none, [plan.document]⟩ ∧
      runArguments refused { a with dryRun := false } files
        = ⟨1, "", some "Transport error: connection refused", [plan.document]⟩ := by
  intro a config catalog files refused answered written text
  obtain ⟨hsteps, hended, hplanned⟩ := dry_run_shows_what_is_sent answered a files
  have htext : (runArguments answered { a with dryRun := false } files).stdout = text := by
    decide +kernel
  have hne : "" ≠ text := by decide +kernel
  have hplan : Nonempty (Plan a files) := by
    by_contra hno
    obtain ⟨error, hfault⟩ := hsteps.2 hno
    rw [(hended error hfault).2] at htext
    exact hne htext
  obtain ⟨plan⟩ := hplan
  obtain ⟨hdry, -, -, -, -, hfailed, hreport⟩ := hplanned plan
  have hno : ∀ error, ¬plan.SearchFault answered error := by
    intro error hfault
    rw [hfailed error hfault] at htext
    exact hne htext
  obtain ⟨-, report, -, -, hreal, -⟩ := hreport hno
  obtain ⟨-, -, hother⟩ := dry_run_shows_what_is_sent refused a files
  obtain ⟨-, -, hsent, -, -, hfailed, -⟩ := hother plan
  refine ⟨plan, ?_, hdry, ?_, ?_⟩
  · have hwritten : (runArguments refused { a with dryRun := false } files).sent.map Json.compact
        = [written] := by decide +kernel
    rw [hsent] at hwritten
    exact List.singleton_inj.1 hwritten
  · rw [hreal] at htext ⊢
    exact congrArg (Outcome.mk 0 · none [plan.document]) htext
  · have hcall : plan.engine.search refused plan.document
        = .error (.connection "connection refused") := rfl
    exact hfailed _ (.call hcall)

end Program

end HarvestSearch
