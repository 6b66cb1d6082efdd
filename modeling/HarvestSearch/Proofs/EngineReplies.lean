/-
What failed requests to the engine come to.

Two places decide it, `gleaner_transport::search::parse_search_response` and
`gleaner_search::response::engine_error`. As `Engine.readReply` the first lets a reply with a failed
status through when its body has a member `error`, so that the failure can be told in the engine's
own words, and `Reply.engineError?` then looks for that report. The two do not ask the same
question: a member that is `null` is there for the first and is no report for the second. Such a
body is the one that is read as a result in spite of its status; `Http.Reply.HasNullError` names it.

`Decoded.ofReply_cases` and `Engine.readReply_of_failed` say what each place does with any value and
any text, `Engine.delivered_of_failed` puts them together for one document, and
`failed_status_fails_iff` is what follows for every run of a finder.
-/
import HarvestSearch.Engine
import HarvestSearch.Proofs.FinderRuns

set_option autoImplicit false

namespace HarvestSearch

/-! ## The two questions -/

namespace Reply

/-- A reply reports no failure exactly when its member `error` is missing or `null`. -/
theorem engineError?_eq_none_iff {reply : Json} :
    engineError? reply = none ↔ reply.get? "error" = none ∨ reply.get? "error" = some .null := by
  unfold engineError?
  constructor
  · intro h
    split at h
    · exact .inl ‹_›
    · exact .inr ‹_›
    · cases h
    · split at h
      · cases h
      · cases h
  · rintro (h | h)
    · rw [h]
    · rw [h]

end Reply

namespace Decoded

/-- A reply is decoded unless it reports a failure, and then the report is the failure. -/
theorem ofReply_cases (catalog : Catalog) (r : Request) (reply : Json) :
    (∃ detail, Reply.engineError? reply = some detail ∧
      ofReply catalog r reply = .error (.engine detail)) ∨
    (Reply.engineError? reply = none ∧ ∃ decoded, ofReply catalog r reply = .ok decoded) := by
  unfold ofReply
  cases h : Reply.engineError? reply with
  | some detail => exact .inl ⟨detail, rfl, rfl⟩
  | none => exact .inr ⟨rfl, _, rfl⟩

end Decoded

/-- The body is an object whose member `error` is `null`. -/
def Http.Reply.HasNullError (reply : Http.Reply) : Prop :=
  ∃ json, Json.parse? reply.text = some json ∧ json.get? "error" = some .null

namespace Engine

/-- Statuses outside the two hundreds report failure. -/
theorem isSuccess_eq_false {status : Nat} (h : status < 200 ∨ 299 < status) :
    isSuccess status = false := by
  have hno : ¬(200 ≤ status ∧ status < 300) := by omega
  unfold isSuccess
  rw [← Bool.decide_and, decide_eq_false hno]

/-- A reply with a failed status is let through exactly when its body has a member `error`; any
other is an error that tells the status and the text. -/
theorem readReply_of_failed {reply : Http.Reply} (h : isSuccess reply.status = false) :
    (∃ json, Json.parse? reply.text = some json ∧ (json.get? "error").isSome = true ∧
      readReply reply = .ok json) ∨
    ((∀ json, Json.parse? reply.text = some json → json.get? "error" = none) ∧
      readReply reply = .error (.status reply.status reply.text)) := by
  unfold readReply
  rw [h]
  cases hparse : Json.parse? reply.text with
  | none =>
    refine .inr ⟨?_, rfl⟩
    intro json hjson
    cases hjson
  | some json =>
    cases hmember : (json.get? "error").isSome with
    | true => exact .inl ⟨json, rfl, hmember, by simp only [hmember, Bool.or_true, if_true]⟩
    | false =>
      refine .inr ⟨?_, by simp only [hmember, Bool.or_false, Bool.false_eq_true, if_false]⟩
      intro other hother
      rw [← Option.some.inj hother]
      exact Option.isNone_iff_eq_none.1 (Option.isSome_eq_false_iff.1 hmember)

/-- What the delivery of a reply with a failed status makes of an execution: a result when the body
has a member `error` that is `null`, else a failure of the engine or of the way to it. -/
theorem delivered_of_failed (connection : Http.Connection) (e : Engine) (catalog : Catalog)
    (r : Request) (n : Nat) {document : Json} {reply : Http.Reply}
    (hreply : connection (e.request document) = .ok reply)
    (hstatus : isSuccess reply.status = false) :
    (∃ json decoded, Json.parse? reply.text = some json ∧ json.get? "error" = some .null ∧
      Decoded.ofReply catalog r json = .ok decoded ∧
      Execution.ofDelivery catalog r (e.deliver connection n document) = .executed decoded) ∨
    (¬reply.HasNullError ∧ ∃ error : SearchError, error.isIo = true ∧
      Execution.ofDelivery catalog r (e.deliver connection n document) = .failed error) := by
  unfold deliver search
  rw [hreply]
  rcases readReply_of_failed hstatus with ⟨json, hparse, hmember, hread⟩ | ⟨hmember, hread⟩
  · simp only [hread, Execution.ofDelivery]
    rcases Decoded.ofReply_cases catalog r json with
      ⟨detail, hreport, hdecoded⟩ | ⟨hreport, decoded, hdecoded⟩
    · -- the report is found, so the member is not `null`, and the text has no other value
      refine .inr ⟨?_, .engine detail, rfl, by rw [hdecoded]; rfl⟩
      rintro ⟨other, hother, hnull⟩
      rw [hparse] at hother
      rw [← Option.some.inj hother] at hnull
      rw [Reply.engineError?_eq_none_iff.2 (.inr hnull)] at hreport
      cases hreport
    · -- no report is found although the member is there
      refine .inl ⟨json, decoded, hparse, ?_, hdecoded, by rw [hdecoded]; rfl⟩
      rcases Reply.engineError?_eq_none_iff.1 hreport with hnone | hnull
      · rw [hnone] at hmember
        cases hmember
      · exact hnull
  · simp only [hread, Execution.ofDelivery]
    refine .inr ⟨?_, _, rfl, rfl⟩
    rintro ⟨json, hparse, hnull⟩
    rw [hmember json hparse] at hnull
    cases hnull

end Engine

/-! ## Services behind HTTP -/

/-- The service of a configuration posts to one engine and searches the given catalog. -/
theorem SearchService.exists_engine_of_ofConfig {connection : Http.Connection} {c : Config}
    {catalog : Catalog} {service : SearchService}
    (h : SearchService.ofConfig connection c catalog = .ok service) :
    ∃ e : Engine, service.catalog = catalog ∧ service.transport = e.deliver connection := by
  unfold SearchService.ofConfig at h
  cases he : Engine.ofConfig c.engine with
  | error error =>
    rw [he] at h
    cases h
  | ok e =>
    rw [he] at h
    cases h
    exact ⟨e, rfl, rfl⟩

/-- **Which failed replies fail the search.** For every configuration that makes a service, every
catalog and request, and every reply with a status outside the two hundreds: a run with an access in
it ends in the state Failed exactly when the body is not an object whose member `error` is `null`.
In the state Failed every access answers with one failure of the engine or of the way to it. For the
other bodies the state is Executed, and every access reads the result that the body is taken for. -/
theorem failed_status_fails_iff {connection : Http.Connection} {c : Config} {catalog : Catalog}
    {service : SearchService} (hservice : SearchService.ofConfig connection c catalog = .ok service)
    (r : Request) {reply : Http.Reply} (hstatus : reply.status < 200 ∨ 299 < reply.status)
    (hreply : ∀ q : Http.Request, q.body = (Finder.new r).queryDocument service →
      connection q = .ok reply)
    (earlier : List Json) {steps : List Finder.Step}
    (hpolled : ∃ accessor, Finder.Step.access accessor ∈ steps) :
    let s := (Finder.Session.start r earlier).run service steps
    s.givenUp = 0 ∧
    (s.finder.execution.stateWord = "Failed" ↔ ¬reply.HasNullError) ∧
    (¬reply.HasNullError → ∃ error : SearchError, error.isIo = true ∧
      ∀ accessor shown, (Finder.Step.access accessor, shown) ∈ s.events →
        shown = .answered (.error error)) ∧
    (reply.HasNullError → s.finder.execution.stateWord = "Executed" ∧
      ∃ json decoded, Json.parse? reply.text = some json ∧
        Decoded.ofReply catalog r json = .ok decoded ∧
        ∀ accessor shown, (Finder.Step.access accessor, shown) ∈ s.events →
          shown = .answered (accessor.read decoded)) := by
  intro s
  obtain ⟨e, hcatalog, htransport⟩ := SearchService.exists_engine_of_ofConfig hservice
  have hsent : connection (e.request ((Finder.new r).queryDocument service)) = .ok reply :=
    hreply _ rfl
  -- the engine answers a document the same at every time, so one execution settles the run
  have hrun : ∀ x : Execution, x.isDone = true →
      Execution.ofDelivery service.catalog r
        (e.deliver connection 0 ((Finder.new r).queryDocument service)) = x →
      s.finder.execution = x ∧ s.givenUp = 0 ∧
        ∀ accessor shown, (Finder.Step.access accessor, shown) ∈ s.events →
          shown = .answered (x.outcome.bind fun d => accessor.read d) := by
    intro x hx hdelivered
    refine Finder.Session.run_of_prompt hx (fun n => ?_) earlier hpolled
    rw [htransport, ← hdelivered]
    rfl
  rcases Engine.delivered_of_failed connection e service.catalog r 0 hsent
      (Engine.isSuccess_eq_false hstatus) with
    ⟨json, decoded, hparse, hnull, hdecoded, hdelivered⟩ | ⟨hno, error, hio, hdelivered⟩
  · have hbody : reply.HasNullError := ⟨json, hparse, hnull⟩
    obtain ⟨hx, hgiven, hanswers⟩ := hrun _ rfl hdelivered
    rw [hcatalog] at hdecoded
    refine ⟨hgiven, ?_, fun hnot => absurd hbody hnot, fun _ => ⟨?_, json, decoded, hparse,
      hdecoded, hanswers⟩⟩
    · rw [hx]
      have hword : (Execution.executed decoded).stateWord ≠ "Failed" :=
        show "Executed" ≠ "Failed" by decide
      exact ⟨fun h => absurd h hword, fun hnot => absurd hbody hnot⟩
    · rw [hx]
      rfl
  · obtain ⟨hx, hgiven, hanswers⟩ := hrun _ rfl hdelivered
    refine ⟨hgiven, ?_, fun _ => ⟨error, hio, hanswers⟩, fun hbody => absurd hbody hno⟩
    rw [hx]
    exact ⟨fun _ => hno, fun _ => rfl⟩

/-- The body `{"error":null}`, read token by token: its name, its value, and the braces around. -/
theorem Json.parse?_null_error :
    parse? r#"{"error":null}"# = some (.object [("error", .null)]) := by
  have hname : ∀ rest, stringFrom? [] ('e' :: 'r' :: 'r' :: 'o' :: 'r' :: '"' :: rest)
      = some ("error", rest) := by
    intro rest
    simp [stringFrom?]
  have hvalue : ∀ steps depth rest, valueFrom? (steps + 1) depth ('n' :: 'u' :: 'l' :: 'l' :: rest)
      = some (.null, rest) := by
    intro steps depth rest
    rw [valueFrom?]
    simp [skipBlanks, isBlankChar, expect?]
  have hmember : ∀ steps depth, membersFrom? (steps + 2) depth .empty
      ('"' :: 'e' :: 'r' :: 'r' :: 'o' :: 'r' :: '"' :: ':' :: 'n' :: 'u' :: 'l' :: 'l' :: ['}'])
      = some (.object [("error", .null)], []) := by
    intro steps depth
    rw [membersFrom?]
    simp [skipBlanks, isBlankChar, string?, hname, hvalue, ofMap, FieldMap.insert,
      FieldMap.insertEntries, FieldMap.empty]
  have hobject : ∀ steps depth, valueFrom? (steps + 3) (depth + 1) ('{'
      :: '"' :: 'e' :: 'r' :: 'r' :: 'o' :: 'r' :: '"' :: ':' :: 'n' :: 'u' :: 'l' :: 'l' :: ['}'])
      = some (.object [("error", .null)], []) := by
    intro steps depth
    rw [valueFrom?]
    simp [skipBlanks, isBlankChar, hmember]
  have htext : r#"{"error":null}"#.toList
      = '{' :: '"' :: 'e' :: 'r' :: 'r' :: 'o' :: 'r' :: '"' :: ':'
        :: 'n' :: 'u' :: 'l' :: 'l' :: ['}'] := by rfl
  unfold parse? parseList?
  rw [htext]
  -- fourteen characters, so thirty steps
  have hsteps : 2 * 14 + 2 = 27 + 3 := rfl
  have hdepth : maxDepth = 126 + 1 := rfl
  simp only [List.length_cons, List.length_nil]
  rw [hsteps, hdepth, hobject]
  rfl

/-- An engine that is out of service and says `{"error":null}` is taken for an engine that found
nothing: with the status 503 the state is Executed and the count is zero. -/
theorem failed_status_executed_of_null_error :
    let c : Config := ⟨⟨"info"⟩, ⟨"http://localhost", "items", "modern", 1000, none, .empty⟩, .usual⟩
    let down : Http.Reply := ⟨503, r#"{"error":null}"#⟩
    let e : Engine := ⟨Engine.searchUrl "http://localhost" "items", Http.baseHeaders⟩
    let service : SearchService := ⟨.ofConfig c, .empty, e.deliver fun _ => .ok down⟩
    let s := (Finder.Session.start .initial []).run service [.access .count]
    SearchService.ofConfig (fun _ => .ok down) c .empty = .ok service ∧
      s.finder.execution.stateWord = "Executed" ∧
      ∀ shown, (Finder.Step.access .count, shown) ∈ s.events →
        shown = .answered (.ok (.count 0)) := by
  intro c down e service s
  have hservice : SearchService.ofConfig (fun _ => .ok down) c .empty = .ok service := rfl
  have hparse : Json.parse? down.text = some (.object [("error", .null)]) := Json.parse?_null_error
  have hpolled : ∃ accessor, Finder.Step.access accessor ∈ [Finder.Step.access .count] :=
    ⟨.count, List.mem_singleton_self _⟩
  obtain ⟨-, -, -, hresult⟩ := failed_status_fails_iff hservice .initial
    (.inr (by decide)) (fun _ _ => rfl) [] hpolled
  obtain ⟨hword, json, decoded, hjson, hdecoded, hanswers⟩ := hresult ⟨_, hparse, rfl⟩
  refine ⟨hservice, hword, fun shown he => ?_⟩
  rw [hparse] at hjson
  cases hjson
  cases hdecoded
  exact hanswers _ shown he

end HarvestSearch
