/-
How a failure that the engine reports reaches the caller.

The report is the member `error` of a reply, which `gleaner_search::response::engine_error` looks
at. What is told of it depends on this member alone: `Reply.Told` says it for every payload, and
`Reply.exists_told` says that a reply with the payload is found to report just that. The status of
the reply has no part in it, since `Engine.readReply` lets a body with such a member through at
every status, and neither has the rest of the body, since no result is read from a reply with a
report.

`reported_failure_told` follows a payload through both places to the answers of a finder.
-/
import HarvestSearch.Proofs.AnswersByState

set_option autoImplicit false

namespace HarvestSearch

/-! ## What is told of a payload -/

namespace Reply

/-- **What is told of the payload of a report.** A text is told as it stands, an object with a text
for its type and one for its reason by these two, and everything else, but for `null`, is told as it
is written. -/
inductive Told : Json → String → Prop where
  | text (text : String) : Told (.string text) text
  | kindAndReason {members : List (String × Json)} {kind reason : String}
      (hkind : (Json.object members).get? "type" = some (.string kind))
      (hreason : (Json.object members).get? "reason" = some (.string reason)) :
    Told (.object members) (kind ++ ": " ++ reason)
  | written {payload : Json} (hnull : payload ≠ .null) (htext : ∀ text, payload ≠ .string text)
      (hother : ∀ kind reason, ¬(payload.get? "type" = some (.string kind) ∧
        payload.get? "reason" = some (.string reason))) :
    Told payload payload.compact

theorem bind_asString?_eq_some_iff {value : Option Json} {text : String} :
    value.bind Json.asString? = some text ↔ value = some (.string text) := by
  rw [Option.bind_eq_some_iff]
  constructor
  · rintro ⟨json, hvalue, htext⟩
    cases json with
    | string s =>
      rw [hvalue, Option.some.inj htext]
    | _ => cases htext
  · intro h
    exact ⟨.string text, h, rfl⟩

theorem told_of_kind_of_reason {payload : Json} {kind reason : String}
    (hkind : payload.get? "type" = some (.string kind))
    (hreason : payload.get? "reason" = some (.string reason)) :
    Told payload (kind ++ ": " ++ reason) := by
  cases payload with
  | object members => exact .kindAndReason hkind hreason
  | _ => cases hkind

/-- One text at most is told of a payload. -/
theorem Told.unique {payload : Json} {detail other : String} (h : Told payload detail)
    (h' : Told payload other) : other = detail := by
  cases h with
  | text text =>
    cases h' with
    | text => rfl
    | written _ htext _ => exact absurd rfl (htext _)
  | kindAndReason hkind hreason =>
    cases h' with
    | kindAndReason hkind' hreason' =>
      rw [hkind, Option.some_inj, Json.string.injEq] at hkind'
      rw [hreason, Option.some_inj, Json.string.injEq] at hreason'
      rw [hkind', hreason']
    | written _ _ hother => exact absurd ⟨hkind, hreason⟩ (hother _ _)
  | written _ htext hother =>
    cases h' with
    | text => exact absurd rfl (htext _)
    | kindAndReason hkind hreason => exact absurd ⟨hkind, hreason⟩ (hother _ _)
    | written => rfl

theorem engineError?_of_text {reply : Json} {text : String}
    (h : reply.get? "error" = some (.string text)) : engineError? reply = some text := by
  unfold engineError?
  rw [h]

theorem engineError?_of_kind_of_reason {reply payload : Json} {kind reason : String}
    (h : reply.get? "error" = some payload) (hkind : payload.get? "type" = some (.string kind))
    (hreason : payload.get? "reason" = some (.string reason)) :
    engineError? reply = some (kind ++ ": " ++ reason) := by
  unfold engineError?
  rw [h]
  cases payload with
  | object members => simp only [hkind, hreason, Option.bind_some, Json.asString?]
  | _ => cases hkind

theorem engineError?_of_other {reply payload : Json} (h : reply.get? "error" = some payload)
    (hnull : payload ≠ .null) (htext : ∀ text, payload ≠ .string text)
    (hother : ∀ kind reason, ¬(payload.get? "type" = some (.string kind) ∧
      payload.get? "reason" = some (.string reason))) :
    engineError? reply = some payload.compact := by
  unfold engineError?
  rw [h]
  cases payload with
  | null => exact absurd rfl hnull
  | string text => exact absurd rfl (htext text)
  | object members =>
    dsimp only
    split
    · next kind reason hkind hreason =>
      rw [bind_asString?_eq_some_iff] at hkind hreason
      exact absurd ⟨hkind, hreason⟩ (hother kind reason)
    · rfl
  | _ => rfl

/-- **Something is told of every payload but `null`**, and every reply with the payload is found to
report that. -/
theorem exists_told {payload : Json} (hnull : payload ≠ .null) :
    ∃ detail, Told payload detail ∧
      ∀ reply : Json, reply.get? "error" = some payload → engineError? reply = some detail := by
  by_cases htext : ∃ text, payload = .string text
  · obtain ⟨text, rfl⟩ := htext
    exact ⟨text, .text text, fun reply h => engineError?_of_text h⟩
  have hno : ∀ text, payload ≠ .string text := fun text heq => htext ⟨text, heq⟩
  by_cases hboth : ∃ kind reason, payload.get? "type" = some (.string kind) ∧
      payload.get? "reason" = some (.string reason)
  · obtain ⟨kind, reason, hkind, hreason⟩ := hboth
    exact ⟨kind ++ ": " ++ reason, told_of_kind_of_reason hkind hreason,
      fun reply h => engineError?_of_kind_of_reason h hkind hreason⟩
  · have hother : ∀ kind reason, ¬(payload.get? "type" = some (.string kind) ∧
        payload.get? "reason" = some (.string reason)) :=
      fun kind reason h => hboth ⟨kind, reason, h⟩
    exact ⟨payload.compact, .written hnull hno hother,
      fun reply h => engineError?_of_other h hnull hno hother⟩

end Reply

/-! ## At every status -/

/-- A body with a member `error` is let through, whatever the status is. -/
theorem Engine.readReply_of_error_member {text : String} {json : Json}
    (hparse : Json.parse? text = some json) (hmember : (json.get? "error").isSome = true)
    (status : Nat) : readReply ⟨status, text⟩ = .ok json := by
  unfold readReply
  rw [hparse]
  simp only [hmember, Bool.or_true, if_true]

/-- The execution that such a body ends in. -/
theorem Engine.ofDelivery_of_error_member {connection : Http.Connection} {e : Engine}
    {catalog : Catalog} {r : Request} {document json : Json} {status : Nat} {text detail : String}
    (hreply : connection (e.request document) = .ok ⟨status, text⟩)
    (hread : readReply ⟨status, text⟩ = .ok json)
    (hreport : Reply.engineError? json = some detail) (n : Nat) :
    Execution.ofDelivery catalog r (e.deliver connection n document)
      = .failed (.engine detail) := by
  have hsearch : e.search connection document = .ok json := by
    unfold search
    rw [hreply]
    exact hread
  have hdelivered : e.deliver connection n document = .answered json := by
    unfold deliver
    rw [hsearch]
  rw [hdelivered, Execution.ofDelivery, Decoded.ofReply, hreport]
  rfl

/-- **A failure that the engine reports is told the same way at every status.** For every payload
but `null` there is one text that is told of it, and that text is all that the caller learns: take
any configuration that makes a service, any catalog and request, any status, and any text that is a
JSON object with this payload, whatever its other members are. Reading the reply gives the object,
and after any run every access fails with the text as the engine's own and leaves the finder in the
state Failed. -/
theorem reported_failure_told {payload : Json} (hnull : payload ≠ .null) :
    ∃ detail, (∀ told, Reply.Told payload told ↔ told = detail) ∧
      ∀ (connection : Http.Connection) (c : Config) (catalog : Catalog) (service : SearchService),
        SearchService.ofConfig connection c catalog = .ok service →
      ∀ (r : Request) (status : Nat) (text : String) (json : Json),
        Json.parse? text = some json → json.get? "error" = some payload →
        (∀ q : Http.Request, q.body = (Finder.new r).queryDocument service →
          connection q = .ok ⟨status, text⟩) →
      Engine.readReply ⟨status, text⟩ = .ok json ∧
      ∀ (earlier : List Json) (steps : List Finder.Step) (accessor : Accessor),
        let s := (Finder.Session.start r earlier).run service steps
        let a := s.finder.call service s.sent accessor
        a.answer = some (.error (.engine detail)) ∧
          a.finder.execution.stateWord = "Failed" := by
  obtain ⟨detail, htold, hreport⟩ := Reply.exists_told hnull
  have hone : ∀ told, Reply.Told payload told ↔ told = detail := by
    intro told
    constructor
    · intro h
      exact htold.unique h
    · rintro rfl
      exact htold
  refine ⟨detail, hone, ?_⟩
  intro connection c catalog service hservice r status text json hparse hmember hreply
  have hread : Engine.readReply ⟨status, text⟩ = .ok json := by
    refine Engine.readReply_of_error_member hparse ?_ status
    rw [hmember]
    rfl
  refine ⟨hread, ?_⟩
  intro earlier steps accessor s a
  obtain ⟨e, -, htransport⟩ := SearchService.exists_engine_of_ofConfig hservice
  have hsent : connection (e.request ((Finder.new r).queryDocument service))
      = .ok ⟨status, text⟩ := hreply _ rfl
  have hx : Execution.ofDelivery service.catalog r (service.transport
      (earlier.length + s.givenUp) ((Finder.new r).queryDocument service))
      = .failed (.engine detail) := by
    rw [htransport]
    exact Engine.ofDelivery_of_error_member hsent hread (hreport json hmember) _
  obtain ⟨hfinder, hanswer⟩ := Finder.Session.call_of_run hx accessor
  refine ⟨hanswer, ?_⟩
  have hexec : a.finder.execution = .failed (.engine detail) :=
    congrArg Finder.execution hfinder
  rw [hexec]
  rfl

/-- A body with a report beside a number of matches. -/
theorem Json.parse?_failure_beside_hits :
    parse? r#"{"error":{"type":"io","reason":"disk full"},"hits":{"total":1}}"#
      = some (.object [
          ("error", .object [("reason", .string "disk full"), ("type", .string "io")]),
          ("hits", .object [("total", .int 1)])]) := by
  have htext : r#"{"error":{"type":"io","reason":"disk full"},"hits":{"total":1}}"#.toList
      = ['{', '"', 'e', 'r', 'r', 'o', 'r', '"', ':',
          '{', '"', 't', 'y', 'p', 'e', '"', ':', '"', 'i', 'o', '"', ',',
          '"', 'r', 'e', 'a', 's', 'o', 'n', '"', ':',
          '"', 'd', 'i', 's', 'k', ' ', 'f', 'u', 'l', 'l', '"', '}', ',',
          '"', 'h', 'i', 't', 's', '"', ':',
          '{', '"', 't', 'o', 't', 'a', 'l', '"', ':', '1', '}', '}'] := by
    rfl
  unfold parse?
  rw [htext]
  rfl

/-- A reply of success that reports a failure beside a hit: the failure is told by type and reason,
and nobody sees the hit. -/
theorem failure_told_beside_hits :
    let payload : Json := .object [("reason", .string "disk full"), ("type", .string "io")]
    let text := r#"{"error":{"type":"io","reason":"disk full"},"hits":{"total":1}}"#
    let json : Json := .object [("error", payload), ("hits", .object [("total", .int 1)])]
    let c : Config := ⟨⟨"info"⟩, ⟨"http://localhost", "items", "modern", 1000, none, .empty⟩, .usual⟩
    let e : Engine := ⟨Engine.searchUrl "http://localhost" "items", Http.baseHeaders⟩
    let connection : Http.Connection := fun _ => .ok ⟨200, text⟩
    let service : SearchService := ⟨.ofConfig c, .empty, e.deliver connection⟩
    payload ≠ .null ∧ SearchService.ofConfig connection c .empty = .ok service ∧
      Json.parse? text = some json ∧ json.get? "error" = some payload ∧
      ((Finder.new .initial).call service [] .count).answer
        = some (.error (.engine "io: disk full")) := by
  intro payload text json c e connection service
  have hnull : payload ≠ .null := Json.noConfusion
  have hservice : SearchService.ofConfig connection c .empty = .ok service := rfl
  have hparse : Json.parse? text = some json := Json.parse?_failure_beside_hits
  obtain ⟨detail, hone, hall⟩ := reported_failure_told hnull
  obtain ⟨-, hanswers⟩ := hall connection c .empty service hservice .initial 200 text json hparse
    rfl fun _ _ => rfl
  have htold : Reply.Told payload ("io" ++ ": " ++ "disk full") :=
    Reply.told_of_kind_of_reason rfl rfl
  have hdetail : "io: disk full" = detail := (hone _).1 htold
  refine ⟨hnull, hservice, hparse, rfl, ?_⟩
  rw [hdetail]
  exact (hanswers [] [] .count).1

end HarvestSearch
