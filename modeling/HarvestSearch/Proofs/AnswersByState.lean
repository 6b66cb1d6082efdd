/-
What the state of a finder tells about its answers.

A finder (`gleaner_search::finder::Finder`) comes to one of two states, and they keep two kinds of
failures apart. In the state Failed there is no result: the engine or the way to it failed, and
every accessor says so in the same words. In the state Executed there is a result, and only the
accessor of the items can fail, because it insists on a page without rejected hits.
`Execution.delivered_cases` is the reason for the first and `Decoded.items_of_rejected` for the
second.

`Session.call_cases` says what any access of any run comes to: it is given up, or it leaves one of
the two states behind and answers accordingly. `failures_by_state` draws the consequences.
-/
import HarvestSearch.Proofs.EngineReplies
import HarvestSearch.Proofs.PageDivision
import HarvestSearch.Sample

set_option autoImplicit false

namespace HarvestSearch

/-! ## The page of a result -/

namespace Decoded

variable {catalog : Catalog} {r : Request} {reply : Json} {d : Decoded}

/-- The page has the hits of the reply, and none when no documents are asked for. -/
theorem page_of_ofReply (h : ofReply catalog r reply = .ok d) :
    d.page = if r.limit = some 0 then Page.empty else Page.ofReply reply catalog.registry := by
  unfold ofReply at h
  split at h
  · cases h
  · cases h
    rfl

theorem pairwise_rejected (h : ofReply catalog r reply = .ok d) :
    d.page.rejected.Pairwise fun hit later => hit.position < later.position := by
  rw [page_of_ofReply h]
  by_cases hlimit : r.limit = some 0
  · rw [if_pos hlimit]
    exact List.Pairwise.nil
  · rw [if_neg hlimit]
    obtain ⟨kept, hdivides⟩ := Page.divides_ofHits catalog.registry (Reply.hits reply) 0
    exact List.pairwise_map.1 hdivides.pairwise_lt.2

theorem items_eq_ok_iff {items : List Item} :
    d.items = .ok items ↔ d.page.rejected = [] ∧ items = d.page.items := by
  unfold Decoded.items
  cases hrejected : d.page.rejected with
  | nil => simp [eq_comm]
  | cons hit rest => simp

/-- Otherwise the failure is what is said of the rejected hit that stands before all others. -/
theorem items_of_rejected
    (hpairwise : d.page.rejected.Pairwise fun hit later => hit.position < later.position)
    (hrejected : d.page.rejected ≠ []) :
    ∃ hit ∈ d.page.rejected,
      (∀ other ∈ d.page.rejected, other ≠ hit → hit.position < other.position) ∧
        d.items = .error (.invalidDocument hit.message) := by
  unfold Decoded.items
  cases hhits : d.page.rejected with
  | nil => exact absurd hhits hrejected
  | cons first rest =>
    rw [hhits] at hpairwise
    refine ⟨first, List.mem_cons_self, ?_, rfl⟩
    intro other hother hne
    rcases List.mem_cons.1 hother with heq | hrest
    · exact absurd heq hne
    · exact (List.pairwise_cons.1 hpairwise).1 other hrest

end Decoded

/-! ## What an access comes to -/

/-- A delivery leaves an execution outstanding, or makes it fail with a failure of the engine or of
the way to it, or is a reply that a result is read from. -/
theorem Execution.delivered_cases (catalog : Catalog) (r : Request) (delivery : Delivery) :
    ofDelivery catalog r delivery = .executing ∨
    (∃ error : SearchError, error.isIo = true ∧ ofDelivery catalog r delivery = .failed error) ∨
    ∃ reply d, delivery = .answered reply ∧ Decoded.ofReply catalog r reply = .ok d ∧
      ofDelivery catalog r delivery = .executed d := by
  cases delivery with
  | pending => exact .inl rfl
  | failed detail => exact .inr (.inl ⟨.transport detail, rfl, rfl⟩)
  | answered reply =>
    rw [ofDelivery]
    rcases Decoded.ofReply_cases catalog r reply with ⟨detail, -, hreply⟩ | ⟨-, d, hreply⟩
    · rw [hreply]
      exact .inr (.inl ⟨.engine detail, rfl, rfl⟩)
    · refine .inr (.inr ⟨reply, d, rfl, hreply, ?_⟩)
      rw [hreply]
      rfl

namespace Finder

theorem read_items_eq_ok_iff {d : Decoded} {items : List Item} :
    Accessor.read d .items = .ok (.items items) ↔ d.items = .ok items := by
  unfold Accessor.read
  cases d.items with
  | error error => simp [Except.map]
  | ok list => simp [Except.map]

theorem read_items_eq_error_iff {d : Decoded} {error : SearchError} :
    Accessor.read d .items = .error error ↔ d.items = .error error := by
  unfold Accessor.read
  cases d.items with
  | error error => simp [Except.map]
  | ok list => simp [Except.map]

/-- What an accessor does not find in a result is not the fault of the engine. -/
theorem not_isIo_of_read {d : Decoded} {accessor : Accessor} {error : SearchError}
    (h : accessor.read d = .error error) : error.isIo = false := by
  cases accessor with
  | count => cases h
  | facets => cases h
  | decoded => cases h
  | items =>
    have hitems : d.items = .error error := read_items_eq_error_iff.1 h
    unfold Decoded.items at hitems
    split at hitems
    · cases hitems
      rfl
    · cases hitems

/-- Without documents there is nothing to reject. -/
theorem read_items_of_limit_zero {catalog : Catalog} {r : Request} {reply : Json} {d : Decoded}
    (hreply : Decoded.ofReply catalog r reply = .ok d) (hlimit : r.limit = some 0) :
    Accessor.read d .items = .ok (.items []) := by
  have hpage : d.page = Page.empty := by
    rw [Decoded.page_of_ofReply hreply, if_pos hlimit]
  rw [read_items_eq_ok_iff, Decoded.items_eq_ok_iff, hpage]
  exact ⟨rfl, rfl⟩

/-- **What an access comes to**, after any run and for every accessor alike: it is given up, or it
fails with the failure that is then stored, or there is a result, read from a reply of the engine,
and it answers from that. -/
theorem Session.call_cases (service : SearchService) (r : Request) (earlier : List Json)
    (steps : List Step) :
    let s := (start r earlier).run service steps
    let call := fun accessor => s.finder.call service s.sent accessor
    (∀ accessor, (call accessor).finder = ⟨r, .executing⟩ ∧ (call accessor).answer = none) ∨
    (∃ error : SearchError, error.isIo = true ∧ ∀ accessor,
      (call accessor).finder = ⟨r, .failed error⟩ ∧
        (call accessor).answer = some (.error error)) ∨
    ∃ reply d, service.transport (earlier.length + s.givenUp)
        ((Finder.new r).queryDocument service) = .answered reply ∧
      Decoded.ofReply service.catalog r reply = .ok d ∧ ∀ accessor,
      (call accessor).finder = ⟨r, .executed d⟩ ∧
        (call accessor).answer = some (accessor.read d) := by
  intro s call
  rcases Execution.delivered_cases service.catalog r (service.transport
      (earlier.length + s.givenUp) ((Finder.new r).queryDocument service)) with
    hx | ⟨error, hio, hx⟩ | ⟨reply, d, hdelivered, hreply, hx⟩
  · exact .inl (call_of_run hx)
  · exact .inr (.inl ⟨error, hio, call_of_run hx⟩)
  · exact .inr (.inr ⟨reply, d, hdelivered, hreply, call_of_run hx⟩)

/-- A reply without a report of a failure has a result, which every access leaves behind and every
accessor answers from. -/
theorem Session.call_of_answered {service : SearchService} {r : Request} {earlier : List Json}
    {steps : List Step} {reply : Json}
    (hdelivered : service.transport
        (earlier.length + ((start r earlier).run service steps).givenUp)
        ((Finder.new r).queryDocument service) = .answered reply)
    (hreport : Reply.engineError? reply = none) :
    let s := (start r earlier).run service steps
    ∃ d, Decoded.ofReply service.catalog r reply = .ok d ∧ ∀ accessor,
      (s.finder.call service s.sent accessor).finder = ⟨r, .executed d⟩ ∧
        (s.finder.call service s.sent accessor).answer = some (accessor.read d) := by
  intro s
  rcases Decoded.ofReply_cases service.catalog r reply with
    ⟨detail, hdetail, -⟩ | ⟨-, d, hreply⟩
  · rw [hreport] at hdetail
    cases hdetail
  · have hx : Execution.ofDelivery service.catalog r (service.transport
        (earlier.length + s.givenUp) ((Finder.new r).queryDocument service)) = .executed d := by
      rw [hdelivered, Execution.ofDelivery, hreply]
      rfl
    exact ⟨d, hreply, call_of_run hx⟩

/-! ## The main statement -/

/-- **The state tells the kind of failure.** Take any run of a finder and any access after it. With an
outcome nothing is sent and the finder stays as it is, whatever was asked of it before. If the access
fails, it fails with a failure of the engine or of the way to it exactly when it leaves the state
Failed behind. In the state Failed every accessor answers with the one failure that is stored. In the
state Executed the count, the facets and the whole result are answered from the one result that is
stored, and the items as well if no hit of its page was rejected; otherwise they fail with what is
said of the rejected hit that stands before all others. When no documents are asked for, the items
are the empty list exactly if there is a result, whatever hits the reply has. And there is a result,
whatever is accessed first, if the engine answers and reports no failure. -/
theorem failures_by_state (service : SearchService) (r : Request) (earlier : List Json)
    (steps : List Step) :
    let s := (Session.start r earlier).run service steps
    let call := fun accessor => s.finder.call service s.sent accessor
    let state := fun accessor => (call accessor).finder.execution.stateWord
    (s.finder.execution.isDone = true →
      ∀ accessor, (call accessor).finder = s.finder ∧ (call accessor).sent = s.sent) ∧
    (∀ accessor error, (call accessor).answer = some (.error error) →
      (error.isIo = true ↔ state accessor = "Failed")) ∧
    (∀ accessor, state accessor = "Failed" → ∃ error : SearchError, error.isIo = true ∧
      ∀ other, (call other).finder.execution = .failed error ∧
        (call other).answer = some (.error error)) ∧
    (∀ accessor, state accessor = "Executed" → ∃ d : Decoded,
      (∀ other, (call other).finder.execution = .executed d) ∧
      (call .decoded).answer = some (.ok (.decoded d)) ∧
      (call .count).answer = some (.ok (.count d.count)) ∧
      (call .facets).answer = some (.ok (.facets d.facets)) ∧
      (∀ items, (call .items).answer = some (.ok (.items items)) ↔
        d.page.rejected = [] ∧ items = d.page.items) ∧
      (d.page.rejected ≠ [] → ∃ hit ∈ d.page.rejected,
        (∀ other ∈ d.page.rejected, other ≠ hit → hit.position < other.position) ∧
          (call .items).answer = some (.error (.invalidDocument hit.message)))) ∧
    (r.limit = some 0 →
      ((call .items).answer = some (.ok (.items [])) ↔ state .items = "Executed")) ∧
    ∀ reply, service.transport (earlier.length + s.givenUp)
        ((Finder.new r).queryDocument service) = .answered reply →
      Reply.engineError? reply = none →
        (∀ accessor, state accessor = "Executed") ∧
        (r.limit = some 0 → (call .items).answer = some (.ok (.items []))) := by
  intro s call state
  have hstate : ∀ {accessor x}, (call accessor).finder = ⟨r, x⟩ → state accessor = x.stateWord :=
    fun hfinder => congrArg (fun f : Finder => f.execution.stateWord) hfinder
  have hkept : s.finder.execution.isDone = true →
      ∀ accessor, (call accessor).finder = s.finder ∧ (call accessor).sent = s.sent := by
    intro hdone accessor
    have hcall : call accessor = ⟨s.finder, s.sent, _⟩ :=
      call_of_isDone service s.sent hdone accessor
    rw [hcall]
    exact ⟨rfl, rfl⟩
  have hanswered : ∀ reply, service.transport (earlier.length + s.givenUp)
        ((Finder.new r).queryDocument service) = .answered reply →
      Reply.engineError? reply = none →
        (∀ accessor, state accessor = "Executed") ∧
        (r.limit = some 0 → (call .items).answer = some (.ok (.items []))) := by
    intro reply hdelivered hreport
    obtain ⟨d, hreply, hread⟩ := Session.call_of_answered hdelivered hreport
    refine ⟨fun accessor => hstate (hread accessor).1, fun hlimit => ?_⟩
    exact (hread .items).2.trans (congrArg some (read_items_of_limit_zero hreply hlimit))
  refine ⟨hkept, ?_⟩
  rcases Session.call_cases service r earlier steps with
    hgiven | ⟨stored, hio, hfailed⟩ | ⟨reply, d, -, hreply, hread⟩
  · -- an access that is given up has no answer, and the state is neither of the two
    have hword : ∀ accessor, state accessor = "Executing" := fun a => hstate (hgiven a).1
    refine ⟨?_, ?_, ?_, ?_, hanswered⟩
    · intro accessor error hanswer
      exact absurd ((hgiven accessor).2.symm.trans hanswer) (Option.some_ne_none _).symm
    · intro accessor h
      exact absurd ((hword accessor).symm.trans h) (by decide)
    · intro accessor h
      exact absurd ((hword accessor).symm.trans h) (by decide)
    · intro hlimit
      rw [hword, show (call .items).answer = none from (hgiven .items).2]
      exact ⟨fun h => absurd h.symm (Option.some_ne_none _), fun h => absurd h (by decide)⟩
  · have hword : ∀ accessor, state accessor = "Failed" := fun a => hstate (hfailed a).1
    refine ⟨?_, ?_, ?_, ?_, hanswered⟩
    · intro accessor error hanswer
      have heq : stored = error :=
        Except.error.inj (Option.some.inj ((hfailed accessor).2.symm.trans hanswer))
      rw [← heq, hio, hword]
      exact ⟨fun _ => rfl, fun _ => rfl⟩
    · intro accessor h
      exact ⟨stored, hio, fun other => ⟨congrArg execution (hfailed other).1, (hfailed other).2⟩⟩
    · intro accessor h
      exact absurd ((hword accessor).symm.trans h) (by decide)
    · intro hlimit
      rw [hword, show (call .items).answer = some (.error stored) from (hfailed .items).2]
      exact ⟨fun h => absurd (Option.some.inj h) (by simp), fun h => absurd h (by decide)⟩
  · have hword : ∀ accessor, state accessor = "Executed" := fun a => hstate (hread a).1
    have hanswer : ∀ accessor, (call accessor).answer = some (accessor.read d) :=
      fun a => (hread a).2
    refine ⟨?_, ?_, ?_, ?_, hanswered⟩
    · intro accessor error herror
      -- only the items of a result can fail, over a document
      have hdocument : error.isIo = false :=
        not_isIo_of_read (Option.some.inj ((hanswer accessor).symm.trans herror))
      rw [hdocument, hword]
      exact ⟨fun h => absurd h Bool.false_ne_true, fun h => absurd h (by decide)⟩
    · intro accessor h
      exact absurd ((hword accessor).symm.trans h) (by decide)
    · intro accessor h
      refine ⟨d, fun other => congrArg execution (hread other).1, hanswer .decoded, hanswer .count,
        hanswer .facets, ?_, ?_⟩
      · intro items
        rw [hanswer, Option.some_inj, read_items_eq_ok_iff, Decoded.items_eq_ok_iff]
      · intro hrejected
        obtain ⟨hit, hmem, hfirst, hitems⟩ :=
          Decoded.items_of_rejected (Decoded.pairwise_rejected hreply) hrejected
        refine ⟨hit, hmem, hfirst, ?_⟩
        rw [hanswer, read_items_eq_error_iff.2 hitems]
    · intro hlimit
      rw [hword, hanswer, read_items_of_limit_zero hreply hlimit]
      exact ⟨fun _ => rfl, fun _ => rfl⟩

/-- The first access was given up, and then the engine answers with a hit that holds no document. The
items fail over it and leave the result in place; when no documents are asked for, the same reply
makes no items and no failure. -/
theorem answers_beside_malformed_hit :
    let reply := Sample.reply 2 [Sample.hit "a", .object [("_id", .string "b")]]
    let service : SearchService := ⟨.usual, Sample.catalog, fun sent _ =>
      if sent = 0 then .pending else .answered reply⟩
    let unlimited := Request.initial
    let limited := { Request.initial with limit := some 0 }
    let call := fun r accessor =>
      let s := (Session.start r []).run service [.access .items]
      s.finder.call service s.sent accessor
    (∀ accessor, (call unlimited accessor).finder.execution.stateWord = "Executed") ∧
      (call unlimited .items).answer
        = some (.error (.invalidDocument "hit 1 has no _source.")) ∧
      (call unlimited .count).answer = some (.ok (.count 2)) ∧
      (∀ accessor, (call limited accessor).finder.execution.stateWord = "Executed") ∧
      (call limited .items).answer = some (.ok (.items [])) := by
  intro reply service unlimited limited call
  obtain ⟨-, -, -, -, -, hunlimited⟩ := failures_by_state service unlimited [] [.access .items]
  obtain ⟨-, -, -, -, -, hlimited⟩ := failures_by_state service limited [] [.access .items]
  obtain ⟨hstate, hitems⟩ := hlimited reply rfl rfl
  have hfailed : (call unlimited .items).answer
      = some (.error (.invalidDocument "hit 1 has no _source.")) := by decide +kernel
  exact ⟨(hunlimited reply rfl rfl).1, hfailed, rfl, hstate, hitems rfl⟩

end Finder

end HarvestSearch
