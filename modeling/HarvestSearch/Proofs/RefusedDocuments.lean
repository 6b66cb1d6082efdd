/-
How a refused document is reported.

The reason why a document has no item becomes an error of a search in two ways. Converted as it is,
by the `from` of `gleaner_search::Error`, a refused document stays a refused document with the same
reason, and is shown in the words of the reason. On its way through a page the reason becomes a text
with the heading of refused documents already in front, and the accessor of the items takes that
text for a reason and puts the heading before it once more.

So the two never agree. `Page.rejected_of_first_refused` finds the rejected hit whose text is told,
`Finder.call_items_of_first_refused` follows the text to the answer of every access, and
`Finder.refusal_headed_twice` compares it with the conversion.
-/
import HarvestSearch.Proofs.AnswersByState

set_option autoImplicit false

namespace HarvestSearch

/-! ## The first refused hit -/

namespace Page

variable {registry : Registry}

theorem decodeHit_of_refuses {position : Nat} {hit : Json} {message : String}
    (h : Refuses registry position hit message) :
    decodeHit registry position hit = .error message := by
  rcases decodeHit_cases registry position hit with ⟨item, -, haccepts⟩ | ⟨other, hother, -⟩
  · exact absurd haccepts (h.not_accepts item)
  · cases h with
    | noSource hno =>
      unfold decodeHit
      rw [source?_eq_none_iff.2 hno]
      rfl
    | noItem hsource herror =>
      unfold decodeHit
      rw [source?_eq_some_iff.2 ⟨_, rfl, hsource⟩]
      simp only [herror]
      rfl

theorem rejected_of_accepted {hits : List Json}
    (h : ∀ hit ∈ hits, ∃ item, Accepts registry hit item) :
    ∀ position, (ofHits registry position hits).rejected = [] := by
  induction hits with
  | nil => exact fun _ => rfl
  | cons hit hits ih =>
    intro position
    obtain ⟨item, haccepts⟩ := h hit List.mem_cons_self
    have hrest : (ofHits registry (position + 1) hits).rejected = [] :=
      ih (fun other hother => h other (List.mem_cons_of_mem _ hother)) (position + 1)
    rcases decodeHit_cases registry position hit with ⟨kept, hkept, -⟩ | ⟨message, -, hrefused⟩
    · rw [ofHits, hkept]
      exact hrest
    · exact absurd haccepts (hrefused.not_accepts item)

/-- The first refused hit is the first of the rejected hits. -/
theorem rejected_of_first_refused {front : List Json} {hit : Json} (back : List Json)
    {message : String} (hfront : ∀ other ∈ front, ∃ item, Accepts registry other item)
    (hrefused : Refuses registry front.length hit message) :
    ∃ rest, (ofHits registry 0 (front ++ hit :: back)).rejected
      = ⟨front.length, message⟩ :: rest := by
  rw [ofHits_append]
  have hnone : (ofHits registry 0 front).rejected = [] := rejected_of_accepted hfront 0
  have hdecoded : decodeHit registry (0 + front.length) hit = .error message := by
    rw [Nat.zero_add]
    exact decodeHit_of_refuses hrefused
  refine ⟨(ofHits registry (0 + front.length + 1) back).rejected, ?_⟩
  rw [append, hnone, List.nil_append, ofHits, hdecoded, Nat.zero_add]

end Page

/-! ## The two ways -/

/-- The text of a refusal is not its reason, since it has the heading in front. -/
theorem DomainError.message_invalidDocument_ne (reason : String) :
    (DomainError.invalidDocument reason).message ≠ reason := by
  intro h
  have hlength : (DomainError.invalidDocument reason).message.length = reason.length := by rw [h]
  have hheading : (DomainError.invalidDocument reason).message.length
      = "Invalid document: ".length + reason.length := String.length_append ..
  have hpositive : 0 < "Invalid document: ".length := by decide
  omega

namespace Finder

/-- The items fail with what is said of the first refused hit, at every access, whatever was done
with the finder before. -/
theorem call_items_of_first_refused {service : SearchService} {r : Request} {earlier : List Json}
    {steps : List Step} {reply hit : Json} {front back : List Json} {message : String}
    (hdelivered : service.transport
        (earlier.length + ((Session.start r earlier).run service steps).givenUp)
        ((Finder.new r).queryDocument service) = .answered reply)
    (hreport : Reply.engineError? reply = none) (hlimit : r.limit ≠ some 0)
    (hhits : Reply.hits reply = front ++ hit :: back)
    (hfront : ∀ other ∈ front, ∃ item, Page.Accepts service.catalog.registry other item)
    (hrefused : Page.Refuses service.catalog.registry front.length hit message) :
    let s := (Session.start r earlier).run service steps
    (s.finder.call service s.sent .items).answer
      = some (.error (.invalidDocument message)) := by
  intro s
  obtain ⟨d, hreply, hanswer⟩ := Session.call_of_answered hdelivered hreport
  obtain ⟨rest, hrejected⟩ := Page.rejected_of_first_refused back hfront hrefused
  have hpage : d.page.rejected = ⟨front.length, message⟩ :: rest := by
    rw [Decoded.page_of_ofReply hreply, if_neg hlimit, Page.ofReply, hhits]
    exact hrejected
  have hitems : Accessor.read d .items = .error (.invalidDocument message) := by
    rw [read_items_eq_error_iff]
    unfold Decoded.items
    rw [hpage]
  rw [← hitems]
  exact (hanswer .items).2

/-- **A refused document is reported under two headings.** Take any catalog, any request for
documents, and any reply without a report of a failure in which some hit holds a document without an
item, and all hits before it have items. Whatever was done with the finder before, the accessor of
the items fails. Its failure is a refused document, as the direct conversion of the reason is, but
the reason it gives is the whole text that the direct conversion is shown in, so that the heading
stands there twice, and the two are never the same. -/
theorem refusal_headed_twice {service : SearchService} {r : Request} {earlier : List Json}
    {steps : List Step} {reply hit : Json} {front back : List Json}
    {members : List (String × Json)} {reason : DomainError}
    (hdelivered : service.transport
        (earlier.length + ((Session.start r earlier).run service steps).givenUp)
        ((Finder.new r).queryDocument service) = .answered reply)
    (hreport : Reply.engineError? reply = none) (hlimit : r.limit ≠ some 0)
    (hhits : Reply.hits reply = front ++ hit :: back)
    (hfront : ∀ other ∈ front, ∃ item, Page.Accepts service.catalog.registry other item)
    (hsource : hit.get? "_source" = some (.object members))
    (hreason : Item.ofSource (.object members) service.catalog.registry = .error reason) :
    let s := (Session.start r earlier).run service steps
    let direct := SearchError.ofDomainError reason
    ∃ shown : SearchError, (s.finder.call service s.sent .items).answer = some (.error shown) ∧
      (∃ detail, direct = .invalidDocument detail) ∧ direct.message = reason.message ∧
      shown = .invalidDocument reason.message ∧
      shown.message = "Invalid document: " ++ reason.message ∧ shown ≠ direct := by
  intro s direct
  obtain ⟨fault, hfault⟩ := Item.ofSource_error hreason
  have hdirect : direct = .invalidDocument fault.message := by
    show SearchError.ofDomainError reason = _
    rw [hfault]
    rfl
  have hanswer : (s.finder.call service s.sent .items).answer
      = some (.error (.invalidDocument reason.message)) :=
    call_items_of_first_refused hdelivered hreport hlimit hhits hfront (.noItem hsource hreason)
  refine ⟨_, hanswer, ⟨_, hdirect⟩, ?_, rfl, rfl, ?_⟩
  · rw [hdirect, hfault]
    rfl
  · intro hsame
    rw [hdirect, hfault] at hsame
    exact DomainError.message_invalidDocument_ne _ (SearchError.invalidDocument.inj hsame)

/-- A reply with a document that has an identity and no address, behind one that is complete. -/
theorem refusal_of_missing_address :
    let complete : Json := .object [("_source", .object [
      (Field.indexId, .string "a"), (Field.sourceUri, .string "http://x/a"),
      (Field.elements, .array [.object [("name", .string "title"), ("value", .string "A")]])])]
    let broken : Json := .object [("_source", .object [(Field.indexId, .string "b")])]
    let reply : Json := .object [("hits", .object [("hits", .array [complete, broken])])]
    let service : SearchService := ⟨.usual, .empty, fun _ _ => .answered reply⟩
    let s := (Session.start .initial []).run service [.access .decoded]
    ∃ reason, Item.ofSource (.object [(Field.indexId, .string "b")]) .empty = .error reason ∧
      SearchError.ofDomainError reason = .invalidDocument "b is missing source_uri." ∧
      (s.finder.call service s.sent .items).answer
        = some (.error (.invalidDocument "Invalid document: b is missing source_uri.")) := by
  intro complete broken reply service s
  have hreason : Item.ofSource (.object [(Field.indexId, .string "b")]) .empty
      = .error (.invalidDocument "b is missing source_uri.") := rfl
  have hfront : ∀ other ∈ [complete], ∃ item, Page.Accepts Registry.empty other item := by
    intro other hother
    rw [List.mem_singleton.1 hother]
    exact ⟨_, _, rfl, rfl⟩
  have hdelivered : service.transport (([] : List Json).length + s.givenUp)
      ((Finder.new .initial).queryDocument service) = .answered reply := rfl
  have hhits : Reply.hits reply = [complete] ++ broken :: [] := rfl
  have hlimit : Request.initial.limit ≠ some 0 := by decide
  obtain ⟨shown, hanswer, -, -, hshown, -, -⟩ :=
    refusal_headed_twice hdelivered rfl hlimit hhits hfront rfl hreason
  refine ⟨_, hreason, rfl, ?_⟩
  rw [hanswer, hshown]
  rfl

end Finder

end HarvestSearch
