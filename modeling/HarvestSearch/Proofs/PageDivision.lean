/-
How a page divides the hits of a reply.

Every hit of a reply is either an item of the page or one of its rejected hits
(`gleaner_search::materialize::materialize`), and which of the two depends on that hit alone.
`Accepts` and `Refuses` say for one hit when it is which and what is said of it. `Divides` says how
a list of hits becomes a page, one constructor for each thing that can happen to a hit, and keeps
the positions of the hits that became items, which the page itself forgets. `divides_ofHits` says
that reading hits divides them so; everything about positions is then an induction on `Divides`.

A page depends on where its hits stand only through the positions it tells, once in the record of a
rejected hit and once in the text about a hit without a document. `RejectedHit.shift` moves both,
and `ofHits_append` and `ofHits_shift` make pages of two lists of hits into the page of both.

`Reply.HoldsHits` says which hits a reply holds by the path to them, without the reader of replies,
and `Page.IsDivision` what a page of them has to be; `page_divides_hits` is the main statement.
-/
import Mathlib.Data.List.Forall2
import HarvestSearch.Page
import HarvestSearch.Proofs.StoredItems

set_option autoImplicit false

namespace HarvestSearch

namespace Page

/-! ## One hit -/

/-- The hit holds a stored document, and the document has this item. -/
def Accepts (registry : Registry) (hit : Json) (item : Item) : Prop :=
  ∃ members, hit.get? "_source" = some (.object members) ∧
    Item.ofSource (.object members) registry = .ok item

/-- What is said of a hit without a stored document. -/
def noSourceMessage (position : Nat) : String :=
  "hit " ++ Json.intText position ++ " has no _source."

/-- What is said of a hit at a position that has no item: it holds no stored document, or the
document it holds has a fault. -/
inductive Refuses (registry : Registry) (position : Nat) (hit : Json) : String → Prop where
  | noSource (h : ∀ members, hit.get? "_source" ≠ some (.object members)) :
    Refuses registry position hit (noSourceMessage position)
  | noItem {members : List (String × Json)} {error : DomainError}
      (hsource : hit.get? "_source" = some (.object members))
      (herror : Item.ofSource (.object members) registry = .error error) :
    Refuses registry position hit error.message

theorem source?_eq_none_iff {hit : Json} :
    source? hit = none ↔ ∀ members, hit.get? "_source" ≠ some (.object members) := by
  unfold source?
  split
  · next members heq => simp [heq]
  · next hno => exact ⟨fun _ => hno, fun _ => rfl⟩

theorem source?_eq_some_iff {hit source : Json} :
    source? hit = some source ↔
      ∃ members, source = .object members ∧ hit.get? "_source" = some (.object members) := by
  unfold source?
  split
  · next members heq => simp [heq, eq_comm]
  · next hno =>
    constructor
    · intro h
      cases h
    · rintro ⟨members, -, hget⟩
      exact absurd hget (hno members)

/-- A hit has an item, or there is something to say of it, and the two exclude each other. -/
theorem decodeHit_cases (registry : Registry) (position : Nat) (hit : Json) :
    (∃ item, decodeHit registry position hit = .ok item ∧ Accepts registry hit item) ∨
    ∃ message, decodeHit registry position hit = .error message ∧
      Refuses registry position hit message := by
  unfold decodeHit
  cases hsource : source? hit with
  | none => exact .inr ⟨_, rfl, .noSource (source?_eq_none_iff.1 hsource)⟩
  | some source =>
    obtain ⟨members, rfl, hget⟩ := source?_eq_some_iff.1 hsource
    cases hitem : Item.ofSource (.object members) registry with
    | ok item => exact .inl ⟨item, by simp only [hitem]; rfl, members, hget, hitem⟩
    | error error => exact .inr ⟨_, by simp only [hitem]; rfl, .noItem hget hitem⟩

theorem Refuses.not_accepts {registry : Registry} {position : Nat} {hit : Json} {message : String}
    (h : Refuses registry position hit message) (item : Item) : ¬Accepts registry hit item := by
  rintro ⟨members, hget, hitem⟩
  cases h with
  | noSource hno => exact hno members hget
  | noItem hsource herror =>
    rw [hget] at hsource
    cases hsource
    rw [hitem] at herror
    cases herror

/-- There is something to say of a hit unless it has an item. -/
theorem exists_refuses_iff {registry : Registry} {position : Nat} {hit : Json} :
    (∃ message, Refuses registry position hit message) ↔
      (∀ members, hit.get? "_source" ≠ some (.object members)) ∨
      ∃ members error, hit.get? "_source" = some (.object members) ∧
        Item.ofSource (.object members) registry = .error error := by
  constructor
  · rintro ⟨message, h⟩
    cases h with
    | noSource hno => exact .inl hno
    | noItem hsource herror => exact .inr ⟨_, _, hsource, herror⟩
  · rintro (hno | ⟨members, error, hsource, herror⟩)
    · exact ⟨_, .noSource hno⟩
    · exact ⟨_, .noItem hsource herror⟩

/-! ## All hits -/

/-- **How hits become a page**, from a position on. The last argument lists the positions of the
hits that became items. -/
inductive Divides (registry : Registry) : Nat → List Json → Page → List Nat → Prop where
  | done (position : Nat) : Divides registry position [] empty []
  | accept {position : Nat} {hit : Json} {hits : List Json} {item : Item} {page : Page}
      {kept : List Nat} (h : Accepts registry hit item)
      (rest : Divides registry (position + 1) hits page kept) :
    Divides registry position (hit :: hits) { page with items := item :: page.items }
      (position :: kept)
  | refuse {position : Nat} {hit : Json} {hits : List Json} {message : String} {page : Page}
      {kept : List Nat} (h : Refuses registry position hit message)
      (rest : Divides registry (position + 1) hits page kept) :
    Divides registry position (hit :: hits)
      { page with rejected := ⟨position, message⟩ :: page.rejected } kept

theorem divides_ofHits (registry : Registry) (hits : List Json) :
    ∀ position, ∃ kept, Divides registry position hits (ofHits registry position hits) kept := by
  induction hits with
  | nil => exact fun position => ⟨[], .done position⟩
  | cons hit hits ih =>
    intro position
    obtain ⟨kept, hrest⟩ := ih (position + 1)
    rcases decodeHit_cases registry position hit with ⟨item, hitem, h⟩ | ⟨message, hmessage, h⟩
    · refine ⟨position :: kept, ?_⟩
      simp only [ofHits, hitem]
      exact .accept h hrest
    · refine ⟨kept, ?_⟩
      simp only [ofHits, hmessage]
      exact .refuse h hrest

/-- The positions of the rejected hits of a page. -/
def rejectedPositions (page : Page) : List Nat := page.rejected.map (·.position)

namespace Divides

variable {registry : Registry} {position : Nat} {hits : List Json} {page : Page} {kept : List Nat}

/-- No position is lost and none is used twice. -/
theorem perm (h : Divides registry position hits page kept) :
    (kept ++ page.rejectedPositions).Perm (List.range' position hits.length) := by
  induction h with
  | done position => exact .nil
  | accept _ _ ih =>
    rw [List.length_cons, List.range'_succ]
    exact ih.cons _
  | refuse _ _ ih =>
    rw [List.length_cons, List.range'_succ]
    exact List.perm_middle.trans (ih.cons _)

theorem le_of_mem (h : Divides registry position hits page kept) {i : Nat}
    (hi : i ∈ kept ++ page.rejectedPositions) : position ≤ i :=
  (List.mem_range'_1.1 (h.perm.mem_iff.1 hi)).1

/-- Both lists of positions ascend, since later hits stand at later positions. -/
theorem pairwise_lt (h : Divides registry position hits page kept) :
    kept.Pairwise (· < ·) ∧ page.rejectedPositions.Pairwise (· < ·) := by
  induction h with
  | done => exact ⟨.nil, .nil⟩
  | accept _ rest ih =>
    refine ⟨List.pairwise_cons.2 ⟨fun i hi => ?_, ih.1⟩, ih.2⟩
    exact rest.le_of_mem (List.mem_append_left _ hi)
  | refuse _ rest ih =>
    refine ⟨ih.1, List.pairwise_cons.2 ⟨fun i hi => ?_, ih.2⟩⟩
    exact rest.le_of_mem (List.mem_append_right _ hi)

/-- The items are those of the hits at the kept positions, one for one and in order. -/
theorem forall₂_items (h : Divides registry position hits page kept) :
    List.Forall₂ (fun i item => ∃ hit, (hit, i) ∈ hits.zipIdx position ∧
      Accepts registry hit item) kept page.items := by
  induction h with
  | done => exact .nil
  | accept h _ ih =>
    refine .cons ⟨_, List.mem_cons_self, h⟩ (ih.imp fun i item => ?_)
    exact fun ⟨hit, hmem, hitem⟩ => ⟨hit, List.mem_cons_of_mem _ hmem, hitem⟩
  | refuse _ _ ih =>
    refine ih.imp fun i item => ?_
    exact fun ⟨hit, hmem, hitem⟩ => ⟨hit, List.mem_cons_of_mem _ hmem, hitem⟩

/-- Every rejected hit is a hit that is refused at its position. -/
theorem refuses_of_mem (h : Divides registry position hits page kept) :
    ∀ r ∈ page.rejected, ∃ hit, (hit, r.position) ∈ hits.zipIdx position ∧
      Refuses registry r.position hit r.message := by
  induction h with
  | done => exact fun r hr => absurd hr List.not_mem_nil
  | accept _ _ ih =>
    intro r hr
    obtain ⟨hit, hmem, hrefused⟩ := ih r hr
    exact ⟨hit, List.mem_cons_of_mem _ hmem, hrefused⟩
  | refuse h _ ih =>
    intro r hr
    rcases List.mem_cons.1 hr with rfl | hr
    · exact ⟨_, List.mem_cons_self, h⟩
    · obtain ⟨hit, hmem, hrefused⟩ := ih r hr
      exact ⟨hit, List.mem_cons_of_mem _ hmem, hrefused⟩

/-- Whether a hit is rejected depends on nothing but the hit. -/
theorem mem_rejectedPositions_iff (h : Divides registry position hits page kept) {hit : Json}
    {i : Nat} (hmem : (hit, i) ∈ hits.zipIdx position) :
    i ∈ page.rejectedPositions ↔ ∃ message, Refuses registry i hit message := by
  induction h with
  | done => exact absurd hmem List.not_mem_nil
  | accept h rest ih =>
    rcases List.mem_cons.1 hmem with heq | hmem
    · cases heq
      constructor
      · intro hi
        exact absurd (rest.le_of_mem (List.mem_append_right _ hi)) (Nat.not_succ_le_self _)
      · rintro ⟨message, hrefused⟩
        exact absurd h (hrefused.not_accepts _)
    · exact ih hmem
  | refuse h _ ih =>
    rcases List.mem_cons.1 hmem with heq | hmem
    · cases heq
      exact ⟨fun _ => ⟨_, h⟩, fun _ => List.mem_cons_self⟩
    · -- the hit stands behind the one that is refused here
      have hlt := List.le_snd_of_mem_zipIdx hmem
      rw [← ih hmem]
      refine List.mem_cons.trans (or_iff_right ?_)
      exact Nat.ne_of_gt (Nat.lt_of_succ_le hlt)

end Divides

/-! ## Hits at other positions -/

end Page

/-- The rejected hit, so many places further on. What is said of a hit without a document tells its
position. -/
def RejectedHit.shift (places : Nat) (r : RejectedHit) : RejectedHit where
  position := r.position + places
  message :=
    if r.message = Page.noSourceMessage r.position then Page.noSourceMessage (r.position + places)
    else r.message

/-- A fault of a document is never mistaken for the absence of one. -/
theorem DomainError.message_ne_noSource (reason : String) (position : Nat) :
    (DomainError.invalidDocument reason).message ≠ Page.noSourceMessage position := by
  intro h
  have hfault : (DomainError.invalidDocument reason).message.toList.head? = some 'I' := by
    show ("Invalid document: " ++ reason).toList.head? = _
    rw [String.toList_append, List.head?_append]
    rfl
  have habsent : (Page.noSourceMessage position).toList.head? = some 'h' := by
    rw [Page.noSourceMessage, String.append_assoc, String.toList_append, List.head?_append]
    rfl
  rw [h, habsent] at hfault
  exact absurd (Option.some.inj hfault) (by decide)

namespace Page

/-- The page, so many places further on. -/
def shift (places : Nat) (page : Page) : Page :=
  { page with rejected := page.rejected.map (RejectedHit.shift places) }

/-- The hits of one page and then those of another. -/
def append (front back : Page) : Page :=
  ⟨front.items ++ back.items, front.rejected ++ back.rejected⟩

theorem decodeHit_shift (registry : Registry) (position places : Nat) (hit : Json) :
    decodeHit registry (position + places) hit
      = (decodeHit registry position hit).mapError fun message =>
          if message = noSourceMessage position then noSourceMessage (position + places)
          else message := by
  unfold decodeHit
  cases source? hit with
  | none => exact congrArg Except.error (if_pos rfl).symm
  | some source =>
    cases hitem : Item.ofSource source registry with
    | ok item => simp only [hitem, Except.mapError]
    | error error =>
      obtain ⟨fault, rfl⟩ := Item.ofSource_error hitem
      have hne := DomainError.message_ne_noSource fault.message position
      simp only [hitem, Except.mapError]
      exact congrArg Except.error (if_neg hne).symm

theorem ofHits_shift (registry : Registry) (places : Nat) (hits : List Json) :
    ∀ position, ofHits registry (position + places) hits
      = (ofHits registry position hits).shift places := by
  induction hits with
  | nil => exact fun _ => rfl
  | cons hit hits ih =>
    intro position
    have hrest : ofHits registry (position + places + 1) hits
        = (ofHits registry (position + 1) hits).shift places := by
      rw [← ih, Nat.add_right_comm]
    rw [ofHits, ofHits, hrest, decodeHit_shift]
    cases decodeHit registry position hit with
    | ok item => rfl
    | error message => rfl

theorem ofHits_append (registry : Registry) (front back : List Json) :
    ∀ position, ofHits registry position (front ++ back)
      = (ofHits registry position front).append
          (ofHits registry (position + front.length) back) := by
  induction front with
  | nil => exact fun _ => rfl
  | cons hit hits ih =>
    intro position
    rw [List.cons_append, ofHits, ofHits, ih, List.length_cons, Nat.add_right_comm, Nat.add_assoc]
    cases decodeHit registry position hit with
    | ok item => rfl
    | error message => rfl

/-! ## The hits of a reply -/

end Page

/-- **The hits that a reply holds**: the list at the path `hits.hits`, or none at all when no list
is there. -/
inductive Reply.HoldsHits (reply : Json) : List Json → Prop where
  | list {hits : List Json} (h : reply.atPath? ["hits", "hits"] = some (.array hits)) :
    HoldsHits reply hits
  | none (h : ∀ hits, reply.atPath? ["hits", "hits"] ≠ some (.array hits)) : HoldsHits reply []

/-- The hits that are read are those that the reply holds, and there are no others. -/
theorem Reply.holdsHits_iff {reply : Json} {hits : List Json} :
    HoldsHits reply hits ↔ Reply.hits reply = hits := by
  have hpath : Reply.hits reply
      = ((reply.atPath? ["hits", "hits"]).bind Json.asArray?).getD [] := by
    simp only [Reply.hits, Json.atPath?, Option.bind_fun_some]
  have hlist : ∀ found, reply.atPath? ["hits", "hits"] = some (.array found) →
      Reply.hits reply = found := by
    intro found h
    rw [hpath, h]
    rfl
  have hnone : (∀ found, reply.atPath? ["hits", "hits"] ≠ some (.array found)) →
      Reply.hits reply = [] := by
    intro h
    have hno : (reply.atPath? ["hits", "hits"]).bind Json.asArray? = Option.none := by
      refine Option.eq_none_iff_forall_ne_some.2 fun found hfound => ?_
      obtain ⟨value, hvalue, harray⟩ := Option.bind_eq_some_iff.1 hfound
      exact h found (hvalue.trans (congrArg some (Json.asArray?_eq_some_iff.1 harray)))
    rw [hpath, hno]
    rfl
  constructor
  · rintro (h | h)
    · exact hlist _ h
    · exact hnone h
  · rintro rfl
    by_cases h : ∃ found, reply.atPath? ["hits", "hits"] = some (.array found)
    · obtain ⟨found, hfound⟩ := h
      rw [hlist found hfound]
      exact .list hfound
    · have hno := not_exists.1 h
      rw [hnone hno]
      exact .none hno

namespace Page

/-! ## The main statement -/

/-- **A page divides a list of hits.** Every position is listed once, either among the positions of
the items, which ascend and belong to the items one for one, or among those of the rejected hits,
which ascend as well. -/
structure IsDivision (registry : Registry) (hits : List Json) (page : Page) : Prop where
  items : ∃ kept : List Nat, kept.Pairwise (· < ·) ∧
    List.Forall₂ (fun i item => ∃ hit, hits[i]? = some hit ∧ Accepts registry hit item)
      kept page.items ∧
    ∀ i, kept.count i + page.rejectedPositions.count i = if i < hits.length then 1 else 0
  ascending : page.rejectedPositions.Pairwise (· < ·)
  length_eq : page.items.length + page.rejected.length = hits.length
  -- what is said of a rejected hit is the reason
  reason : ∀ r ∈ page.rejected, ∃ hit, hits[r.position]? = some hit ∧
    Refuses registry r.position hit r.message
  -- a hit is rejected if it holds no stored document, or one without an item
  rejected_iff : ∀ i hit, hits[i]? = some hit →
    (i ∈ page.rejectedPositions ↔
      (∀ members, hit.get? "_source" ≠ some (.object members)) ∨
      ∃ members error, hit.get? "_source" = some (.object members) ∧
        Item.ofSource (.object members) registry = .error error)

theorem isDivision_ofHits (registry : Registry) (hits : List Json) :
    IsDivision registry hits (ofHits registry 0 hits) := by
  obtain ⟨kept, h⟩ := divides_ofHits registry hits 0
  have hperm : (kept ++ (ofHits registry 0 hits).rejectedPositions).Perm
      (List.range hits.length) := by
    rw [List.range_eq_range']
    exact h.perm
  refine ⟨⟨kept, h.pairwise_lt.1, ?_, fun i => ?_⟩, h.pairwise_lt.2, ?_, fun r hr => ?_,
    fun i hit hget => ?_⟩
  · refine h.forall₂_items.imp fun i item => ?_
    rintro ⟨hit, hmem, hitem⟩
    exact ⟨hit, List.mem_zipIdx_iff_getElem?.1 hmem, hitem⟩
  · rw [← List.count_append, hperm.count_eq, List.count_range]
  · have hall := hperm.length_eq
    rw [List.length_append, List.length_range, h.forall₂_items.length_eq, rejectedPositions,
      List.length_map] at hall
    exact hall
  · obtain ⟨hit, hmem, hrefused⟩ := h.refuses_of_mem r hr
    exact ⟨hit, List.mem_zipIdx_iff_getElem?.1 hmem, hrefused⟩
  · rw [h.mem_rejectedPositions_iff (List.mem_zipIdx_iff_getElem?.2 hget), exists_refuses_iff]

theorem ofReply_of_holdsHits {reply : Json} {hits : List Json} (h : Reply.HoldsHits reply hits)
    (registry : Registry) : ofReply reply registry = ofHits registry 0 hits := by
  rw [ofReply, Reply.holdsHits_iff.1 h]

/-- **The page of a reply divides the hits that stand at `hits.hits`.** Every reply holds one list
of hits, which is empty when there is no list at that path, and every list of hits is held by some
reply. The page of a reply divides its hits. And whatever two lists of hits are, the page of both in
a row is the page of the one and then that of the other, with the positions moved on: no hit changes
what becomes of another. -/
theorem page_divides_hits (registry : Registry) :
    (∀ reply : Json, ∃ hits, Reply.HoldsHits reply hits ∧
      (∀ other, Reply.HoldsHits reply other → other = hits) ∧
      IsDivision registry hits (ofReply reply registry)) ∧
    (∀ hits : List Json, ∃ reply, Reply.HoldsHits reply hits) ∧
    ∀ (front back : List Json) (first second both : Json), Reply.HoldsHits first front →
      Reply.HoldsHits second back → Reply.HoldsHits both (front ++ back) →
      ofReply both registry = (ofReply first registry).append
        ((ofReply second registry).shift front.length) := by
  refine ⟨fun reply => ⟨Reply.hits reply, Reply.holdsHits_iff.2 rfl, fun other hother => ?_, ?_⟩,
    fun hits => ?_, fun front back first second both hfirst hsecond hboth => ?_⟩
  · exact (Reply.holdsHits_iff.1 hother).symm
  · exact isDivision_ofHits registry (Reply.hits reply)
  · exact ⟨.object [("hits", .object [("hits", .array hits)])], .list rfl⟩
  · rw [ofReply_of_holdsHits hboth, ofReply_of_holdsHits hfirst, ofReply_of_holdsHits hsecond,
      ofHits_append, ofHits_shift]

/-- A hit without a document, one with a text for a document, and a document without an address, and
before, between and behind them hits that have items: the rejected hits are told by their positions
among all hits, and a reply with no list of hits has the empty page. -/
theorem page_of_malformed_hits :
    let registry : Registry := ⟨[Element.plain "title" .localVocabulary], by decide⟩
    let stored (id title : String) : Json := .object [("_source", .object [
      ("index_id", .string id), ("source_uri", .string "http://x"), ("local_title", .string title)])]
    let read (id title : String) : Item := ⟨id, "http://x", none, none, none, [⟨"title", title⟩]⟩
    let front : List Json := [stored "a" "Tea", .object [("_id", .string "b")]]
    let back : List Json := [.object [("_source", .string "Tea")], stored "c" "Milk",
      .object [("_source", .object [("index_id", .string "d")])], stored "e" "Sugar"]
    let reply (hits : List Json) : Json := .object [("hits", .object [("hits", .array hits)])]
    let without : Json := .object [("hits", .object [("hits", .string "none")])]
    ofReply (reply back) registry = ⟨[read "c" "Milk", read "e" "Sugar"],
      [⟨0, "hit 0 has no _source."⟩, ⟨2, "Invalid document: d is missing source_uri."⟩]⟩ ∧
    ofReply (reply (front ++ back)) registry
      = ⟨[read "a" "Tea", read "c" "Milk", read "e" "Sugar"],
          [⟨1, "hit 1 has no _source."⟩, ⟨2, "hit 2 has no _source."⟩,
            ⟨4, "Invalid document: d is missing source_uri."⟩]⟩ ∧
    ofReply without registry = empty := by
  intro registry stored read front back reply without
  obtain ⟨hdivides, -, happend⟩ := page_divides_hits registry
  have hfront : ofReply (reply front) registry
      = ⟨[read "a" "Tea"], [⟨1, "hit 1 has no _source."⟩]⟩ := by decide +kernel
  have hback : ofReply (reply back) registry = ⟨[read "c" "Milk", read "e" "Sugar"],
      [⟨0, "hit 0 has no _source."⟩, ⟨2, "Invalid document: d is missing source_uri."⟩]⟩ := by
    decide +kernel
  refine ⟨hback, ?_, ?_⟩
  · have hboth := happend front back (reply front) (reply back) (reply (front ++ back)) (.list rfl)
      (.list rfl) (.list rfl)
    rw [hboth, hfront, hback]
    decide +kernel
  · obtain ⟨hits, -, hunique, hdivision⟩ := hdivides without
    have hnone : [] = hits := by
      refine hunique [] (.none fun found => ?_)
      simp [without, Json.atPath?, Json.get?, FieldMap.lookupEntries]
    have hlength : (ofReply without registry).items.length
        + (ofReply without registry).rejected.length = 0 := by
      rw [hdivision.length_eq, ← hnone, List.length_nil]
    have hitems : (ofReply without registry).items = [] := List.length_eq_zero_iff.1 (by omega)
    have hrejected : (ofReply without registry).rejected = [] :=
      List.length_eq_zero_iff.1 (by omega)
    exact congrArg₂ Page.mk hitems hrejected

end Page

end HarvestSearch
