/-
When the order of the calls that make a request matters.

A request (`gleaner_search::request::SearchRequest`) is a record, but a call does not write a field
of the record: it writes one filter among others, or the start and the limit together. What calls
write is a `Slot`, and a request is what can be read at its slots (`Request.ext_read`). Three facts
say all that calls do to slots. A slot that a call does not write stays as it is
(`read_apply_of_not_mem`). A slot that it writes is what the call says, whatever it was before
(`read_apply_of_mem`), unless the slot is one of the two sets of variants, to which calls add
(`includeVariants_apply`, `excludeVariants_apply`).

So calls can be exchanged unless both write one slot that is not a set (`apply_comm`). A permutation
of a list of calls is a matter of moving one call at a time to its place in front of calls that it
can be exchanged with, and `applyAll_map_of_perm` is the induction that does so.
-/
import HarvestSearch.Document
import Mathlib.Data.List.FinRange
import Mathlib.Data.List.Pairwise

set_option autoImplicit false

namespace HarvestSearch.Request

/-! ## Slots -/

/-- What calls write: a part of a request that is written as a whole. -/
inductive Slot where
  | query
  -- the filter of one field
  | filter (field : String)
  -- the exclusion by one field
  | exclude (field : String)
  | contentService
  | includeVariants
  | excludeVariants
  | includeChildren
  | orders
  | start
  | limit
  | aggregations
  | bucketLimit
deriving DecidableEq, Repr

namespace Slot

/-- The slot holds a set that calls add to. All others are overwritten. -/
def isSet : Slot → Bool
  | includeVariants => true
  | excludeVariants => true
  | _ => false

/-- What the slot holds. -/
def Value : Slot → Type
  | query => Option TextQuery
  | filter _ => Option FilterValue
  | exclude _ => Option FilterValue
  | contentService => Option String
  | includeVariants => NameSet
  | excludeVariants => NameSet
  | includeChildren => Bool
  | orders => List SortOrder
  | start => UInt64
  | limit => Option UInt64
  | aggregations => Bool
  | bucketLimit => Option UInt32

end Slot

/-- What a request holds at a slot. -/
def read (r : Request) : (slot : Slot) → slot.Value
  | .query => r.query
  | .filter field => r.filters.get? field
  | .exclude field => r.excludes.get? field
  | .contentService => r.contentService
  | .includeVariants => r.includeVariants
  | .excludeVariants => r.excludeVariants
  | .includeChildren => r.includeChildren
  | .orders => r.orders
  | .start => r.start
  | .limit => r.limit
  | .aggregations => r.aggregations
  | .bucketLimit => r.bucketLimit

/-- **A request is what its slots hold.** -/
theorem ext_read {r r' : Request} (h : ∀ slot, r.read slot = r'.read slot) : r = r' := by
  have hfilters : r.filters = r'.filters := FieldMap.ext_get? fun field => h (.filter field)
  have hexcludes : r.excludes = r'.excludes := FieldMap.ext_get? fun field => h (.exclude field)
  have hquery : r.query = r'.query := h .query
  have hservice : r.contentService = r'.contentService := h .contentService
  have hincluded : r.includeVariants = r'.includeVariants := h .includeVariants
  have hexcluded : r.excludeVariants = r'.excludeVariants := h .excludeVariants
  have hchildren : r.includeChildren = r'.includeChildren := h .includeChildren
  have horders : r.orders = r'.orders := h .orders
  have hstart : r.start = r'.start := h .start
  have hlimit : r.limit = r'.limit := h .limit
  have haggregations : r.aggregations = r'.aggregations := h .aggregations
  have hbuckets : r.bucketLimit = r'.bucketLimit := h .bucketLimit
  obtain ⟨⟩ := r
  obtain ⟨⟩ := r'
  simp_all

namespace Call

/-- The slots that a call writes. -/
def slots : Call → List Slot
  | query _ => [.query]
  | queryField _ _ => [.query]
  | queryElement _ _ => [.query]
  | filter field _ => [.filter field]
  | filters input => input.normalize.keys.map .filter
  | exclude field _ => [.exclude field]
  | excludes input => input.normalize.keys.map .exclude
  | contentService _ => [.contentService]
  | includeVariants _ => [.includeVariants]
  | excludeVariants _ => [.excludeVariants]
  | includeChildren _ => [.includeChildren]
  | order _ => [.orders]
  | start _ => [.start]
  | limit _ => [.limit]
  | page _ _ => [.start, .limit]
  | aggregations _ => [.aggregations]
  | bucketLimit _ => [.bucketLimit]

/-- The names that a call adds to a set. -/
def added : Call → Slot → List String
  | includeVariants names, .includeVariants => names
  | excludeVariants names, .excludeVariants => names
  | _, _ => []

/-- Both calls write some slot that is not a set. -/
def Shares (c d : Call) : Prop :=
  ∃ slot ∈ c.slots, slot.isSet = false ∧ slot ∈ d.slots

instance (c d : Call) : Decidable (c.Shares d) :=
  inferInstanceAs (Decidable (∃ slot ∈ c.slots, slot.isSet = false ∧ slot ∈ d.slots))

end Call

/-! ## One call -/

variable {r r' : Request} {c d : Call} {slot : Slot}

/-- **A slot that a call does not write** stays as it is. -/
theorem read_apply_of_not_mem (h : slot ∉ c.slots) : (r.apply c).read slot = r.read slot := by
  cases c with
  | filter field value =>
    cases slot with
    | filter q =>
      have hne : field ≠ q := fun heq => h (heq ▸ List.mem_singleton_self _)
      exact (FieldMap.get?_insert ..).trans (if_neg hne)
    | _ => rfl
  | exclude field value =>
    cases slot with
    | exclude q =>
      have hne : field ≠ q := fun heq => h (heq ▸ List.mem_singleton_self _)
      exact (FieldMap.get?_insert ..).trans (if_neg hne)
    | _ => rfl
  | filters input =>
    cases slot with
    | filter q => exact FieldMap.get?_union_of_not_mem fun hq => h (List.mem_map_of_mem hq)
    | _ => rfl
  | excludes input =>
    cases slot with
    | exclude q => exact FieldMap.get?_union_of_not_mem fun hq => h (List.mem_map_of_mem hq)
    | _ => rfl
  | _ => cases slot <;> first | rfl | exact absurd (by simp [Call.slots]) h

/-- **A slot that a call writes** holds what the call says, whatever the request was. -/
theorem read_apply_of_mem (h : slot ∈ c.slots) (hset : slot.isSet = false) :
    (r.apply c).read slot = (r'.apply c).read slot := by
  cases c with
  | filter field value =>
    have hwritten : ∀ s : Request, (s.apply (.filter field value)).read (.filter field)
        = some value := fun s => (FieldMap.get?_insert ..).trans (if_pos rfl)
    cases List.mem_singleton.1 h
    rw [hwritten, hwritten]
  | exclude field value =>
    have hwritten : ∀ s : Request, (s.apply (.exclude field value)).read (.exclude field)
        = some value := fun s => (FieldMap.get?_insert ..).trans (if_pos rfl)
    cases List.mem_singleton.1 h
    rw [hwritten, hwritten]
  | filters input =>
    obtain ⟨field, hfield, rfl⟩ := List.mem_map.1 h
    have hwritten : ∀ s : Request, (s.apply (.filters input)).read (.filter field)
        = input.normalize.get? field := fun s => FieldMap.get?_union_of_mem hfield
    rw [hwritten, hwritten]
  | excludes input =>
    obtain ⟨field, hfield, rfl⟩ := List.mem_map.1 h
    have hwritten : ∀ s : Request, (s.apply (.excludes input)).read (.exclude field)
        = input.normalize.get? field := fun s => FieldMap.get?_union_of_mem hfield
    rw [hwritten, hwritten]
  | _ => cases slot <;> first | rfl | exact Bool.noConfusion hset | exact absurd h (by simp [Call.slots])

/-- To each of the two sets a call adds the variants that it names for it, if any. -/
theorem includeVariants_apply (r : Request) (c : Call) : (r.apply c).includeVariants
    = NameSet.insertNames r.includeVariants (c.added .includeVariants) := by
  cases c <;> rfl

theorem excludeVariants_apply (r : Request) (c : Call) : (r.apply c).excludeVariants
    = NameSet.insertNames r.excludeVariants (c.added .excludeVariants) := by
  cases c <;> rfl

/-! ## Two calls -/

/-- **Calls that share no slot but a set** can be exchanged. -/
theorem apply_comm (h : ¬c.Shares d) : (r.apply c).apply d = (r.apply d).apply c := by
  refine ext_read fun slot => ?_
  by_cases hset : slot.isSet = true
  · cases slot with
    | includeVariants =>
      show ((r.apply c).apply d).includeVariants = ((r.apply d).apply c).includeVariants
      simp only [includeVariants_apply]
      exact NameSet.insertNames_comm _ _ _
    | excludeVariants =>
      show ((r.apply c).apply d).excludeVariants = ((r.apply d).apply c).excludeVariants
      simp only [excludeVariants_apply]
      exact NameSet.insertNames_comm _ _ _
    | _ => cases hset
  · rw [Bool.not_eq_true] at hset
    by_cases hd : slot ∈ d.slots
    · have hc : slot ∉ c.slots := fun hc => h ⟨slot, hc, hset, hd⟩
      rw [read_apply_of_not_mem hc]
      exact read_apply_of_mem hd hset
    · rw [read_apply_of_not_mem hd]
      by_cases hc : slot ∈ c.slots
      · exact read_apply_of_mem hc hset
      · rw [read_apply_of_not_mem hc, read_apply_of_not_mem hc, read_apply_of_not_mem hd]

/-- A call erases an earlier one that wrote no other slots, if none of them is a set. -/
theorem apply_apply_of_subset (hslots : ∀ slot ∈ c.slots, slot ∈ d.slots)
    (hset : ∀ slot ∈ d.slots, slot.isSet = false) : (r.apply c).apply d = r.apply d := by
  refine ext_read fun slot => ?_
  by_cases hd : slot ∈ d.slots
  · exact read_apply_of_mem hd (hset slot hd)
  · rw [read_apply_of_not_mem hd, read_apply_of_not_mem hd,
      read_apply_of_not_mem fun hc => hd (hslots slot hc)]

/-! ## Lists of calls -/

theorem applyAll_cons (r : Request) (c : Call) (calls : List Call) :
    r.applyAll (c :: calls) = (r.apply c).applyAll calls := rfl

/-- A call can be moved to the front of calls that it can be exchanged with. -/
theorem applyAll_append_cons (r : Request) {front : List Call} {c : Call} (back : List Call)
    (h : ∀ d ∈ front, ¬d.Shares c) :
    r.applyAll (front ++ c :: back) = (r.apply c).applyAll (front ++ back) := by
  induction front generalizing r with
  | nil => rfl
  | cons d front ih =>
    obtain ⟨hd, hfront⟩ := List.forall_mem_cons.1 h
    rw [List.cons_append, applyAll_cons, ih _ hfront, apply_comm hd, List.cons_append, applyAll_cons]

/-- **Calls in another order.** The calls have places, and are made in the order `ys` in place of the
increasing order `xs`. That makes no difference if calls which share a slot other than a set keep the
order of their places. -/
theorem applyAll_map_of_perm {ι : Type} [Preorder ι] (call : ι → Call) {xs ys : List ι}
    (hperm : ys.Perm xs) (hxs : xs.Pairwise (· < ·))
    (hys : ys.Pairwise fun i j => (call i).Shares (call j) → i < j) (r : Request) :
    r.applyAll (ys.map call) = r.applyAll (xs.map call) := by
  induction xs generalizing ys r with
  | nil => rw [hperm.eq_nil]
  | cons x xs ih =>
    obtain ⟨hfirst, hxs⟩ := List.pairwise_cons.1 hxs
    obtain ⟨front, back, rfl⟩ := List.append_of_mem (hperm.mem_iff.2 List.mem_cons_self)
    have hrest : (front ++ back).Perm xs := (List.perm_middle.symm.trans hperm).cons_inv
    -- what is made before `x` has its place behind it, so it shares nothing with `x`
    have hexchange : ∀ d ∈ front.map call, ¬d.Shares (call x) := by
      refine List.forall_mem_map.2 fun i hi hshares => ?_
      have hlt : i < x := (List.pairwise_append.1 hys).2.2 i hi x List.mem_cons_self hshares
      have hgt : x < i := hfirst i (hrest.mem_iff.1 (List.mem_append_left back hi))
      exact lt_asymm hlt hgt
    have hsublist : (front ++ back).Sublist (front ++ x :: back) :=
      (List.sublist_cons_self x back).append_left front
    have hinduction := ih hrest hxs (hys.sublist hsublist) (r.apply (call x))
    rw [List.map_append, List.map_cons, applyAll_append_cons r _ hexchange, ← List.map_append,
      hinduction]
    rfl

/-! ## The main statement -/

/-- **The order of calls matters within a slot only, and not for sets.** Two calls that write
different slots can be exchanged. Two calls that add to one of the sets of variants can be exchanged
too, and are one call with the union. Of two calls that write the same other slots the later one
counts alone. So a list of calls makes the same request, and the same document, in every other order
in which calls that share a slot other than a set come as they came in the list; the order is given
by the places that the calls have in the list. -/
theorem calls_by_slot (r : Request) :
    (∀ c d : Call, (∀ slot ∈ c.slots, slot ∉ d.slots) →
      (r.apply c).apply d = (r.apply d).apply c) ∧
    (∀ add : List String → Call, add = .includeVariants ∨ add = .excludeVariants → ∀ xs ys,
      (r.apply (add xs)).apply (add ys) = (r.apply (add ys)).apply (add xs) ∧
      ∀ union, (∀ name, name ∈ union ↔ name ∈ xs ∨ name ∈ ys) →
        (r.apply (add xs)).apply (add ys) = r.apply (add union)) ∧
    (∀ c d : Call, (∀ slot, slot ∈ c.slots ↔ slot ∈ d.slots) →
      (∀ slot ∈ d.slots, slot.isSet = false) → (r.apply c).apply d = r.apply d) ∧
    ∀ (calls : List Call) (order : List (Fin calls.length)),
      order.Perm (List.finRange calls.length) →
      (order.Pairwise fun i j => (calls.get i).Shares (calls.get j) → i < j) →
      r.applyAll (order.map calls.get) = r.applyAll calls ∧
      ∀ settings catalog, Document.build settings catalog (r.applyAll (order.map calls.get))
        = Document.build settings catalog (r.applyAll calls) := by
  refine ⟨fun c d hslots => ?_, fun add hadd xs ys => ⟨?_, fun union hunion => ?_⟩,
    fun c d hslots hset => ?_, fun calls order hperm horder => ?_⟩
  · exact apply_comm fun ⟨slot, hc, _, hd⟩ => hslots slot hc hd
  · -- the two calls share their set and nothing else
    refine apply_comm ?_
    rintro ⟨slot, hc, hset, -⟩
    rcases hadd with rfl | rfl
    · cases List.mem_singleton.1 hc
      cases hset
    · cases List.mem_singleton.1 hc
      cases hset
  · rcases hadd with rfl | rfl
    · exact congrArg (fun set => { r with includeVariants := set })
        (NameSet.insertNames_insertNames r.includeVariants hunion)
    · exact congrArg (fun set => { r with excludeVariants := set })
        (NameSet.insertNames_insertNames r.excludeVariants hunion)
  · exact apply_apply_of_subset (fun slot hc => (hslots slot).1 hc) hset
  · have hsame : r.applyAll (order.map calls.get) = r.applyAll calls := by
      have hmoved := applyAll_map_of_perm calls.get hperm (List.pairwise_lt_finRange _) horder r
      rwa [List.map_get_finRange] at hmoved
    exact ⟨hsame, fun settings catalog => congrArg (Document.build settings catalog) hsame⟩

/-- A page and a limit keep their order, and variants move in front of both. -/
theorem variants_moved_before_page :
    let calls : List Call :=
      [.page 2 10, .includeVariants ["map"], .limit 5, .includeVariants ["atlas"]]
    let order : List (Fin calls.length) := [3, 0, 1, 2]
    (order.Pairwise fun i j => (calls.get i).Shares (calls.get j) → i < j) ∧
    order.map calls.get
      = [.includeVariants ["atlas"], .page 2 10, .includeVariants ["map"], .limit 5] ∧
    initial.applyAll (order.map calls.get) = initial.applyAll calls ∧
    (initial.apply (.includeVariants ["map"])).apply (.includeVariants ["atlas"])
      = initial.apply (.includeVariants ["atlas", "map"]) ∧
    (initial.apply (.limit 20)).apply (.start 40) = (initial.apply (.start 40)).apply (.limit 20) ∧
    (initial.apply (.limit 20)).apply (.limit 5) = initial.apply (.limit 5) := by
  intro calls order
  obtain ⟨hexchange, hsets, herase, hreorder⟩ := calls_by_slot initial
  have horder : order.Pairwise fun i j => (calls.get i).Shares (calls.get j) → i < j := by decide
  have hunion : ∀ name, name ∈ ["atlas", "map"] ↔ name ∈ ["map"] ∨ name ∈ ["atlas"] := by
    simp [or_comm]
  refine ⟨horder, rfl, (hreorder calls order (by decide) horder).1,
    (hsets .includeVariants (.inl rfl) _ _).2 _ hunion, hexchange _ _ (by decide), ?_⟩
  exact herase _ _ (fun slot => Iff.rfl) (by decide)

end HarvestSearch.Request
