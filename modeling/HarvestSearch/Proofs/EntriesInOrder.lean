/-
Lists of entries that are read in order, up to the first thing amiss.

Every entry is judged by itself, and the first that is not good decides what is told. `FirstLacking`
says which entry that is and what is told of it, and `Judges` what judging one entry comes to. What
follows for lists does not depend on what is made of an entry: `Judges.exists_mapM_eq_ok_iff` and
`Judges.mapM_eq_error_iff` for the list alone, `Judges.closed_ok_iff` and `Judges.closed_error_iff` for a
list that is closed unless a key is repeated (`ClosesDistinct`). The reading itself is `mapM`, and the
lemmas about that come first.
-/
import HarvestSearch.Registry
import Mathlib.Data.List.Forall2

set_option autoImplicit false

namespace HarvestSearch

/-! ## Reading entries in order -/

namespace Except

variable {α β γ ε : Type}

theorem bind_eq_ok_iff {x : Except ε α} {f : α → Except ε β} {b : β} :
    (x >>= f) = .ok b ↔ ∃ a, x = .ok a ∧ f a = .ok b := by
  cases x with
  | error e => simp [bind, Except.bind]
  | ok a => simp [bind, Except.bind]

theorem bind_eq_error_iff {x : Except ε α} {f : α → Except ε β} {e : ε} :
    (x >>= f) = .error e ↔ x = .error e ∨ ∃ a, x = .ok a ∧ f a = .error e := by
  cases x with
  | error e => simp [bind, Except.bind]
  | ok a => simp [bind, Except.bind]

/-- A list can be read when every item of it can. -/
theorem exists_mapM_eq_ok_iff {f : α → Except ε β} {xs : List α} :
    (∃ ys, xs.mapM f = .ok ys) ↔ ∀ x ∈ xs, ∃ y, f x = .ok y := by
  induction xs with
  | nil => exact ⟨fun _ x hx => absurd hx List.not_mem_nil, fun _ => ⟨[], rfl⟩⟩
  | cons x xs ih =>
    rw [List.forall_mem_cons, ← ih, List.mapM_cons]
    constructor
    · rintro ⟨ys, h⟩
      obtain ⟨y, hy, h⟩ := bind_eq_ok_iff.1 h
      obtain ⟨rest, hrest, -⟩ := bind_eq_ok_iff.1 h
      exact ⟨⟨y, hy⟩, rest, hrest⟩
    · rintro ⟨⟨y, hy⟩, rest, hrest⟩
      rw [hy, hrest]
      exact ⟨y :: rest, rfl⟩

/-- What is read stands item by item beside what it was read from. -/
theorem forall₂_of_mapM {f : α → Except ε β} {xs : List α} {ys : List β}
    (hread : xs.mapM f = .ok ys) : List.Forall₂ (fun x y => f x = .ok y) xs ys := by
  induction xs generalizing ys with
  | nil =>
    cases hread
    exact .nil
  | cons x xs ih =>
    rw [List.mapM_cons] at hread
    obtain ⟨y, hy, hread⟩ := bind_eq_ok_iff.1 hread
    obtain ⟨rest, hrest, hread⟩ := bind_eq_ok_iff.1 hread
    cases hread
    exact .cons hy (ih hrest)

/-- What reading keeps of every item, it keeps of the list. -/
theorem map_eq_of_mapM {f : α → Except ε β} {g : α → γ} {h : β → γ}
    (hkeeps : ∀ x y, f x = .ok y → h y = g x) {xs : List α} {ys : List β}
    (hread : xs.mapM f = .ok ys) : ys.map h = xs.map g := by
  have hpairs := forall₂_of_mapM hread
  clear hread
  induction hpairs with
  | nil => rfl
  | cons hy _ ih => rw [List.map_cons, List.map_cons, hkeeps _ _ hy, ih]

/-- Items are read in order, and the first that cannot be read counts. -/
theorem mapM_eq_error_iff {f : α → Except ε β} {xs : List α} {e : ε} :
    xs.mapM f = .error e ↔ ∃ front x back, xs = front ++ x :: back ∧
      (∀ y ∈ front, ∃ b, f y = .ok b) ∧ f x = .error e := by
  induction xs with
  | nil =>
    constructor
    · intro h
      cases h
    · rintro ⟨front, x, back, h, -⟩
      exact absurd h.symm (List.append_ne_nil_of_right_ne_nil front (List.cons_ne_nil x back))
  | cons x xs ih =>
    rw [List.mapM_cons, bind_eq_error_iff]
    constructor
    · rintro (hx | ⟨y, hy, hrest⟩)
      · exact ⟨[], x, xs, rfl, fun y hy => absurd hy List.not_mem_nil, hx⟩
      · obtain hrest | ⟨rest, -, hrest⟩ := bind_eq_error_iff.1 hrest
        · obtain ⟨front, z, back, rfl, hfront, hz⟩ := ih.1 hrest
          exact ⟨x :: front, z, back, rfl, List.forall_mem_cons.2 ⟨⟨y, hy⟩, hfront⟩, hz⟩
        · cases hrest
    · rintro ⟨front, z, back, heq, hfront, hz⟩
      cases front with
      | nil =>
        obtain ⟨rfl, rfl⟩ := List.cons.inj heq
        exact .inl hz
      | cons first front =>
        obtain ⟨rfl, rfl⟩ := List.cons.inj heq
        obtain ⟨⟨y, hy⟩, hfront⟩ := List.forall_mem_cons.1 hfront
        refine .inr ⟨y, hy, bind_eq_error_iff.2 (.inl ?_)⟩
        exact ih.2 ⟨front, z, back, rfl, hfront, hz⟩

theorem mapError_eq_ok_iff {δ : Type} {x : Except ε α} {f : ε → δ} {a : α} :
    x.mapError f = .ok a ↔ x = .ok a := by
  cases x with
  | error e => exact ⟨fun h => (by cases h), fun h => (by cases h)⟩
  | ok b => exact ⟨fun h => (by cases h; rfl), fun h => (by cases h; rfl)⟩

theorem mapError_eq_error_iff {δ : Type} {x : Except ε α} {f : ε → δ} {d : δ} :
    x.mapError f = .error d ↔ ∃ e, x = .error e ∧ f e = d := by
  cases x with
  | error e =>
    constructor
    · intro h
      cases h
      exact ⟨e, rfl, rfl⟩
    · rintro ⟨other, h, rfl⟩
      cases h
      rfl
  | ok b => exact ⟨fun h => (by cases h), fun ⟨e, h, _⟩ => (by cases h)⟩

end Except

/-! ## The earliest repetition -/

section

variable {α : Type}

/-- The item occurs in the list a second time, and no item does so before it. -/
def EarliestRepeat (xs : List α) (x : α) : Prop :=
  ∃ front back, xs = front ++ x :: back ∧ front.Nodup ∧ x ∈ front

variable [DecidableEq α]

/-- The items of the front are seen when the rest is looked through. -/
theorem firstRepeatAfter_append (seen xs ys : List α) : firstRepeatAfter seen (xs ++ ys)
    = (firstRepeatAfter seen xs).or (firstRepeatAfter (xs.reverse ++ seen) ys) := by
  induction xs generalizing seen with
  | nil => rfl
  | cons x xs ih =>
    rw [List.cons_append, firstRepeatAfter, firstRepeatAfter, ih, List.reverse_cons,
      List.append_assoc, List.singleton_append]
    split
    · rfl
    · rfl

/-- Before the item that is found no item was seen or occurred before. -/
theorem exists_of_firstRepeatAfter {seen xs : List α} {x : α}
    (h : firstRepeatAfter seen xs = some x) : ∃ front back, xs = front ++ x :: back ∧
      firstRepeatAfter seen front = none ∧ x ∈ front.reverse ++ seen := by
  induction xs generalizing seen with
  | nil => cases h
  | cons first xs ih =>
    rw [firstRepeatAfter] at h
    by_cases hseen : first ∈ seen
    · rw [if_pos hseen] at h
      cases h
      exact ⟨[], xs, rfl, rfl, hseen⟩
    · rw [if_neg hseen] at h
      obtain ⟨front, back, rfl, hfront, hx⟩ := ih h
      refine ⟨first :: front, back, rfl, ?_, ?_⟩
      · rw [firstRepeatAfter, if_neg hseen, hfront]
      · rw [List.reverse_cons, List.append_assoc]
        exact hx

/-- What `firstRepeat` finds is the earliest repetition. -/
theorem firstRepeat_eq_some_iff {xs : List α} {x : α} :
    firstRepeat xs = some x ↔ EarliestRepeat xs x := by
  constructor
  · intro h
    obtain ⟨front, back, rfl, hfront, hx⟩ := exists_of_firstRepeatAfter h
    rw [List.append_nil, List.mem_reverse] at hx
    exact ⟨front, back, rfl, firstRepeat_eq_none_iff.1 hfront, hx⟩
  · rintro ⟨front, back, rfl, hnodup, hx⟩
    have hfront : firstRepeatAfter [] front = none := firstRepeat_eq_none_iff.2 hnodup
    rw [firstRepeat, firstRepeatAfter_append, hfront, Option.none_or, List.append_nil,
      firstRepeatAfter, if_pos (List.mem_reverse.2 hx)]

/-- Nothing is repeated in a list of distinct items. -/
theorem EarliestRepeat.not_nodup {xs : List α} {x : α} (h : EarliestRepeat xs x) : ¬xs.Nodup := by
  intro hnodup
  have hnone := firstRepeat_eq_none_iff.2 hnodup
  rw [firstRepeat_eq_some_iff.2 h] at hnone
  cases hnone

end

/-! ## Lists of entries -/

section

variable {α β κ φ ε χ : Type}

/-- The first entry of a list that is not good, and what is said of it. -/
def FirstLacking (good : α → Prop) (lacks : α → φ → Prop) (entries : List α) (fault : φ) : Prop :=
  ∃ front a back, entries = front ++ a :: back ∧ (∀ x ∈ front, good x) ∧ lacks a fault

theorem not_firstLacking_nil {good : α → Prop} {lacks : α → φ → Prop} {fault : φ} :
    ¬FirstLacking good lacks [] fault := by
  rintro ⟨front, a, back, h, -⟩
  exact List.append_ne_nil_of_right_ne_nil front (List.cons_ne_nil a back) h.symm

theorem firstLacking_cons_iff {good : α → Prop} {lacks : α → φ → Prop} {a : α} {entries : List α}
    {fault : φ} : FirstLacking good lacks (a :: entries) fault ↔
      lacks a fault ∨ good a ∧ FirstLacking good lacks entries fault := by
  constructor
  · rintro ⟨front, x, back, heq, hfront, hx⟩
    cases front with
    | nil =>
      obtain ⟨rfl, rfl⟩ := List.cons.inj heq
      exact .inl hx
    | cons first front =>
      obtain ⟨rfl, rfl⟩ := List.cons.inj heq
      obtain ⟨hfirst, hfront⟩ := List.forall_mem_cons.1 hfront
      exact .inr ⟨hfirst, front, x, back, rfl, hfront, hx⟩
  · rintro (ha | ⟨ha, front, x, back, rfl, hfront, hx⟩)
    · exact ⟨[], a, entries, rfl, fun x hx => absurd hx List.not_mem_nil, ha⟩
    · exact ⟨a :: front, x, back, rfl, List.forall_mem_cons.2 ⟨ha, hfront⟩, hx⟩

/-- What making something of an entry comes to: something with the key of the entry is made of the
entries that are `good`, and of every other there is one fault to tell. -/
structure Judges (make : α → Except φ β) (keyOf : α → κ) (key : β → κ) (good : α → Prop)
    (lacks : α → φ → Prop) : Prop where
  made : ∀ a, (∃ fault, lacks a fault ∧ make a = .error fault) ∨
    (good a ∧ ∃ b, make a = .ok b ∧ key b = keyOf a)
  unique : ∀ {a fault other}, lacks a fault → lacks a other → fault = other
  not_good : ∀ {a fault}, lacks a fault → ¬good a

/-- What closing a list comes to: it is closed unless a key is repeated, and then the earliest
repetition counts. -/
structure ClosesDistinct (close : List β → Except ε χ) (key : β → κ) (repeated : κ → ε) : Prop where
  ok_iff : ∀ {bs}, (∃ c, close bs = .ok c) ↔ (bs.map key).Nodup
  error_iff : ∀ {bs e}, close bs = .error e ↔ ∃ k, EarliestRepeat (bs.map key) k ∧ repeated k = e

namespace Judges

variable {make : α → Except φ β} {keyOf : α → κ} {key : β → κ} {good : α → Prop}
  {lacks : α → φ → Prop}

theorem ok_iff (h : Judges make keyOf key good lacks) {a : α} :
    (∃ b, make a = .ok b) ↔ good a := by
  rcases h.made a with ⟨fault, hlacks, herror⟩ | ⟨hgood, b, hok, -⟩
  · rw [herror]
    exact iff_of_false (fun ⟨_, hok⟩ => by cases hok) (h.not_good hlacks)
  · exact iff_of_true ⟨b, hok⟩ hgood

theorem error_iff (h : Judges make keyOf key good lacks) {a : α} {fault : φ} :
    make a = .error fault ↔ lacks a fault := by
  rcases h.made a with ⟨other, hlacks, herror⟩ | ⟨hgood, b, hok, -⟩
  · rw [herror, Except.error.injEq]
    exact ⟨fun heq => heq ▸ hlacks, h.unique hlacks⟩
  · rw [hok]
    exact iff_of_false (fun herror => by cases herror) fun hlacks => h.not_good hlacks hgood

theorem key_eq (h : Judges make keyOf key good lacks) {a : α} {b : β} (hok : make a = .ok b) :
    key b = keyOf a := by
  rcases h.made a with ⟨fault, -, herror⟩ | ⟨-, other, hother, hkey⟩
  · rw [herror] at hok
    cases hok
  · rw [hother] at hok
    cases hok
    exact hkey

theorem exists_mapM_eq_ok_iff (h : Judges make keyOf key good lacks) (wrap : φ → ε)
    {as : List α} :
    (∃ bs, (as.mapM fun a => (make a).mapError wrap) = .ok bs) ↔ ∀ a ∈ as, good a := by
  rw [Except.exists_mapM_eq_ok_iff]
  refine forall₂_congr fun a _ => ?_
  rw [← h.ok_iff]
  exact exists_congr fun b => Except.mapError_eq_ok_iff

variable {wrap : φ → ε}

theorem mapM_eq_error_iff (h : Judges make keyOf key good lacks) {as : List α} {e : ε} :
    (as.mapM fun a => (make a).mapError wrap) = .error e ↔
      ∃ fault, FirstLacking good lacks as fault ∧ wrap fault = e := by
  rw [Except.mapM_eq_error_iff]
  constructor
  · rintro ⟨front, a, back, hlist, hfront, ha⟩
    obtain ⟨fault, hfault, hwrap⟩ := Except.mapError_eq_error_iff.1 ha
    refine ⟨fault, ⟨front, a, back, hlist, fun x hx => ?_, h.error_iff.1 hfault⟩, hwrap⟩
    obtain ⟨b, hb⟩ := hfront x hx
    exact h.ok_iff.1 ⟨b, Except.mapError_eq_ok_iff.1 hb⟩
  · rintro ⟨fault, ⟨front, a, back, hlist, hfront, hlacks⟩, hwrap⟩
    refine ⟨front, a, back, hlist, fun x hx => ?_, ?_⟩
    · obtain ⟨b, hb⟩ := h.ok_iff.2 (hfront x hx)
      exact ⟨b, Except.mapError_eq_ok_iff.2 hb⟩
    · exact Except.mapError_eq_error_iff.2 ⟨fault, h.error_iff.2 hlacks, hwrap⟩

theorem map_key_of_mapM (h : Judges make keyOf key good lacks) {as : List α} {bs : List β}
    (hread : (as.mapM fun a => (make a).mapError wrap) = .ok bs) : bs.map key = as.map keyOf :=
  Except.map_eq_of_mapM (fun _ _ hb => h.key_eq (Except.mapError_eq_ok_iff.1 hb)) hread

variable {close : List β → Except ε χ} {repeated : κ → ε}

/-- Something is made of a list of entries when all of them are good and no key is repeated. -/
theorem closed_ok_iff (h : Judges make keyOf key good lacks)
    (hclose : ClosesDistinct close key repeated) {as : List α} :
    (∃ c, ((as.mapM fun a => (make a).mapError wrap) >>= close) = .ok c) ↔
      (∀ a ∈ as, good a) ∧ (as.map keyOf).Nodup := by
  rw [← h.exists_mapM_eq_ok_iff wrap]
  constructor
  · rintro ⟨c, hc⟩
    obtain ⟨bs, hbs, hc⟩ := Except.bind_eq_ok_iff.1 hc
    exact ⟨⟨bs, hbs⟩, h.map_key_of_mapM hbs ▸ hclose.ok_iff.1 ⟨c, hc⟩⟩
  · rintro ⟨⟨bs, hbs⟩, hnodup⟩
    obtain ⟨c, hc⟩ := hclose.ok_iff.2 (h.map_key_of_mapM hbs ▸ hnodup)
    exact ⟨c, Except.bind_eq_ok_iff.2 ⟨bs, hbs, hc⟩⟩

/-- Otherwise the first entry that is not good counts, and after that the earliest repetition. -/
theorem closed_error_iff (h : Judges make keyOf key good lacks)
    (hclose : ClosesDistinct close key repeated) {as : List α} {e : ε} :
    ((as.mapM fun a => (make a).mapError wrap) >>= close) = .error e ↔
      (∃ fault, FirstLacking good lacks as fault ∧ wrap fault = e) ∨
      (∀ a ∈ as, good a) ∧ ∃ k, EarliestRepeat (as.map keyOf) k ∧ repeated k = e := by
  rw [Except.bind_eq_error_iff, h.mapM_eq_error_iff, ← h.exists_mapM_eq_ok_iff wrap]
  refine or_congr_right ⟨?_, ?_⟩
  · rintro ⟨bs, hbs, he⟩
    exact ⟨⟨bs, hbs⟩, h.map_key_of_mapM hbs ▸ hclose.error_iff.1 he⟩
  · rintro ⟨⟨bs, hbs⟩, hrepeat⟩
    exact ⟨bs, hbs, hclose.error_iff.2 (h.map_key_of_mapM hbs ▸ hrepeat)⟩

end Judges

end

end HarvestSearch
