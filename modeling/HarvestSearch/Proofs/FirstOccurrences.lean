/-
Lists in which every item stands at its first place only.

`List.eraseDups` keeps the first item, takes its repetitions out of the rest, and goes on with what
is left. So a recursion over the list is one over its length, and the laws say with what leaving out
repetitions commutes: picking items (`filter_eraseDups`), images under which different items stay
different (`map_eraseDups`), and another order of the list, but for the order (`perm_eraseDups`).
An item at the end of a list is new there or left out (`eraseDups_append_singleton`), and items that
occurred before make no difference wherever they come again (`eraseDups_append_middle`).
-/

set_option autoImplicit false

namespace HarvestSearch

variable {α β : Type} [BEq α] [LawfulBEq α] [BEq β] [LawfulBEq β]

theorem nodup_eraseDups : ∀ xs : List α, xs.eraseDups.Nodup
  | [] => .nil
  | x :: xs => by
    have ih := nodup_eraseDups (xs.filter fun y => !y == x)
    rw [List.eraseDups_cons]
    refine List.nodup_cons.2 ⟨fun hmem => ?_, ih⟩
    have hother := (List.mem_filter.1 (List.mem_eraseDups.1 hmem)).2
    simp at hother
termination_by xs => xs.length
decreasing_by exact Nat.lt_succ_of_le (List.length_filter_le ..)

/-- Nothing is left out of a list without repetitions. -/
theorem eraseDups_of_nodup {xs : List α} (h : xs.Nodup) : xs.eraseDups = xs := by
  induction xs with
  | nil => rfl
  | cons x xs ih =>
    obtain ⟨fresh, hrest⟩ := List.nodup_cons.1 h
    have hkept : (xs.filter fun y => !y == x) = xs :=
      List.filter_eq_self.2 fun y hy => by simpa using fun heq : y = x => fresh (heq ▸ hy)
    rw [List.eraseDups_cons, hkept, ih hrest]

/-- The items that are looked for can be picked before or after repetitions are left out. -/
theorem filter_eraseDups (p : α → Bool) : ∀ xs : List α,
    xs.eraseDups.filter p = (xs.filter p).eraseDups
  | [] => rfl
  | x :: xs => by
    have ih := filter_eraseDups p (xs.filter fun y => !y == x)
    rw [List.eraseDups_cons]
    by_cases hx : p x = true
    · rw [List.filter_cons_of_pos hx, List.filter_cons_of_pos hx, List.eraseDups_cons, ih,
        List.filter_filter, List.filter_filter]
      simp only [Bool.and_comm]
    · -- the repetitions of an item that is not looked for are not looked for either
      have hsame : (xs.filter fun y => !y == x).filter p = xs.filter p := by
        rw [List.filter_filter]
        refine List.filter_congr fun y _ => ?_
        by_cases hy : y = x
        · simp [hy, hx]
        · simp [hy]
      rw [List.filter_cons_of_neg hx, List.filter_cons_of_neg hx, ih, hsame]
termination_by xs => xs.length
decreasing_by exact Nat.lt_succ_of_le (List.length_filter_le ..)

/-- Images are repeated just where the items are, when different items have different images. -/
theorem map_eraseDups {f : α → β} : ∀ xs : List α,
    (∀ a ∈ xs, ∀ b ∈ xs, f a = f b → a = b) → xs.eraseDups.map f = (xs.map f).eraseDups
  | [], _ => rfl
  | x :: xs, hf => by
    have hrest : (xs.map f).filter (fun y => !y == f x) = (xs.filter fun y => !y == x).map f := by
      rw [List.filter_map]
      refine congrArg (List.map f) (List.filter_congr fun y hy => ?_)
      have hinj : f y = f x → y = x := hf y (List.mem_cons_of_mem _ hy) x List.mem_cons_self
      by_cases heq : y = x
      · simp [heq]
      · simp [beq_false_of_ne heq, beq_false_of_ne (mt hinj heq)]
    have ih := map_eraseDups (xs.filter fun y => !y == x) fun a ha b hb =>
      hf a (List.mem_cons_of_mem _ (List.mem_filter.1 ha).1) b
        (List.mem_cons_of_mem _ (List.mem_filter.1 hb).1)
    rw [List.eraseDups_cons, List.map_cons, List.map_cons, List.eraseDups_cons, hrest, ih]
termination_by xs => xs.length
decreasing_by exact Nat.lt_succ_of_le (List.length_filter_le ..)

/-- The items of a list in another order are the same ones, in another order. -/
theorem perm_eraseDups {xs ys : List α} (h : xs.Perm ys) : xs.eraseDups.Perm ys.eraseDups := by
  refine (List.perm_ext_iff_of_nodup (nodup_eraseDups xs) (nodup_eraseDups ys)).2 fun a => ?_
  rw [List.mem_eraseDups, List.mem_eraseDups, h.mem_iff]

/-- A list with one item, at least once and any number of times. -/
theorem eraseDups_eq_singleton_iff {xs : List α} {x : α} :
    xs.eraseDups = [x] ↔ x ∈ xs ∧ ∀ y ∈ xs, y = x := by
  constructor
  · intro h
    have hmem : ∀ y, y ∈ xs ↔ y = x := fun y => by
      rw [← List.mem_eraseDups, h, List.mem_singleton]
    exact ⟨(hmem x).2 rfl, fun y hy => (hmem y).1 hy⟩
  · rintro ⟨hx, hall⟩
    have hone : [x].Nodup := List.pairwise_singleton _ x
    refine List.perm_singleton.1 ?_
    refine (List.perm_ext_iff_of_nodup (nodup_eraseDups xs) hone).2 fun y => ?_
    rw [List.mem_eraseDups, List.mem_singleton]
    exact ⟨hall y, fun h => h ▸ hx⟩

/-- Items that occurred before can be put in anywhere after that. -/
theorem eraseDups_append_middle {xs more : List α} (h : ∀ x ∈ more, x ∈ xs) (ys : List α) :
    (xs ++ more ++ ys).eraseDups = (xs ++ ys).eraseDups := by
  have hnone : more.removeAll xs = [] := by
    refine List.filter_eq_nil_iff.2 fun x hx => ?_
    simpa using h x hx
  have hrest : (more ++ ys).removeAll xs = ys.removeAll xs := by
    unfold List.removeAll at hnone ⊢
    rw [List.filter_append, hnone, List.nil_append]
  rw [List.append_assoc, List.eraseDups_append, hrest, ← List.eraseDups_append]

/-- One more item is left out if it was there before. -/
theorem eraseDups_append_singleton (xs : List α) (x : α) :
    (xs ++ [x]).eraseDups = if x ∈ xs then xs.eraseDups else xs.eraseDups ++ [x] := by
  rw [List.eraseDups_append]
  by_cases hx : x ∈ xs
  · simp [hx, List.removeAll]
  · simp [hx, List.removeAll, List.eraseDups_cons]

end HarvestSearch
