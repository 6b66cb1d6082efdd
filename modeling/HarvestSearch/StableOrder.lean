/-
Lists in the order of a whole number that every item carries.

Two facts fix what `orderBy` returns. The items are those of the list (`perm_orderBy`), and they
stand in the order of their keys, those of one key as they came in the list: whatever holds between
items by their places in the list decides between items of one key (`pairwise_orderBy_of_pairwise`).
An item is put in front of the first one that is not lighter, and the list is worked from its end, so
of two items with one key the earlier one is put in later and comes first.

`orderBy` is the `sort_by_key` of `ElementRegistry::facetable`.
-/

set_option autoImplicit false

namespace HarvestSearch.StableOrder

variable {α : Type} (key : α → Int)

/-- The list with one more item, in front of the first one whose key is not less. -/
def insertBy (a : α) : List α → List α
  | [] => [a]
  | b :: bs => if key a ≤ key b then a :: b :: bs else b :: insertBy a bs

/-- The items by ascending key. Items of one key keep their order. -/
def orderBy (xs : List α) : List α := xs.foldr (insertBy key) []

/-! ## The items -/

theorem perm_insertBy (a : α) (xs : List α) : (insertBy key a xs).Perm (a :: xs) := by
  induction xs with
  | nil => exact .refl _
  | cons b bs ih =>
    by_cases h : key a ≤ key b
    · simp [insertBy, h]
    · simp only [insertBy, if_neg h]
      exact (ih.cons b).trans (.swap a b bs)

/-- The items are those of the list. -/
theorem perm_orderBy (xs : List α) : (orderBy key xs).Perm xs := by
  induction xs with
  | nil => exact .refl _
  | cons a xs ih => exact (perm_insertBy key a _).trans (ih.cons a)

/-- An item is in the ordered list exactly when it is in the list. -/
theorem mem_orderBy {xs : List α} {a : α} : a ∈ orderBy key xs ↔ a ∈ xs :=
  (perm_orderBy key xs).mem_iff

/-! ## The order -/

theorem pairwise_insertBy_of_pairwise {R : α → α → Prop} {a : α} {xs : List α}
    (ha : ∀ b ∈ xs, R a b)
    (h : xs.Pairwise fun x y => key x < key y ∨ key x = key y ∧ R x y) :
    (insertBy key a xs).Pairwise fun x y => key x < key y ∨ key x = key y ∧ R x y := by
  induction xs with
  | nil => simp [insertBy]
  | cons b bs ih =>
    obtain ⟨first, rest⟩ := List.pairwise_cons.1 h
    by_cases hab : key a ≤ key b
    · rw [insertBy, if_pos hab]
      refine List.pairwise_cons.2 ⟨fun c hc => ?_, h⟩
      have hac : key a ≤ key c := by
        rcases List.mem_cons.1 hc with rfl | hmem
        · exact hab
        · have hbc := first c hmem
          omega
      rcases Int.lt_or_eq_of_le hac with hlt | heq
      · exact .inl hlt
      · exact .inr ⟨heq, ha c hc⟩
    · rw [insertBy, if_neg hab]
      have hrest := ih (fun c hc => ha c (List.mem_cons_of_mem _ hc)) rest
      refine List.pairwise_cons.2 ⟨fun c hc => ?_, hrest⟩
      rcases List.mem_cons.1 ((perm_insertBy key a bs).mem_iff.1 hc) with rfl | hmem
      · exact .inl (Int.not_le.1 hab)
      · exact first c hmem

/-- Two items stand in the order of their keys, and in the order of the list if their keys agree:
what holds between any two items of the list, the earlier one first, holds between these. -/
theorem pairwise_orderBy_of_pairwise {R : α → α → Prop} {xs : List α} (h : xs.Pairwise R) :
    (orderBy key xs).Pairwise fun x y => key x < key y ∨ key x = key y ∧ R x y := by
  induction xs with
  | nil => exact .nil
  | cons a xs ih =>
    obtain ⟨first, rest⟩ := List.pairwise_cons.1 h
    refine pairwise_insertBy_of_pairwise key (fun b hb => ?_) (ih rest)
    exact first b ((mem_orderBy key).1 hb)

end HarvestSearch.StableOrder
