/-
Registries: ordered collections of elements with distinct names.

A list of elements becomes a registry unless a name is repeated, and then the error names the first
element whose name occurred before. `firstRepeat` finds it, and `firstRepeat_eq_none_iff` says that
it finds nothing exactly in lists without repetitions, which is how a registry comes to hold the
proof that its names are distinct.

`Registry` is `gleaner_domain::element::ElementRegistry`, and `Registry.ofList` is its `new`.
-/
import HarvestSearch.DomainError
import HarvestSearch.Element
import HarvestSearch.StableOrder

set_option autoImplicit false

namespace HarvestSearch

universe u

/-! ## The first repetition -/

section

variable {α : Type u} [DecidableEq α]

/-- The first item that is among the items seen or occurred before in the list. -/
def firstRepeatAfter (seen : List α) : List α → Option α
  | [] => none
  | x :: xs => if x ∈ seen then some x else firstRepeatAfter (x :: seen) xs

/-- The first item that occurred before in the list. -/
def firstRepeat (xs : List α) : Option α := firstRepeatAfter [] xs

theorem firstRepeatAfter_eq_none_iff {seen xs : List α} :
    firstRepeatAfter seen xs = none ↔ xs.Nodup ∧ ∀ x ∈ xs, x ∉ seen := by
  induction xs generalizing seen with
  | nil => simp [firstRepeatAfter]
  | cons x xs ih =>
    by_cases h : x ∈ seen
    · simp [firstRepeatAfter, h]
    · simp only [firstRepeatAfter, if_neg h, ih, List.nodup_cons, List.mem_cons, not_or]
      constructor
      · rintro ⟨nodup, fresh⟩
        refine ⟨⟨fun hx => (fresh x hx).1 rfl, nodup⟩, fun y hy => ?_⟩
        rcases hy with rfl | hy
        · exact h
        · exact (fresh y hy).2
      · rintro ⟨⟨hx, nodup⟩, fresh⟩
        exact ⟨nodup, fun y hy => ⟨fun heq => hx (heq ▸ hy), fresh y (.inr hy)⟩⟩

/-- Nothing is repeated exactly in a list without duplicates. -/
theorem firstRepeat_eq_none_iff {xs : List α} : firstRepeat xs = none ↔ xs.Nodup := by
  simp [firstRepeat, firstRepeatAfter_eq_none_iff]

end

/-! ## Registries -/

/-- Elements in order, with distinct names. -/
structure Registry where
  elements : List Element
  distinct : (elements.map (·.name)).Nodup

namespace Registry

def empty : Registry := ⟨[], List.nodup_nil⟩

instance : Inhabited Registry := ⟨empty⟩

/-- The registry of a list of elements, unless a name is repeated. -/
def ofList (elements : List Element) : Except DomainError Registry :=
  match h : firstRepeat (elements.map (·.name)) with
  | some name => .error (.duplicateElement name)
  | none => .ok ⟨elements, firstRepeat_eq_none_iff.1 h⟩

/-- A registry keeps the list it was made of. -/
theorem elements_of_ofList {elements : List Element} {r : Registry} (h : ofList elements = .ok r) :
    r.elements = elements := by
  unfold ofList at h
  split at h
  · cases h
  · cases h
    rfl

def find? (r : Registry) (name : String) : Option Element :=
  r.elements.find? fun e => e.name = name

/-- The elements that text is searched in. -/
def searchable (r : Registry) : List Element := r.elements.filter (·.searchable)

/-- The elements that results can be sorted by. -/
def sortable (r : Registry) : List Element := r.elements.filter (·.sortable)

/-- The elements with a facet, lighter ones first. Elements of one weight keep their order. -/
def facetable (r : Registry) : List Element :=
  StableOrder.orderBy (·.weight) (r.elements.filter (·.facetable))

/-- The elements whose values are indexed, all but the system fields. -/
def indexed (r : Registry) : List Element := r.elements.filter fun e => e.source ≠ .system

end Registry

end HarvestSearch
