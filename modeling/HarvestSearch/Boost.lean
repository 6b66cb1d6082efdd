/-
Boosts: fields and values that raise or lower a match in the ranking.

A boost names a field and a value, neither blank, and a strength from -10 to 10 that is not zero;
these bounds are part of the type. A table of boosts holds every pair of field and value once.

`BoostEntry` is `gleaner_config::BoostDef`, `Boost` with `Boost.ofEntry` is
`gleaner_domain::boost::Boost` with its `try_from`, and `BoostTable` is
`gleaner_domain::boost::BoostTable`.
-/
import HarvestSearch.Registry
import HarvestSearch.Text.Trim

set_option autoImplicit false

namespace HarvestSearch

def maxBoost : Int := 10

/-- A boost as it is written down, not yet checked. -/
structure BoostEntry where
  field : String
  value : String
  strength : Int
deriving DecidableEq, Repr, Inhabited

inductive BoostFault where
  | blankField
  | blankValue
  | zeroStrength
  | strengthOutOfRange
deriving DecidableEq, Repr

def BoostFault.message : BoostFault → String
  | .blankField => "field must be non-empty."
  | .blankValue => "value must be non-empty."
  | .zeroStrength => "strength must not be zero."
  | .strengthOutOfRange =>
    "strength must be between " ++ Json.intText (-maxBoost) ++ " and " ++ Json.intText maxBoost ++ "."

/-- The strength is in bounds and does something. -/
def ValidStrength (n : Int) : Prop := n ≠ 0 ∧ -maxBoost ≤ n ∧ n ≤ maxBoost

instance (n : Int) : Decidable (ValidStrength n) := inferInstanceAs (Decidable (_ ∧ _))

structure Boost where
  field : String
  value : String
  strength : Int
  field_not_blank : Text.isBlank field = false
  value_not_blank : Text.isBlank value = false
  strength_valid : ValidStrength strength
deriving DecidableEq

namespace Boost

/-- The boost of an entry, or the first fault of the entry: a blank field, a blank value, strength
zero, a strength out of range. -/
def ofEntry (entry : BoostEntry) : Except BoostFault Boost :=
  if hf : Text.isBlank entry.field = false then
    if hv : Text.isBlank entry.value = false then
      if hz : entry.strength = 0 then .error .zeroStrength
      else if hr : -maxBoost ≤ entry.strength ∧ entry.strength ≤ maxBoost then
        .ok ⟨entry.field, entry.value, entry.strength, hf, hv, hz, hr⟩
      else .error .strengthOutOfRange
    else .error .blankValue
  else .error .blankField

/-- The entry that a boost was made from. -/
def toEntry (b : Boost) : BoostEntry := ⟨b.field, b.value, b.strength⟩

def target (b : Boost) : String × String := (b.field, b.value)

end Boost

/-- Boosts in order, each for another pair of field and value. -/
structure BoostTable where
  boosts : List Boost
  distinct : (boosts.map (·.target)).Nodup

namespace BoostTable

def empty : BoostTable := ⟨[], List.nodup_nil⟩

instance : Inhabited BoostTable := ⟨empty⟩

/-- The table of a list of boosts, unless a pair of field and value is repeated. -/
def ofList (boosts : List Boost) : Except DomainError BoostTable :=
  match h : firstRepeat (boosts.map (·.target)) with
  | some (field, value) => .error (.duplicateBoost field value)
  | none => .ok ⟨boosts, firstRepeat_eq_none_iff.1 h⟩

/-- The table of a list of entries. A fault of any entry counts before a repetition. -/
def ofEntries (entries : List BoostEntry) : Except DomainError BoostTable := do
  let boosts ← entries.mapM fun entry =>
    (Boost.ofEntry entry).mapError fun fault => DomainError.invalidBoost fault.message
  ofList boosts

end BoostTable

end HarvestSearch
