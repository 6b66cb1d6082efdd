/-
JSON values.

Numbers come in two kinds that are never mixed up: whole numbers, kept exactly, and doubles. The
members of an object are a list of pairs: reading text and `Json.ofMembers` keep them in name order
without repetitions, and records that are written out in a fixed order list their members so. A
look-up takes the first member of that name, so it does not depend on which of the two made the
object.

`Json` is `serde_json::Value`.
-/
import HarvestSearch.Decimal.Shortest
import HarvestSearch.FieldMap

set_option autoImplicit false

namespace HarvestSearch

/-- A JSON value. -/
inductive Json where
  | null
  | bool (b : Bool)
  | int (n : Int)
  | float (x : Binary64)
  | string (s : String)
  | array (items : List Json)
  | object (members : List (String × Json))
deriving Repr, Inhabited

namespace Json

/-! ## Building -/

def ofMap (m : FieldMap Json) : Json := .object m.entries

/-- The object with these members in name order. Of a repeated name the last value counts. -/
def ofMembers (members : List (String × Json)) : Json := ofMap (.ofList members)

def ofStrings (items : List String) : Json := .array (items.map .string)

def ofUInt64 (n : UInt64) : Json := .int n.toNat

def ofUInt32 (n : UInt32) : Json := .int n.toNat

/-- The value, or `null` for nothing. -/
def ofOption {α : Type} (encode : α → Json) : Option α → Json
  | none => .null
  | some a => encode a

/-- A member that is left out when its list is empty. -/
def listMember (key : String) (items : List Json) : List (String × Json) :=
  if items.isEmpty then [] else [(key, .array items)]

/-- A member that is left out when there is no value. -/
def optionMember (key : String) (value : Option Json) : List (String × Json) :=
  match value with
  | some value => [(key, value)]
  | none => []

/-! ## Looking inside -/

def asString? : Json → Option String
  | .string s => some s
  | _ => none

def asArray? : Json → Option (List Json)
  | .array items => some items
  | _ => none

theorem asArray?_eq_some_iff {j : Json} {items : List Json} :
    j.asArray? = some items ↔ j = .array items := by
  cases j with
  | array inner => rw [asArray?, Option.some_inj, Json.array.injEq]
  | _ => exact ⟨nofun, nofun⟩

def asObject? : Json → Option (List (String × Json))
  | .object members => some members
  | _ => none

def asBool? : Json → Option Bool
  | .bool b => some b
  | _ => none

/-- The whole number, of a whole number that is not written as a double. -/
def asInt? : Json → Option Int
  | .int n => some n
  | _ => none

def maxWord : Nat := 18446744073709551615

def maxHalfWord : Nat := 4294967295

def signedMagnitude : Nat := 9223372036854775808

def signedHalfMagnitude : Nat := 2147483648

/-- The whole number in a range, both ends included. -/
def asIntIn? (low high : Int) (j : Json) : Option Int := do
  let n ← j.asInt?
  if low ≤ n ∧ n ≤ high then some n else none

/-- The word, of a whole number that fits one. -/
def asUInt64? (j : Json) : Option UInt64 :=
  (j.asIntIn? 0 maxWord).map fun n => UInt64.ofNat n.toNat

/-- The half word, of a whole number that fits one. -/
def asUInt32? (j : Json) : Option UInt32 :=
  (j.asIntIn? 0 maxHalfWord).map fun n => UInt32.ofNat n.toNat

/-- The signed half word, of a whole number that fits one. -/
def asInt32? (j : Json) : Option Int :=
  j.asIntIn? (-(signedHalfMagnitude : Int)) (signedHalfMagnitude - 1)

mutual

/-- Whether every whole number in the value, at any depth, fits a word or a signed word. -/
def fitsWords : Json → Bool
  | .int n => decide (-(signedMagnitude : Int) ≤ n ∧ n ≤ maxWord)
  | .array items => itemsFitWords items
  | .object members => membersFitWords members
  | _ => true

def itemsFitWords : List Json → Bool
  | [] => true
  | item :: items => item.fitsWords && itemsFitWords items

def membersFitWords : List (String × Json) → Bool
  | [] => true
  | (_, value) :: members => value.fitsWords && membersFitWords members

end

/-- The value of a member of an object. Other values have no members. -/
def get? (key : String) : Json → Option Json
  | .object members => FieldMap.lookupEntries key members
  | _ => none

/-- The value that is reached by a path of names. -/
def atPath? : Json → List String → Option Json
  | j, [] => some j
  | j, key :: path => (j.get? key).bind fun inner => inner.atPath? path

theorem get?_ofMembers (key : String) (members : List (String × Json)) :
    (ofMembers members).get? key = FieldMap.lookupEntries key members.reverse :=
  FieldMap.get?_ofList members key

/-- Members that are in order already stay as they are. -/
theorem ofMembers_of_sorted {members : List (String × Json)} (h : SortedEntries members) :
    ofMembers members = .object members := congrArg ofMap (FieldMap.ofList_entries ⟨members, h⟩)

/-- Members under other names do not matter. -/
theorem get?_ofMembers_append {key : String} (members : List (String × Json))
    {more : List (String × Json)} (h : ∀ e ∈ more, e.1 ≠ key) :
    (ofMembers (members ++ more)).get? key = (ofMembers members).get? key := by
  rw [get?_ofMembers, get?_ofMembers, List.reverse_append, FieldMap.lookupEntries_append,
    FieldMap.lookupEntries_reverse_eq_none h, Option.none_or]

/-- The last member is found. -/
theorem get?_ofMembers_concat (key : String) (value : Json) (members : List (String × Json)) :
    (ofMembers (members ++ [(key, value)])).get? key = some value := by
  rw [get?_ofMembers, List.reverse_append, List.reverse_singleton, List.singleton_append,
    FieldMap.lookupEntries, if_pos rfl]

theorem get?_ofMembers_singleton (key : String) (value : Json) :
    (ofMembers [(key, value)]).get? key = some value :=
  get?_ofMembers_concat key value []

/-- The first member is found when no later one has its name. -/
theorem get?_ofMembers_cons {key : String} (value : Json) {members : List (String × Json)}
    (h : ∀ e ∈ members, e.1 ≠ key) : (ofMembers ((key, value) :: members)).get? key = some value :=
  (get?_ofMembers_append [(key, value)] h).trans (get?_ofMembers_singleton key value)

/-- A member that may be left out has its name, and an array that is not empty. -/
theorem mem_listMember {key : String} {items : List Json} {e : String × Json} :
    e ∈ listMember key items ↔ items ≠ [] ∧ e = (key, .array items) := by
  unfold listMember
  cases items with
  | nil => simp
  | cons item rest => simp

theorem mem_optionMember {key : String} {value : Option Json} {e : String × Json} :
    e ∈ optionMember key value ↔ ∃ v, value = some v ∧ e = (key, v) := by
  unfold optionMember
  cases value with
  | none => simp
  | some v => simp

/-- A list among members of other names is found exactly if it is not empty. -/
theorem get?_listMember_eq_some_iff {key : String} {items : List Json}
    {front back : List (String × Json)} (hfront : ∀ e ∈ front, e.1 ≠ key)
    (hback : ∀ e ∈ back, e.1 ≠ key) {value : Json} :
    (ofMembers (front ++ listMember key items ++ back)).get? key = some value ↔
      items ≠ [] ∧ value = .array items := by
  rw [get?_ofMembers_append _ hback]
  cases items with
  | nil =>
    have hnone : FieldMap.lookupEntries key front.reverse = none :=
      FieldMap.lookupEntries_reverse_eq_none hfront
    simp [listMember, get?_ofMembers, hnone]
  | cons item rest =>
    have hfound : (ofMembers (front ++ listMember key (item :: rest))).get? key
        = some (.array (item :: rest)) := get?_ofMembers_concat key _ front
    simp [hfound, eq_comm]

def isString (j : Json) : Bool := j.asString?.isSome

/-! ## Scalars as text -/

def intText (n : Int) : String :=
  match n with
  | .ofNat n => String.ofList (Nat.toDigits 10 n)
  | .negSucc n => String.ofList ('-' :: Nat.toDigits 10 (n + 1))

/-- Doubles are written in place when the power of ten of their first digit is from -5 to 15. -/
def floatLayout : Binary64.Layout := ⟨-5, 15⟩

def floatText (x : Binary64) : String := x.toText floatLayout

def boolText : Bool → String
  | true => "true"
  | false => "false"

/-- Strings, numbers and truth values as text. `null`, arrays and objects are no scalars. -/
def scalarText? : Json → Option String
  | .string s => some s
  | .int n => some (intText n)
  | .float x => some (floatText x)
  | .bool b => some (boolText b)
  | _ => none

end Json

end HarvestSearch
