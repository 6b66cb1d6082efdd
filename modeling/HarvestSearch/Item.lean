/-
Items: stored documents with their metadata back under the names of the elements.

A stored document holds its metadata in two ways, as a list of names and values and in the index
fields of the elements. An item gathers both, the list first, and keeps each pair of name and value
once, at its first place. An item has an identity, an address and at least one value.

`Item` and `ItemElement` are those of `gleaner_domain::item`; `Item.ofSource` is
`Item::from_source`, `Item.validate` is `Item::validate`, and `Item.valuesOf` is `Item::values_of`.
-/
import HarvestSearch.Registry
import HarvestSearch.Text.Trim

set_option autoImplicit false

namespace HarvestSearch

/-- A value of an element. -/
structure ItemElement where
  name : String
  value : String
deriving DecidableEq, Repr, Inhabited

/-- A document with its metadata. -/
structure Item where
  indexId : String
  sourceUri : String
  serviceKey : Option String
  variant : Option String
  parentId : Option String
  elements : List ItemElement
deriving DecidableEq, Repr, Inhabited

inductive ItemFault where
  | missingIndexId
  | missingSourceUri (indexId : String)
  | emptyIndexId
  | emptySourceUri (indexId : String)
  | noElements (indexId : String)
deriving DecidableEq, Repr

def ItemFault.message : ItemFault → String
  | .missingIndexId => "document is missing index_id."
  | .missingSourceUri indexId => indexId ++ " is missing source_uri."
  | .emptyIndexId => "index_id must be non-empty."
  | .emptySourceUri indexId => indexId ++ " has an empty source_uri."
  | .noElements indexId => indexId ++ " has no elements."

/-- The fault as a cause for refusing the document. -/
def ItemFault.toError (fault : ItemFault) : DomainError := .invalidDocument fault.message

/-! ## Repetitions -/

/-- The list without the items seen before or repeated in it. -/
def dedupAfter {α : Type} [DecidableEq α] (seen : List α) : List α → List α
  | [] => []
  | x :: xs => if x ∈ seen then dedupAfter seen xs else x :: dedupAfter (x :: seen) xs

/-- The list with every item at its first place only. -/
def dedup {α : Type} [DecidableEq α] (xs : List α) : List α := dedupAfter [] xs

theorem mem_dedupAfter {α : Type} [DecidableEq α] {seen xs : List α} {x : α} :
    x ∈ dedupAfter seen xs ↔ x ∈ xs ∧ x ∉ seen := by
  induction xs generalizing seen with
  | nil => simp [dedupAfter]
  | cons y ys ih =>
    by_cases h : y ∈ seen
    · simp only [dedupAfter, if_pos h, ih, List.mem_cons]
      constructor
      · rintro ⟨hx, hs⟩
        exact ⟨.inr hx, hs⟩
      · rintro ⟨rfl | hx, hs⟩
        · exact absurd h hs
        · exact ⟨hx, hs⟩
    · simp only [dedupAfter, if_neg h, List.mem_cons, ih]
      constructor
      · rintro (rfl | ⟨hx, hs⟩)
        · exact ⟨.inl rfl, h⟩
        · exact ⟨.inr hx, fun hm => hs (.inr hm)⟩
      · rintro ⟨rfl | hx, hs⟩
        · exact .inl rfl
        · rcases Decidable.em (x = y) with heq | hne
          · exact .inl heq
          · exact .inr ⟨hx, fun hm => hm.elim hne hs⟩

theorem nodup_dedupAfter {α : Type} [DecidableEq α] (seen xs : List α) :
    (dedupAfter seen xs).Nodup := by
  induction xs generalizing seen with
  | nil => simp [dedupAfter]
  | cons y ys ih =>
    by_cases h : y ∈ seen
    · simpa [dedupAfter, h] using ih seen
    · simp only [dedupAfter, if_neg h, List.nodup_cons]
      exact ⟨fun hm => (mem_dedupAfter.1 hm).2 (List.mem_cons_self ..), ih _⟩

theorem nodup_dedup {α : Type} [DecidableEq α] (xs : List α) : (dedup xs).Nodup :=
  nodup_dedupAfter [] xs

/-! ## Stored documents -/

namespace Item

/-- The first fault of an item: its identity, its address, its values. -/
def fault? (item : Item) : Option ItemFault :=
  if Text.isBlank item.indexId then some .emptyIndexId
  else if Text.isBlank item.sourceUri then some (.emptySourceUri item.indexId)
  else if item.elements.isEmpty then some (.noElements item.indexId)
  else none

/-- The item, unless it has a fault. -/
def validate (item : Item) : Except DomainError Item :=
  match item.fault? with
  | some fault => .error fault.toError
  | none => .ok item

/-- An item with nothing but an identity, an address and values. -/
def ofParts (indexId sourceUri : String) (elements : List ItemElement) : Except DomainError Item :=
  validate ⟨indexId, sourceUri, none, none, none, dedup elements⟩

/-- The text of a member, if it is a scalar. -/
def scalarAt? (source : Json) (key : String) : Option String :=
  (source.get? key).bind Json.scalarText?

/-- An entry of the list of names and values, if both are scalars. -/
def inlineElement? (entry : Json) : Option ItemElement := do
  pure ⟨← scalarAt? entry "name", ← scalarAt? entry "value"⟩

/-- The values that a document lists by name. -/
def inlineElements (source : Json) : List ItemElement :=
  match (source.get? Field.elements).bind Json.asArray? with
  | some entries => entries.filterMap inlineElement?
  | none => []

/-- The values in an index field: one scalar, or those in a list. -/
def fieldValues (raw : Json) : List String :=
  match raw with
  | .array items => items.filterMap Json.scalarText?
  | scalar => scalar.scalarText?.toList

/-- The values that a document holds in the index field of an element. -/
def valuesAt (source : Json) (e : Element) : List ItemElement :=
  match source.get? e.indexedField with
  | some raw => (fieldValues raw).map fun value => ⟨e.name, value⟩
  | none => []

/-- The values that a document holds in the index fields of a registry's elements. -/
def indexedElements (source : Json) (registry : Registry) : List ItemElement :=
  registry.indexed.flatMap (valuesAt source)

/-- The item of a stored document. -/
def ofSource (source : Json) (registry : Registry) : Except DomainError Item :=
  let indexId := (scalarAt? source Field.indexId).getD ""
  let sourceUri := (scalarAt? source Field.sourceUri).getD ""
  if Text.isBlank indexId then .error ItemFault.missingIndexId.toError
  else if Text.isBlank sourceUri then .error (ItemFault.missingSourceUri indexId).toError
  else
    validate {
      indexId := indexId
      sourceUri := sourceUri
      serviceKey := scalarAt? source Field.serviceKey
      variant := scalarAt? source Field.variant
      parentId := scalarAt? source Field.parentId
      elements := dedup (inlineElements source ++ indexedElements source registry) }

/-- The values of an element, in order. -/
def valuesOf (item : Item) (name : String) : List String :=
  (item.elements.filter fun e => e.name = name).map (·.value)

end Item

/-! ## Written form -/

def ItemElement.toJson (e : ItemElement) : Json :=
  .object [("name", .string e.name), ("value", .string e.value)]

def ItemElement.ofJson? (j : Json) : Option ItemElement := do
  pure {
    name := ← j.field "name" Json.asString?
    value := ← j.field "value" Json.asString? }

def Item.toJson (item : Item) : Json :=
  .object [
    (Field.indexId, .string item.indexId),
    (Field.sourceUri, .string item.sourceUri),
    (Field.serviceKey, Json.ofOption .string item.serviceKey),
    (Field.variant, Json.ofOption .string item.variant),
    (Field.parentId, Json.ofOption .string item.parentId),
    (Field.elements, .array (item.elements.map ItemElement.toJson))]

def Item.ofJson? (j : Json) : Option Item := do
  pure {
    indexId := ← j.field Field.indexId Json.asString?
    sourceUri := ← j.field Field.sourceUri Json.asString?
    serviceKey := ← j.fieldOption Field.serviceKey Json.asString?
    variant := ← j.fieldOption Field.variant Json.asString?
    parentId := ← j.fieldOption Field.parentId Json.asString?
    elements := ← j.field Field.elements (Json.listOf ItemElement.ofJson?) }

end HarvestSearch
