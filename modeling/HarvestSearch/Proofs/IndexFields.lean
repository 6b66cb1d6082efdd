/-
Whose field a name is.

The fields of elements (`gleaner_domain::element::Element::indexed_field`) and the bookkeeping
fields of documents (`gleaner_domain::fields`) are names in one space. What keeps them apart is how
a name begins: the three kinds of elements that are no system fields each have a head of their own,
and the heads differ in their first letters. `Field.eq_of_append_eq` says that a name that begins
with a head has one head and one rest.

Two things escape this. System elements have no head, so a system element can be named like the
field of an element of another vocabulary; `fieldWithTail_eq_iff` says that elements with different
names share a field in no other way, whatever the field is used for. And one bookkeeping field,
`source_uri`, begins like the fields of harvested elements; `Field.head_append_eq_wellKnown_iff`
says that it is the only one that begins with a head.
-/
import HarvestSearch.Element

set_option autoImplicit false

namespace HarvestSearch

/-! ## Heads -/

namespace Field

/-- What the names of the fields of elements begin with. -/
def heads : List String := [localHead, dateHead, sourceHead]

/-- The fields of documents that tell about the document itself. -/
def bookkeeping : List String := [indexId, sourceUri, serviceKey, variant, parentId]

/-- All fields of documents that have fixed names. -/
def wellKnown : List String := bookkeeping ++ [elements, searchAll]

/-- Names that begin with a head are the same only if the heads and the rests are. -/
theorem eq_of_append_eq {a b s t : String} (ha : a ∈ heads) (hb : b ∈ heads)
    (h : a ++ s = b ++ t) : a = b ∧ s = t := by
  -- the first letter of the name is that of the head, and tells the head
  have hletter : ∀ head ∈ heads, ∀ rest : String,
      (head ++ rest).toList.head? = head.toList.head? := by
    intro head hhead rest
    have hsome : ∀ head ∈ heads, head.toList.head?.isSome = true := by decide
    rw [String.toList_append, List.head?_append, Option.or_of_isSome (hsome head hhead)]
  have hdistinct : ∀ a ∈ heads, ∀ b ∈ heads, a.toList.head? = b.toList.head? → a = b := by decide
  have hab : a = b := by
    refine hdistinct a ha b hb ?_
    rw [← hletter a ha s, h, hletter b hb t]
  subst hab
  exact ⟨rfl, (String.append_right_inj a).1 h⟩

/-- Of the fields with fixed names only the address of a document begins with a head. -/
theorem head_append_eq_wellKnown_iff {head rest field : String} (hhead : head ∈ heads)
    (hfield : field ∈ wellKnown) :
    head ++ rest = field ↔ head = sourceHead ∧ rest = "uri" ∧ field = sourceUri := by
  have haddress : sourceHead ++ "uri" = sourceUri := rfl
  have hbegins : ∀ head ∈ heads, ∀ field ∈ wellKnown,
      field.toList.take head.toList.length = head.toList → head = sourceHead ∧ field = sourceUri := by
    decide
  constructor
  · intro h
    have htake : field.toList.take head.toList.length = head.toList := by
      rw [← h, String.toList_append, List.take_left]
    obtain ⟨rfl, rfl⟩ := hbegins head hhead field hfield htake
    exact ⟨rfl, (String.append_right_inj sourceHead).1 (h.trans haddress.symm), rfl⟩
  · rintro ⟨rfl, rfl, rfl⟩
    exact haddress

end Field

namespace Element

/-- What the fields of an element begin with. System fields begin with the name. -/
def head (e : Element) : String :=
  match e.source, e.dataType with
  | .system, _ => ""
  | .harvested, _ => Field.sourceHead
  | .localVocabulary, .date => Field.dateHead
  | .localVocabulary, .string => Field.localHead

theorem indexedField_eq (e : Element) : e.indexedField = e.head ++ e.name := by
  unfold indexedField head
  cases e.source with
  | system => exact String.empty_append.symm
  | harvested => rfl
  | localVocabulary => cases e.dataType <;> rfl

/-- Every field of an element is its head, its name, and the tail unless it takes none. -/
theorem fieldWithTail_eq (e : Element) (tail : String) :
    e.fieldWithTail tail = e.head ++ (e.name ++ if e.hasSingleField then "" else tail) := by
  rw [fieldWithTail, indexedField_eq]
  split
  · rw [String.append_empty]
  · rw [String.append_assoc]

/-- The indexed field is the field with no tail. -/
theorem fieldWithTail_empty (e : Element) : e.fieldWithTail "" = e.indexedField := by
  rw [fieldWithTail, String.append_empty, ite_self]

theorem fieldWithTail_of_system {e : Element} (h : e.source = .system) (tail : String) :
    e.fieldWithTail tail = e.name := by
  simp [fieldWithTail, hasSingleField, indexedField, h]

theorem head_mem_heads {e : Element} (h : e.source ≠ .system) : e.head ∈ Field.heads := by
  unfold head
  cases hsource : e.source with
  | system => exact absurd hsource h
  | harvested => cases e.dataType <;> decide
  | localVocabulary => cases e.dataType <;> decide

/-- The head tells whether the fields of an element take tails. -/
theorem hasSingleField_eq {e : Element} (h : e.source ≠ .system) :
    e.hasSingleField = decide (e.head = Field.dateHead) := by
  unfold hasSingleField head
  cases hsource : e.source with
  | system => exact absurd hsource h
  | harvested => cases e.dataType <;> decide
  | localVocabulary => cases e.dataType <;> decide

/-! ## Fields of elements and bookkeeping fields -/

/-- No element is indexed in a field with a fixed name, but for the harvested element that is named
like the rest of the address. -/
theorem indexedField_mem_wellKnown_iff {e : Element} (h : e.source ≠ .system) :
    e.indexedField ∈ Field.wellKnown ↔ e.source = .harvested ∧ e.name = "uri" := by
  have hharvested : e.head = Field.sourceHead ↔ e.source = .harvested := by
    unfold head
    cases hsource : e.source with
    | system => exact absurd hsource h
    | harvested => cases e.dataType <;> decide
    | localVocabulary => cases e.dataType <;> decide
  rw [indexedField_eq, ← hharvested]
  constructor
  · intro hmem
    obtain ⟨hhead, hname, -⟩ := (Field.head_append_eq_wellKnown_iff (head_mem_heads h) hmem).1 rfl
    exact ⟨hhead, hname⟩
  · rintro ⟨hhead, hname⟩
    rw [hhead, hname]
    decide

/-! ## Fields of two elements -/

/-- A system element goes by the field of an element of another vocabulary. -/
def Takes (field : Element → String) (e e' : Element) : Prop :=
  e.source = .system ∧ e'.source ≠ .system ∧ e.name = field e'

/-- One of two elements goes by the field of the other. -/
def Collide (field : Element → String) (e e' : Element) : Prop :=
  Takes field e e' ∨ Takes field e' e

/-- Elements of the vocabularies with heads have different fields, if they have different names. -/
theorem name_eq_of_fieldWithTail_eq {e e' : Element} (h : e.source ≠ .system)
    (h' : e'.source ≠ .system) {tail : String} (heq : e.fieldWithTail tail = e'.fieldWithTail tail) :
    e.name = e'.name := by
  rw [fieldWithTail_eq, fieldWithTail_eq] at heq
  obtain ⟨hhead, hrest⟩ := Field.eq_of_append_eq (head_mem_heads h) (head_mem_heads h') heq
  rw [hasSingleField_eq h, hasSingleField_eq h', hhead] at hrest
  exact (String.append_left_inj _).1 hrest

/-- **How two elements come to share a field**, for every use of fields: only by one of them being a
system element that is named like the field of the other. -/
theorem fieldWithTail_eq_iff {e e' : Element} (hname : e.name ≠ e'.name) (tail : String) :
    e.fieldWithTail tail = e'.fieldWithTail tail ↔ Collide (fieldWithTail · tail) e e' := by
  unfold Collide Takes
  by_cases h : e.source = .system
  · by_cases h' : e'.source = .system
    · simp [h, h', fieldWithTail_of_system, hname]
    · simp [h, h', fieldWithTail_of_system]
  · by_cases h' : e'.source = .system
    · simp [h, h', fieldWithTail_of_system, eq_comm]
    · have hfields : e.fieldWithTail tail ≠ e'.fieldWithTail tail :=
        fun heq => hname (name_eq_of_fieldWithTail_eq h h' heq)
      simp [h, h', hfields]

end Element

end HarvestSearch
