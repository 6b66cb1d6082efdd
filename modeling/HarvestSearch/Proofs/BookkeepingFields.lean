/-
Documents that tell nothing but what they are, and whether they make items.

The bookkeeping fields of a document hold its identity, its address, its service, its kind and its
parent. They are no metadata, so a document with no other fields should have no values and make no
item. What could break this is an element whose index field is one of the bookkeeping fields, and
`Element.indexedField_mem_wellKnown_iff` says that there is just one such element, the harvested
element `uri`: its field `source_uri` is the address.

`Item.ofSource_bookkeeping` says what becomes of these documents. Without that element they are
refused by `gleaner_domain::item::Item::from_source`, whatever else is in the registry. With it a
document that has an identity and an address is an item, and its one value is the address.
-/
import HarvestSearch.Proofs.IndexFields
import HarvestSearch.Proofs.StoredItems

set_option autoImplicit false

namespace HarvestSearch

/-- The element that is indexed where documents keep their address. -/
def Element.TakesAddress (e : Element) : Prop := e.source = .harvested ∧ e.name = "uri"

theorem Element.TakesAddress.source_ne {e : Element} (h : e.TakesAddress) : e.source ≠ .system := by
  rw [h.1]
  decide

theorem Element.TakesAddress.indexedField_eq {e : Element} (h : e.TakesAddress) :
    e.indexedField = Field.sourceUri := by
  rw [Element.indexedField, h.1, h.2]
  rfl

namespace Item

/-- Every member of the document is a bookkeeping field. -/
def BookkeepingOnly (members : List (String × Json)) : Prop :=
  ∀ member ∈ members, member.1 ∈ Field.bookkeeping

section

variable {members : List (String × Json)} (hmembers : BookkeepingOnly members)

include hmembers

/-- Nothing else is found in the document. -/
theorem get?_of_bookkeepingOnly {field : String} (hfield : field ∉ Field.bookkeeping) :
    (Json.object members).get? field = none :=
  FieldMap.lookupEntries_eq_none_iff.2 fun member hmember heq =>
    hfield (heq ▸ hmembers member hmember)

/-- The document lists no pairs. -/
theorem inlinePairs_of_bookkeepingOnly : inlinePairs (.object members) = [] := by
  rw [inlinePairs, get?_of_bookkeepingOnly hmembers (by decide)]

/-- The only element with values in the document is the one that takes the address. -/
theorem takesAddress_of_mem_storedScalars {e : Element} (hsystem : e.source ≠ .system)
    {value : String} (hvalue : value ∈ storedScalars (.object members) e.indexedField) :
    e.TakesAddress := by
  by_cases hfield : e.indexedField ∈ Field.bookkeeping
  · exact (Element.indexedField_mem_wellKnown_iff hsystem).1 (List.mem_append_left _ hfield)
  · rw [storedScalars, get?_of_bookkeepingOnly hmembers hfield] at hvalue
    cases hvalue

/-- So every pair that the document holds is one of that element. -/
theorem takesAddress_of_mem_indexedPairs {list : List Element} {pair : ItemElement}
    (hpair : pair ∈ indexedPairs (.object members) list) :
    ∃ e ∈ list, e.TakesAddress ∧ e.name = pair.name := by
  obtain ⟨e, he, hsystem, hname, hvalue⟩ := mem_indexedPairs.1 hpair
  exact ⟨e, he, takesAddress_of_mem_storedScalars hmembers hsystem hvalue, hname⟩

end

/-- A field that holds one scalar stores that scalar. -/
theorem storedScalars_of_scalarAt? {source : Json} {field text : String}
    (h : scalarAt? source field = some text) : storedScalars source field = [text] := by
  obtain ⟨raw, hraw, htext⟩ := Option.bind_eq_some_iff.1 h
  rw [storedScalars, hraw]
  cases raw with
  | array items => cases htext
  | _ => exact congrArg Option.toList htext

/-- In a registry with that element the document holds one pair, its address. -/
theorem indexedPairs_of_takesAddress {members : List (String × Json)}
    (hmembers : BookkeepingOnly members) {list : List Element}
    (distinct : (list.map (·.name)).Nodup) (htake : ∃ e ∈ list, e.TakesAddress) {address : String}
    (haddress : scalarAt? (.object members) Field.sourceUri = some address) :
    indexedPairs (.object members) list = [⟨"uri", address⟩] := by
  obtain ⟨e, he, htake⟩ := htake
  -- all pairs have the name of the element, so they are the values in its field
  have hkept : (indexedPairs (.object members) list).filter (fun pair => pair.name = e.name)
      = indexedPairs (.object members) list := by
    refine List.filter_eq_self.2 fun pair hpair => ?_
    obtain ⟨other, -, hother, hname⟩ := takesAddress_of_mem_indexedPairs hmembers hpair
    simp [← hname, hother.2, htake.2]
  rw [← hkept, filter_indexedPairs_of_mem _ htake.source_ne distinct he, htake.indexedField_eq,
    storedScalars_of_scalarAt? haddress, htake.2]
  rfl

/-- **What becomes of documents that hold bookkeeping only.** Take any list of elements that makes a
registry. Of its elements that are no system fields none is indexed in a field with a fixed name but
the one that takes the address. A document of bookkeeping fields is refused as invalid or makes an
item; it makes an item exactly when the registry has that element and the document has an identity
and an address, and the only value of the item is then the address. -/
theorem ofSource_bookkeeping {list : List Element} {registry : Registry}
    (hlist : Registry.ofList list = .ok registry) :
    (∀ e ∈ list, e.source ≠ .system → (e.indexedField ∈ Field.wellKnown ↔ e.TakesAddress)) ∧
    ∀ members, BookkeepingOnly members →
      let source := Json.object members
      (∀ error, ofSource source registry = .error error →
        ∃ reason, error = .invalidDocument reason) ∧
      ((∃ item, ofSource source registry = .ok item) ↔
        (∃ e ∈ list, e.TakesAddress) ∧
        (∃ text, scalarAt? source Field.indexId = some text ∧ Text.isBlank text = false) ∧
        ∃ text, scalarAt? source Field.sourceUri = some text ∧ Text.isBlank text = false) ∧
      ∀ item, ofSource source registry = .ok item →
        item.elements = [⟨"uri", item.sourceUri⟩] := by
  refine ⟨fun e _ hsystem => Element.indexedField_mem_wellKnown_iff hsystem, ?_⟩
  intro members hmembers source
  have helements : registry.elements = list := Registry.elements_of_ofList hlist
  have distinct : (list.map (·.name)).Nodup := helements ▸ registry.distinct
  have hok := @ofSource_eq_ok_iff source registry
  rw [helements, inlinePairs_of_bookkeepingOnly hmembers, List.nil_append] at hok
  have htakes : ∀ item, ofSource source registry = .ok item → ∃ e ∈ list, e.TakesAddress := by
    intro item hitem
    obtain ⟨-, -, hpairs, -⟩ := hok.1 hitem
    obtain ⟨pair, hpair⟩ := List.exists_mem_of_ne_nil _ hpairs
    obtain ⟨e, he, htake, -⟩ := takesAddress_of_mem_indexedPairs hmembers hpair
    exact ⟨e, he, htake⟩
  refine ⟨?_, ⟨?_, ?_⟩, ?_⟩
  · intro error herror
    obtain ⟨fault, rfl⟩ := ofSource_error herror
    exact ⟨fault.message, rfl⟩
  · rintro ⟨item, hitem⟩
    obtain ⟨hid, haddress, -, -⟩ := hok.1 hitem
    exact ⟨htakes item hitem, ⟨_, hid⟩, ⟨_, haddress⟩⟩
  · rintro ⟨htake, ⟨indexId, hid⟩, ⟨address, haddress⟩⟩
    have hpairs := indexedPairs_of_takesAddress hmembers distinct htake haddress.1
    refine ⟨⟨indexId, address, _, _, _, _⟩, hok.2 ⟨hid, haddress, ?_, rfl⟩⟩
    rw [hpairs]
    exact List.cons_ne_nil _ _
  · intro item hitem
    obtain ⟨-, ⟨haddress, -⟩, -, hmade⟩ := hok.1 hitem
    have hpairs := indexedPairs_of_takesAddress hmembers distinct (htakes item hitem) haddress
    rw [hmade, hpairs]
    rfl

/-- A catalog that keeps a harvested element `uri` makes an item of an identity and an address. -/
theorem item_of_address :
    let list := [Element.plain "uri" .harvested]
    let members : List (String × Json) :=
      [(Field.indexId, .string "a"), (Field.sourceUri, .string "http://x")]
    ∃ registry item, Registry.ofList list = .ok registry ∧ BookkeepingOnly members ∧
      ofSource (.object members) registry = .ok item ∧
      item.elements = [⟨"uri", "http://x"⟩] := by
  intro list members
  have hlist : Registry.ofList list = .ok ⟨list, by decide⟩ := rfl
  have hmembers : BookkeepingOnly members := by
    unfold BookkeepingOnly
    decide
  obtain ⟨-, hok, hitem⟩ := (ofSource_bookkeeping hlist).2 members hmembers
  obtain ⟨item, hmade⟩ := hok.2 ⟨⟨_, List.mem_cons_self, rfl, rfl⟩,
    ⟨"a", rfl, by decide⟩, ⟨"http://x", rfl, by decide⟩⟩
  have haddress : item.sourceUri = "http://x" := by
    obtain ⟨-, ⟨haddress, -⟩, -, -⟩ := ofSource_eq_ok_iff.1 hmade
    exact Option.some.inj haddress.symm
  refine ⟨_, item, hlist, hmembers, hmade, ?_⟩
  rw [hitem item hmade, haddress]

end Item

end HarvestSearch
