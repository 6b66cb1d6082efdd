/-
When a catalog file is refused, and what for.

A file is checked twice. Loading it (`gleaner_config::validate_catalog`) looks at the names of its
elements and the keys of its services; making a catalog of it
(`gleaner_domain::CatalogSnapshot::from_catalog`) looks at the words of its elements, at their names
once more, and at its boosts. Both checks stop at the first thing amiss, so what they report depends
on the order in which they look.

`CatalogFile.Sound` says what a file has to be like to become a catalog, and `CatalogFile.Refused`
which error it is refused with otherwise, in terms of the entries alone. Elements and boosts are
read in the same way: every entry is judged by itself, in order (`Judges`), and then the list is closed
unless a key is repeated (`ClosesDistinct`). The two checks of a file look for repeated names alike
(`firstNameFault_eq_map_firstRepeatAfter`), and that is why they agree.
-/
import HarvestSearch.Catalog
import HarvestSearch.Proofs.EntriesInOrder

set_option autoImplicit false

namespace HarvestSearch

/-! ## Elements -/

/-- The words of an entry all mean something. -/
structure ElementEntry.Known (entry : ElementEntry) : Prop where
  dataType : entry.dataType ∈ ["string", "date"]
  source : entry.source ∈ ["local", "source", "system"]
  facetOrder : entry.facetOrder ∈ ["count", "alphanumeric"]

instance (entry : ElementEntry) : Decidable entry.Known :=
  decidable_of_iff (entry.dataType ∈ ["string", "date"] ∧
      entry.source ∈ ["local", "source", "system"] ∧ entry.facetOrder ∈ ["count", "alphanumeric"])
    ⟨fun ⟨hdataType, hsource, horder⟩ => ⟨hdataType, hsource, horder⟩,
      fun h => ⟨h.dataType, h.source, h.facetOrder⟩⟩

/-- What is said of an entry with a word that means nothing: of several such words the first counts. -/
inductive ElementEntry.Lacks (entry : ElementEntry) : ElementFault → Prop where
  | dataType (h : entry.dataType ∉ ["string", "date"]) :
    Lacks entry (.unknownDataType entry.dataType entry.name)
  | source (hdataType : entry.dataType ∈ ["string", "date"])
      (h : entry.source ∉ ["local", "source", "system"]) :
    Lacks entry (.unknownSource entry.source entry.name)
  | facetOrder (hdataType : entry.dataType ∈ ["string", "date"])
      (hsource : entry.source ∈ ["local", "source", "system"])
      (h : entry.facetOrder ∉ ["count", "alphanumeric"]) :
    Lacks entry (.unknownFacetOrder entry.facetOrder entry.name)

/-- There is one thing to say of an entry at most. -/
theorem ElementEntry.Lacks.unique {entry : ElementEntry} {fault other : ElementFault}
    (h : entry.Lacks fault) (hother : entry.Lacks other) : fault = other := by
  cases h <;> cases hother <;> first | rfl | contradiction

/-- There is nothing to say of an entry whose words all mean something. -/
theorem ElementEntry.Lacks.not_known {entry : ElementEntry} {fault : ElementFault}
    (h : entry.Lacks fault) : ¬entry.Known := by
  intro hknown
  cases h with
  | dataType h => exact h hknown.dataType
  | source _ h => exact h hknown.source
  | facetOrder _ _ h => exact h hknown.facetOrder

theorem DataType.isSome_lookup_iff {word : String} :
    (DataType.names.lookup word).isSome = true ↔ word ∈ ["string", "date"] := by
  simp [DataType.names]

theorem ElementSource.isSome_lookup_iff {word : String} :
    (ElementSource.names.lookup word).isSome = true ↔ word ∈ ["local", "source", "system"] := by
  simp [ElementSource.names]

theorem FacetOrder.isSome_ofCatalogWord?_iff {word : String} :
    (FacetOrder.ofCatalogWord? word).isSome = true ↔ word ∈ ["count", "alphanumeric"] := by
  unfold FacetOrder.ofCatalogWord?
  split
  · simp
  · simp
  · next hcount halphanumeric =>
    refine iff_of_false Bool.false_ne_true fun hmem => ?_
    rcases List.mem_cons.1 hmem with h | hmem
    · exact hcount h
    · exact halphanumeric (List.mem_singleton.1 hmem)

namespace Element

/-- An entry has a word that means nothing, or it is an element of the same name. -/
theorem ofEntry_cases (entry : ElementEntry) :
    (∃ fault, entry.Lacks fault ∧ ofEntry entry = .error fault) ∨
    (entry.Known ∧ ∃ e, ofEntry entry = .ok e ∧ e.name = entry.name) := by
  unfold ofEntry
  cases htype : DataType.names.lookup entry.dataType with
  | none =>
    have hword : entry.dataType ∉ ["string", "date"] :=
      mt DataType.isSome_lookup_iff.2 (by simp [htype])
    exact .inl ⟨_, .dataType hword, rfl⟩
  | some dataType =>
    have hdataType : entry.dataType ∈ ["string", "date"] :=
      DataType.isSome_lookup_iff.1 (by simp [htype])
    cases hsource : ElementSource.names.lookup entry.source with
    | none =>
      have hword : entry.source ∉ ["local", "source", "system"] :=
        mt ElementSource.isSome_lookup_iff.2 (by simp [hsource])
      exact .inl ⟨_, .source hdataType hword, rfl⟩
    | some source =>
      have hsourceWord : entry.source ∈ ["local", "source", "system"] :=
        ElementSource.isSome_lookup_iff.1 (by simp [hsource])
      cases horder : FacetOrder.ofCatalogWord? entry.facetOrder with
      | none =>
        have hword : entry.facetOrder ∉ ["count", "alphanumeric"] :=
          mt FacetOrder.isSome_ofCatalogWord?_iff.2 (by simp [horder])
        exact .inl ⟨_, .facetOrder hdataType hsourceWord hword, rfl⟩
      | some facetOrder =>
        have hfacetOrder : entry.facetOrder ∈ ["count", "alphanumeric"] :=
          FacetOrder.isSome_ofCatalogWord?_iff.1 (by simp [horder])
        exact .inr ⟨⟨hdataType, hsourceWord, hfacetOrder⟩, _, rfl, rfl⟩

theorem judges_ofEntry :
    Judges ofEntry (·.name) (·.name) ElementEntry.Known ElementEntry.Lacks where
  made := ofEntry_cases
  unique := ElementEntry.Lacks.unique
  not_good := ElementEntry.Lacks.not_known

end Element

namespace Registry

theorem closesDistinct_ofList : ClosesDistinct ofList (·.name) .duplicateElement where
  ok_iff {elements} := by
    rw [← firstRepeat_eq_none_iff, ofList]
    split
    · next name hname => simp [hname]
    · next hname => simp [hname]
  error_iff {elements e} := by
    simp only [← firstRepeat_eq_some_iff, ofList]
    split
    · next name hname => simp [hname]
    · next hname => simp [hname]

end Registry

/-! ## Boosts -/

/-- A boost that may stand in a table. -/
structure BoostEntry.Valid (entry : BoostEntry) : Prop where
  field : Text.isBlank entry.field = false
  value : Text.isBlank entry.value = false
  not_zero : entry.strength ≠ 0
  in_range : -10 ≤ entry.strength ∧ entry.strength ≤ 10

instance (entry : BoostEntry) : Decidable entry.Valid :=
  decidable_of_iff (Text.isBlank entry.field = false ∧ Text.isBlank entry.value = false ∧
      entry.strength ≠ 0 ∧ -10 ≤ entry.strength ∧ entry.strength ≤ 10)
    ⟨fun ⟨hfield, hvalue, hzero, hrange⟩ => ⟨hfield, hvalue, hzero, hrange⟩,
      fun h => ⟨h.field, h.value, h.not_zero, h.in_range⟩⟩

/-- What is said of a boost that is not valid: of several reasons the first counts. -/
inductive BoostEntry.Lacks (entry : BoostEntry) : BoostFault → Prop where
  | field (h : Text.isBlank entry.field = true) : Lacks entry .blankField
  | value (hfield : Text.isBlank entry.field = false) (h : Text.isBlank entry.value = true) :
    Lacks entry .blankValue
  | zero (hfield : Text.isBlank entry.field = false) (hvalue : Text.isBlank entry.value = false)
      (h : entry.strength = 0) : Lacks entry .zeroStrength
  | range (hfield : Text.isBlank entry.field = false) (hvalue : Text.isBlank entry.value = false)
      (hzero : entry.strength ≠ 0) (h : ¬(-10 ≤ entry.strength ∧ entry.strength ≤ 10)) :
    Lacks entry .strengthOutOfRange

/-- There is one thing to say of a boost at most. -/
theorem BoostEntry.Lacks.unique {entry : BoostEntry} {fault other : BoostFault}
    (h : entry.Lacks fault) (hother : entry.Lacks other) : fault = other := by
  cases h <;> cases hother <;> first | rfl | contradiction | simp_all

/-- There is nothing to say of a valid boost. -/
theorem BoostEntry.Lacks.not_valid {entry : BoostEntry} {fault : BoostFault}
    (h : entry.Lacks fault) : ¬entry.Valid := by
  intro hvalid
  cases h with
  | field h => exact absurd (hvalid.field.symm.trans h) Bool.false_ne_true
  | value _ h => exact absurd (hvalid.value.symm.trans h) Bool.false_ne_true
  | zero _ _ h => exact hvalid.not_zero h
  | range _ _ _ h => exact h hvalid.in_range

namespace Boost

/-- An entry has a reason not to be a boost, or it is a boost for the same pair. -/
theorem ofEntry_cases (entry : BoostEntry) :
    (∃ fault, entry.Lacks fault ∧ ofEntry entry = .error fault) ∨
    (entry.Valid ∧ ∃ b, ofEntry entry = .ok b ∧ b.target = (entry.field, entry.value)) := by
  by_cases hfield : Text.isBlank entry.field = false
  · by_cases hvalue : Text.isBlank entry.value = false
    · by_cases hzero : entry.strength = 0
      · refine .inl ⟨_, .zero hfield hvalue hzero, ?_⟩
        rw [ofEntry, dif_pos hfield, dif_pos hvalue, dif_pos hzero]
      · by_cases hrange : -10 ≤ entry.strength ∧ entry.strength ≤ 10
        · refine .inr ⟨⟨hfield, hvalue, hzero, hrange⟩,
            ⟨entry.field, entry.value, entry.strength, hfield, hvalue, hzero, hrange⟩, ?_, rfl⟩
          rw [ofEntry, dif_pos hfield, dif_pos hvalue, dif_neg hzero]
          exact dif_pos hrange
        · refine .inl ⟨_, .range hfield hvalue hzero hrange, ?_⟩
          rw [ofEntry, dif_pos hfield, dif_pos hvalue, dif_neg hzero]
          exact dif_neg hrange
    · refine .inl ⟨_, .value hfield (Bool.not_eq_false _ ▸ hvalue), ?_⟩
      rw [ofEntry, dif_pos hfield, dif_neg hvalue]
  · refine .inl ⟨_, .field (Bool.not_eq_false _ ▸ hfield), ?_⟩
    rw [ofEntry, dif_neg hfield]

theorem judges_ofEntry :
    Judges ofEntry (fun entry => (entry.field, entry.value)) target BoostEntry.Valid
      BoostEntry.Lacks where
  made := ofEntry_cases
  unique := BoostEntry.Lacks.unique
  not_good := BoostEntry.Lacks.not_valid

end Boost

namespace BoostTable

theorem closesDistinct_ofList :
    ClosesDistinct ofList Boost.target fun (field, value) => .duplicateBoost field value where
  ok_iff {boosts} := by
    rw [← firstRepeat_eq_none_iff, ofList]
    split
    · next field value htarget => simp [htarget]
    · next htarget => simp [htarget]
  error_iff {boosts e} := by
    simp only [← firstRepeat_eq_some_iff, ofList]
    split
    · next field value htarget => simp [htarget]
    · next htarget => simp [htarget]

end BoostTable

/-! ## Names -/

/-- Nothing is wrong with names that are there and are distinct. -/
theorem firstNameFault_eq_none_iff {seen names : List String} :
    firstNameFault seen names = none ↔
      (∀ name ∈ names, Text.isBlank name = false) ∧ firstRepeatAfter seen names = none := by
  induction names generalizing seen with
  | nil => simp [firstNameFault, firstRepeatAfter]
  | cons name names ih =>
    rw [firstNameFault, firstRepeatAfter, List.forall_mem_cons]
    by_cases hblank : Text.isBlank name = true
    · simp [hblank]
    · by_cases hseen : name ∈ seen
      · simp [hblank, hseen]
      · simp [hblank, hseen, ih]

/-- Among names that are there, what is wrong is the earliest repetition. -/
theorem firstNameFault_eq_map_firstRepeatAfter {seen names : List String}
    (hthere : ∀ name ∈ names, Text.isBlank name = false) :
    firstNameFault seen names = (firstRepeatAfter seen names).map .repeated := by
  induction names generalizing seen with
  | nil => rfl
  | cons name names ih =>
    obtain ⟨hname, hthere⟩ := List.forall_mem_cons.1 hthere
    rw [firstNameFault, firstRepeatAfter, if_neg (by simp [hname]), ih hthere]
    split
    · rfl
    · rfl

namespace CatalogFile

variable {file : CatalogFile}

theorem fault?_eq_none_iff : file.fault? = none ↔
    firstNameFault [] (file.elements.map (·.name)) = none ∧
    firstNameFault [] (file.services.map (·.key)) = none := by
  rw [fault?]
  split
  · next fault hfault => simp [hfault]
  · next hfault => simp [hfault]

theorem fault?_eq_elementName_iff {fault : NameFault} :
    file.fault? = some (.elementName fault) ↔
      firstNameFault [] (file.elements.map (·.name)) = some fault := by
  rw [fault?]
  split
  · next other hother => simp [hother]
  · next hnone => simp [hnone]

/-- An accepted file repeats no element name. -/
theorem nodup_names_of_fault? (h : file.fault? = none) : (file.elements.map (·.name)).Nodup :=
  firstRepeat_eq_none_iff.1 (firstNameFault_eq_none_iff.1 (fault?_eq_none_iff.1 h).1).2

/-- An accepted file repeats no service key. -/
theorem nodup_keys_of_fault? (h : file.fault? = none) : (file.services.map (·.key)).Nodup :=
  firstRepeat_eq_none_iff.1 (firstNameFault_eq_none_iff.1 (fault?_eq_none_iff.1 h).2).2

end CatalogFile

/-! ## Services -/

namespace ServiceDirectory

/-- The directory shows every one of the services under its key and knows no other key. -/
structure Lists (d : ServiceDirectory) (services : List ContentService) : Prop where
  found : ∀ s ∈ services, d.get? s.key = some s ∧ d.displayName s.key = s.name
  unknown : ∀ key ∉ services.map (·.key),
    d.get? key = none ∧ d.displayName key = "Unknown Service"

/-- No service is lost from a list with distinct keys. -/
theorem lists_ofList {services : List ContentService} (distinct : (services.map (·.key)).Nodup) :
    (ofList services).Lists services where
  found s hs := by
    have hkeys : ((services.map fun s => (s.key, s)).map (·.1)).Nodup := by
      rwa [List.map_map]
    have hget : (ofList services).get? s.key = some s :=
      FieldMap.mem_entries_iff.1 <|
        (FieldMap.mem_entries_ofList hkeys).2 (List.mem_map_of_mem hs)
    exact ⟨hget, by rw [displayName, hget]⟩
  unknown key hkey := by
    have hget : (ofList services).get? key = none := by
      rw [get?, ofList, FieldMap.get?_ofList, FieldMap.lookupEntries_reverse (by rwa [List.map_map]),
        FieldMap.lookupEntries_eq_none_iff]
      intro e he heq
      obtain ⟨s, hs, rfl⟩ := List.mem_map.1 he
      exact hkey (heq ▸ List.mem_map_of_mem hs)
    exact ⟨hget, by rw [displayName, hget]; rfl⟩

end ServiceDirectory

/-! ## Files -/

namespace CatalogFile

/-- What a file has to be like to become a catalog. -/
structure Sound (file : CatalogFile) : Prop where
  elements : ∀ entry ∈ file.elements, entry.Known
  names : (file.elements.map (·.name)).Nodup
  boosts : ∀ entry ∈ file.boosts, entry.Valid
  targets : (file.boosts.map fun entry => (entry.field, entry.value)).Nodup

/-- What a file is refused with: the first element with a word that means nothing, then the earliest
repeated name, then the first boost that is not valid, and then the earliest repeated pair. -/
inductive Refused (file : CatalogFile) : DomainError → Prop where
  | element {fault : ElementFault}
      (h : FirstLacking ElementEntry.Known ElementEntry.Lacks file.elements fault) :
    Refused file (.invalidElement fault.message)
  | name (helements : ∀ entry ∈ file.elements, entry.Known) {name : String}
      (h : EarliestRepeat (file.elements.map (·.name)) name) :
    Refused file (.duplicateElement name)
  | boost (helements : ∀ entry ∈ file.elements, entry.Known)
      (hnames : (file.elements.map (·.name)).Nodup) {fault : BoostFault}
      (h : FirstLacking BoostEntry.Valid BoostEntry.Lacks file.boosts fault) :
    Refused file (.invalidBoost fault.message)
  | target (helements : ∀ entry ∈ file.elements, entry.Known)
      (hnames : (file.elements.map (·.name)).Nodup)
      (hboosts : ∀ entry ∈ file.boosts, entry.Valid) {field value : String}
      (h : EarliestRepeat (file.boosts.map fun entry => (entry.field, entry.value)) (field, value)) :
    Refused file (.duplicateBoost field value)

end CatalogFile

namespace Registry

theorem ofEntries_ok_iff {entries : List ElementEntry} : (∃ r, ofEntries entries = .ok r) ↔
    (∀ entry ∈ entries, entry.Known) ∧ (entries.map (·.name)).Nodup :=
  Element.judges_ofEntry.closed_ok_iff closesDistinct_ofList

theorem ofEntries_error_iff {entries : List ElementEntry} {error : DomainError} :
    ofEntries entries = .error error ↔
      (∃ fault, FirstLacking ElementEntry.Known ElementEntry.Lacks entries fault ∧
        .invalidElement fault.message = error) ∨
      (∀ entry ∈ entries, entry.Known) ∧
        ∃ name, EarliestRepeat (entries.map (·.name)) name ∧ .duplicateElement name = error :=
  Element.judges_ofEntry.closed_error_iff closesDistinct_ofList

end Registry

namespace BoostTable

theorem ofEntries_ok_iff {entries : List BoostEntry} : (∃ t, ofEntries entries = .ok t) ↔
    (∀ entry ∈ entries, entry.Valid) ∧
      (entries.map fun entry => (entry.field, entry.value)).Nodup :=
  Boost.judges_ofEntry.closed_ok_iff closesDistinct_ofList

theorem ofEntries_error_iff {entries : List BoostEntry} {error : DomainError} :
    ofEntries entries = .error error ↔
      (∃ fault, FirstLacking BoostEntry.Valid BoostEntry.Lacks entries fault ∧
        .invalidBoost fault.message = error) ∨
      (∀ entry ∈ entries, entry.Valid) ∧
        ∃ pair, EarliestRepeat (entries.map fun entry => (entry.field, entry.value)) pair ∧
          .duplicateBoost pair.1 pair.2 = error :=
  Boost.judges_ofEntry.closed_error_iff closesDistinct_ofList

end BoostTable

namespace Catalog

variable {file : CatalogFile}

/-- A catalog is made of a registry and a table of boosts, one after the other. -/
theorem ofFile_eq (file : CatalogFile) : ofFile file = (Registry.ofEntries file.elements >>=
    fun registry => BoostTable.ofEntries file.boosts >>=
    fun boosts => .ok ⟨registry, boosts, .ofList file.services⟩) := rfl

theorem ofFile_ok_iff {catalog : Catalog} : ofFile file = .ok catalog ↔
    Registry.ofEntries file.elements = .ok catalog.registry ∧
    BoostTable.ofEntries file.boosts = .ok catalog.boosts ∧
    catalog.services = .ofList file.services := by
  rw [ofFile_eq, Except.bind_eq_ok_iff]
  constructor
  · rintro ⟨registry, hregistry, h⟩
    obtain ⟨boosts, hboosts, h⟩ := Except.bind_eq_ok_iff.1 h
    cases h
    exact ⟨hregistry, hboosts, rfl⟩
  · rintro ⟨hregistry, hboosts, hservices⟩
    refine ⟨_, hregistry, Except.bind_eq_ok_iff.2 ⟨_, hboosts, ?_⟩⟩
    rw [← hservices]

theorem exists_ofFile_eq_ok_iff : (∃ catalog, ofFile file = .ok catalog) ↔ file.Sound := by
  constructor
  · rintro ⟨catalog, h⟩
    obtain ⟨hregistry, hboosts, -⟩ := ofFile_ok_iff.1 h
    obtain ⟨helements, hnames⟩ := Registry.ofEntries_ok_iff.1 ⟨_, hregistry⟩
    obtain ⟨hvalid, htargets⟩ := BoostTable.ofEntries_ok_iff.1 ⟨_, hboosts⟩
    exact ⟨helements, hnames, hvalid, htargets⟩
  · intro h
    obtain ⟨registry, hregistry⟩ := Registry.ofEntries_ok_iff.2 ⟨h.elements, h.names⟩
    obtain ⟨boosts, hboosts⟩ := BoostTable.ofEntries_ok_iff.2 ⟨h.boosts, h.targets⟩
    exact ⟨⟨registry, boosts, .ofList file.services⟩, ofFile_ok_iff.2 ⟨hregistry, hboosts, rfl⟩⟩

theorem ofFile_error_iff {error : DomainError} :
    ofFile file = .error error ↔ file.Refused error := by
  have hsteps : ofFile file = .error error ↔
      Registry.ofEntries file.elements = .error error ∨
      ∃ registry, Registry.ofEntries file.elements = .ok registry ∧
        BoostTable.ofEntries file.boosts = .error error := by
    rw [ofFile_eq, Except.bind_eq_error_iff]
    refine or_congr_right (exists_congr fun registry => and_congr_right fun _ => ?_)
    simp [Except.bind_eq_error_iff]
  rw [hsteps, Registry.ofEntries_error_iff, exists_and_right, Registry.ofEntries_ok_iff,
    BoostTable.ofEntries_error_iff]
  constructor
  · rintro ((⟨fault, h, rfl⟩ | ⟨helements, name, h, rfl⟩) |
      ⟨⟨helements, hnames⟩, ⟨fault, h, rfl⟩ | ⟨hboosts, pair, h, rfl⟩⟩)
    · exact .element h
    · exact .name helements h
    · exact .boost helements hnames h
    · exact .target helements hnames hboosts h
  · intro h
    cases h with
    | element h => exact .inl (.inl ⟨_, h, rfl⟩)
    | name helements h => exact .inl (.inr ⟨helements, _, h, rfl⟩)
    | boost helements hnames h => exact .inr ⟨⟨helements, hnames⟩, .inl ⟨_, h, rfl⟩⟩
    | target helements hnames hboosts h =>
      exact .inr ⟨⟨helements, hnames⟩, .inr ⟨hboosts, _, h, rfl⟩⟩

end Catalog

/-- **The two checks of a file agree.** A catalog is made of a file exactly if the file is sound, and
what a file is refused with is the first thing amiss. A file that loads is never refused for a
repeated name. If no name is blank, loading tells of a repeated name exactly if it is what making a
registry of elements of these names tells of. The directory of a file that loads shows its services
and no others, and it is the one that a catalog of the file has. -/
theorem CatalogFile.checks_agree (file : CatalogFile) :
    ((∃ catalog, Catalog.ofFile file = .ok catalog) ↔ file.Sound) ∧
    (∀ error, Catalog.ofFile file = .error error ↔ file.Refused error) ∧
    (file.fault? = none → ∀ name, Catalog.ofFile file ≠ .error (.duplicateElement name)) ∧
    ((∀ entry ∈ file.elements, Text.isBlank entry.name = false) →
      ∀ elements : List Element, elements.map (·.name) = file.elements.map (·.name) →
      ∀ name, file.fault? = some (.elementName (.repeated name)) ↔
        Registry.ofList elements = .error (.duplicateElement name)) ∧
    (file.fault? = none → (ServiceDirectory.ofList file.services).Lists file.services) ∧
    ∀ catalog, Catalog.ofFile file = .ok catalog →
      catalog.services = ServiceDirectory.ofList file.services := by
  refine ⟨Catalog.exists_ofFile_eq_ok_iff, fun error => Catalog.ofFile_error_iff, ?_, ?_,
    fun h => ServiceDirectory.lists_ofList (nodup_keys_of_fault? h),
    fun catalog h => (Catalog.ofFile_ok_iff.1 h).2.2⟩
  · intro hfault name h
    cases Catalog.ofFile_error_iff.1 h with
    | name _ hrepeat => exact hrepeat.not_nodup (nodup_names_of_fault? hfault)
  · intro hthere elements hnames name
    have hrefused : Registry.ofList elements = .error (.duplicateElement name) ↔
        firstRepeat (file.elements.map (·.name)) = some name := by
      simp [Registry.closesDistinct_ofList.error_iff, hnames, firstRepeat_eq_some_iff]
    rw [hrefused, fault?_eq_elementName_iff, firstNameFault_eq_map_firstRepeatAfter, firstRepeat]
    · simp
    · simpa using hthere

/-- A file that loads and becomes a catalog with two services, and one that both checks refuse for a
repeated name, though one of its boosts does nothing. -/
theorem CatalogFile.loaded_and_refused :
    let element (name : String) : ElementEntry :=
      ⟨name, none, "string", "local", true, false, false, "count", 0⟩
    let sound : CatalogFile := ⟨[element "title", element "creator"], [⟨"title", "Map", 5⟩],
      [⟨"a", "Archive", none⟩, ⟨"b", "Bookshop", none⟩]⟩
    let repeating : CatalogFile := ⟨[element "title", element "creator", element "title"],
      [⟨"title", "Map", 0⟩], []⟩
    (sound.fault? = none ∧ ∃ catalog, Catalog.ofFile sound = .ok catalog ∧
      catalog.services.displayName "b" = "Bookshop" ∧
      catalog.services.displayName "c" = "Unknown Service") ∧
    repeating.fault? = some (.elementName (.repeated "title")) ∧
    Catalog.ofFile repeating = .error (.duplicateElement "title") := by
  intro element sound repeating
  have hsound : sound.Sound := ⟨by decide, by decide, by decide, by decide⟩
  have hloads : sound.fault? = none := by decide
  obtain ⟨hmade, -, -, -, hlists, hservices⟩ := CatalogFile.checks_agree sound
  obtain ⟨catalog, hcatalog⟩ := hmade.2 hsound
  refine ⟨⟨hloads, catalog, hcatalog, ?_, ?_⟩, ?_⟩
  · rw [hservices catalog hcatalog]
    exact ((hlists hloads).found ⟨"b", "Bookshop", none⟩ (by decide)).2
  · rw [hservices catalog hcatalog]
    exact ((hlists hloads).unknown "c" (by decide)).2
  · obtain ⟨-, hrefused, -, hnames, -⟩ := CatalogFile.checks_agree repeating
    refine ⟨?_, (hrefused _).2 ?_⟩
    · refine (hnames (by decide) (repeating.elements.map fun e => .plain e.name .localVocabulary)
        rfl "title").2 rfl
    · exact .name (by decide) ⟨["title", "creator"], [], rfl, by decide, by decide⟩

end HarvestSearch
