/-
What can be relied on once the files are loaded.

A file is tidied before it is checked (`gleaner_config::load`, `gleaner_config::load_catalog`), so
the checks see what everything after them sees. `Config.IsTidy` and `CatalogFile.IsTidy` say what
tidying is to reach. What comes out of it is tidy, and what is tidy is left alone
(`Config.tidy_eq_self_iff`), so that a second tidying finds nothing to do. The engine drops the
slashes at the end of its address once more, and that is why tidying cannot change where documents
are posted (`Engine.searchUrl_tidy`), whether or not the configuration is accepted.

The names of facets rest on two steps. Loading a catalog file leaves blank labels out and insists on
names, and an element of an entry without a label is labelled with its name. `ElementEntry.Gives` says
what an element has of the entry as it was written, and a facet has its name from there.
-/
import HarvestSearch.Program
import HarvestSearch.Proofs.CatalogChecks
import HarvestSearch.Proofs.RequestedFacets

set_option autoImplicit false

namespace HarvestSearch

/-! ## Configurations -/

namespace Config

/-- The address ends without a slash, and a key that is there is not blank. -/
structure IsTidy (c : Config) : Prop where
  url : c.engine.url.toList.getLast? ≠ some '/'
  apiKey : ∀ key, c.engine.apiKey = some key → Text.isBlank key = false

theorem isTidy_tidy (c : Config) : c.tidy.IsTidy where
  url := Text.getLast?_dropTrailingSlashes c.engine.url
  apiKey _ hkey := (Text.unlessBlank_eq_some_iff.1 hkey).2

/-- Tidying leaves alone what is tidy, and nothing else. -/
theorem tidy_eq_self_iff {c : Config} : c.tidy = c ↔ c.IsTidy := by
  constructor
  · intro h
    exact h ▸ c.isTidy_tidy
  · intro h
    have hurl : Text.dropTrailingSlashes c.engine.url = c.engine.url :=
      Text.dropTrailingSlashes_eq_self_iff.2 h.url
    have hkey : Text.unlessBlank c.engine.apiKey = c.engine.apiKey :=
      Text.unlessBlank_eq_self_iff.2 h.apiKey
    rw [tidy, hurl, hkey]

end Config

namespace Engine

theorem searchUrl_append_slashes (base index : String) (n : Nat) :
    searchUrl (base ++ Text.slashes n) index = searchUrl base index := by
  rw [searchUrl, searchUrl, Text.dropTrailingSlashes_append_slashes]

theorem searchUrl_tidy (c : Config) : searchUrl c.tidy.engine.url c.tidy.engine.index
    = searchUrl c.engine.url c.engine.index := by
  show searchUrl (Text.dropTrailingSlashes c.engine.url) c.engine.index = _
  rw [searchUrl, searchUrl, Text.dropTrailingSlashes_dropTrailingSlashes]

theorem url_of_ofConfig {c : EngineConfig} {engine : Engine} (h : ofConfig c = .ok engine) :
    engine.url = searchUrl c.url c.index := by
  obtain ⟨headers, -, h⟩ := Except.bind_eq_ok_iff.1 h
  cases h
  rfl

end Engine

/-! ## Catalog files -/

namespace CatalogFile

/-- Labels and addresses that are there are not blank. -/
structure IsTidy (file : CatalogFile) : Prop where
  label : ∀ entry ∈ file.elements, ∀ label, entry.label = some label → Text.isBlank label = false
  uri : ∀ service ∈ file.services, ∀ uri, service.uri = some uri → Text.isBlank uri = false

theorem isTidy_tidy (file : CatalogFile) : file.tidy.IsTidy where
  label entry hentry label hlabel := by
    obtain ⟨raw, -, rfl⟩ := List.mem_map.1 hentry
    exact (Text.unlessBlank_eq_some_iff.1 hlabel).2
  uri service hservice uri huri := by
    obtain ⟨raw, -, rfl⟩ := List.mem_map.1 hservice
    exact (Text.unlessBlank_eq_some_iff.1 huri).2

/-- An accepted file names all its elements. -/
theorem names_of_fault? {file : CatalogFile} (h : file.fault? = none) :
    ∀ entry ∈ file.elements, Text.isBlank entry.name = false := by
  have hnames := (firstNameFault_eq_none_iff.1 (fault?_eq_none_iff.1 h).1).1
  exact fun entry hentry => hnames entry.name (List.mem_map_of_mem hentry)

end CatalogFile

/-- The element has the name of the entry, and its label if that is there and not blank. Otherwise it
is labelled with its name. Neither is blank. -/
structure ElementEntry.Gives (entry : ElementEntry) (e : Element) : Prop where
  name : e.name = entry.name
  own_label : ∀ label, entry.label = some label → Text.isBlank label = false → e.label = label
  no_label : (∀ label, entry.label = some label → Text.isBlank label = true) → e.label = e.name
  name_there : Text.isBlank e.name = false
  label_there : Text.isBlank e.label = false

namespace Element

theorem label_of_ofEntry {entry : ElementEntry} {e : Element} (h : ofEntry entry = .ok e) :
    e.label = entry.label.getD entry.name := by
  unfold ofEntry at h
  split at h
  · split at h
    · split at h
      · cases h
        rfl
      · cases h
    · cases h
  · cases h

/-- What is made of an entry that was tidied first. -/
theorem gives_of_ofEntry {entry : ElementEntry} {e : Element}
    (hname : Text.isBlank entry.name = false)
    (h : ofEntry { entry with label := Text.unlessBlank entry.label } = .ok e) :
    entry.Gives e := by
  have hsame : e.name = entry.name :=
    judges_ofEntry.key_eq (a := { entry with label := Text.unlessBlank entry.label }) h
  have hnamed : Text.isBlank e.name = false := by rwa [hsame]
  have hlabel : e.label = (Text.unlessBlank entry.label).getD entry.name := label_of_ofEntry h
  rcases hkept : Text.unlessBlank entry.label with _ | label
  · rw [hkept, Option.getD_none, ← hsame] at hlabel
    refine ⟨hsame, fun label hthere hblank => ?_, fun _ => hlabel, hnamed, by rwa [hlabel]⟩
    rw [Text.unlessBlank_eq_some_iff.2 ⟨hthere, hblank⟩] at hkept
    cases hkept
  · rw [hkept, Option.getD_some] at hlabel
    obtain ⟨hthere, hblank⟩ := Text.unlessBlank_eq_some_iff.1 hkept
    refine ⟨hsame, fun other hother _ => ?_, fun hall => ?_, hnamed, by rwa [hlabel]⟩
    · rw [hlabel]
      exact Option.some.inj (hthere.symm.trans hother)
    · exact absurd (hblank.symm.trans (hall label hthere)) Bool.false_ne_true

end Element

namespace Catalog

variable {written : CatalogFile} {catalog : Catalog}

/-- The elements of a catalog stand beside the entries of the file as it was written. -/
theorem gives_elements (hfault : written.tidy.fault? = none)
    (h : ofFile written.tidy = .ok catalog) :
    List.Forall₂ ElementEntry.Gives written.elements catalog.registry.elements := by
  obtain ⟨elements, hread, hclosed⟩ := Except.bind_eq_ok_iff.1 (ofFile_ok_iff.1 h).1
  have hpairs := Except.forall₂_of_mapM hread
  rw [← Registry.elements_of_ofList hclosed] at hpairs
  have hnamed := (List.forall₂_and_left _ _).2 ⟨CatalogFile.names_of_fault? hfault, hpairs⟩
  exact (List.forall₂_map_left_iff.1 hnamed).imp fun entry e ⟨hname, hmade⟩ =>
    Element.gives_of_ofEntry hname (Except.mapError_eq_ok_iff.1 hmade)

end Catalog

/-- A facet is named with the label of an element. -/
theorem Facet.exists_label_of_mem_assemble {reply : Json} {registry : Registry}
    {services : ServiceDirectory} {f : Facet} (hf : f ∈ assemble reply registry services) :
    ∃ e ∈ registry.elements, f.name = e.label := by
  obtain ⟨e, he, hread⟩ := List.mem_filterMap.1 hf
  refine ⟨e, (Registry.mem_facetable.1 he).1, ?_⟩
  cases hraws : Reply.buckets? reply e.facetField with
  | none => simp [ofReply?, hraws] at hread
  | some raws =>
    simp only [ofReply?, hraws, Option.bind_eq_bind, Option.bind_some, Option.pure_def,
      Option.some.injEq] at hread
    rw [← hread]

/-! ## Loading -/

namespace Load

variable {path : String} {bytes : Option ByteArray}

section

variable {α φ : Type} {read : Option α} {tidy : α → α} {fault? : α → Option φ}
  {message : φ → String}

/-- What was read from a file, tidied and checked. -/
def accepted (path : String) (read : Option α) (tidy : α → α) (fault? : α → Option φ)
    (message : φ → String) : Except LoadError α := do
  let some a := read | throw (.unparsable path)
  match fault? (tidy a) with
  | some fault => throw (.invalid (message fault))
  | none => pure (tidy a)

theorem accepted_eq_ok_iff {a : α} : accepted path read tidy fault? message = .ok a ↔
    ∃ raw, read = some raw ∧ tidy raw = a ∧ fault? a = none := by
  cases read with
  | none => exact iff_of_false (fun h => by cases h) fun ⟨_, h, _⟩ => by cases h
  | some raw =>
    cases hfault : fault? (tidy raw) with
    | none =>
      simp only [accepted, hfault]
      constructor
      · intro h
        cases h
        exact ⟨raw, rfl, rfl, hfault⟩
      · rintro ⟨_, ⟨⟩, rfl, -⟩
        rfl
    | some fault =>
      simp only [accepted, hfault]
      refine iff_of_false (fun h => by cases h) ?_
      rintro ⟨_, ⟨⟩, rfl, hnone⟩
      cases hfault.symm.trans hnone

end

theorem configOfJson_eq (path : String) (json : Json) : configOfJson path json
    = accepted path (Config.ofJson? json) Config.tidy Config.fault? ConfigFault.message := by
  unfold configOfJson accepted
  cases Config.ofJson? json with
  | none => rfl
  | some raw => cases hfault : raw.tidy.fault? <;> simp only [hfault]

theorem catalogOfJson_eq (path : String) (json : Json) : catalogOfJson path json
    = accepted path (CatalogFile.ofJson? json) CatalogFile.tidy CatalogFile.fault?
        CatalogFault.message := by
  unfold catalogOfJson accepted
  cases CatalogFile.ofJson? json with
  | none => rfl
  | some raw => cases hfault : raw.tidy.fault? <;> simp only [hfault]

/-- A configuration is loaded when the file holds one that is accepted once it is tidied. -/
theorem config_eq_ok_iff {c : Config} : config path bytes = .ok c ↔
    ∃ json raw, document path bytes = .ok json ∧ Config.ofJson? json = some raw ∧
      raw.tidy = c ∧ c.fault? = none := by
  rw [config, Except.bind_eq_ok_iff]
  refine exists_congr fun json => ?_
  rw [configOfJson_eq, accepted_eq_ok_iff, exists_and_left]

/-- And a catalog file likewise. -/
theorem catalogFile_eq_ok_iff {file : CatalogFile} : catalogFile path bytes = .ok file ↔
    ∃ json written, document path bytes = .ok json ∧ CatalogFile.ofJson? json = some written ∧
      written.tidy = file ∧ file.fault? = none := by
  rw [catalogFile, Except.bind_eq_ok_iff]
  refine exists_congr fun json => ?_
  rw [catalogOfJson_eq, accepted_eq_ok_iff, exists_and_left]

/-- **What loading establishes.** A configuration is loaded exactly when the file holds one that is
accepted once it is tidied. It has an address, with no slash at its end, and no blank key; it is
accepted as it stands, and tidying it again changes nothing. Whether or not a configuration is
accepted, tidying does not change where its documents are posted, nor does any number of slashes at
the end of an address. In a loaded catalog file nothing that may be absent is blank. The elements of a
catalog of it have the names of the entries as they were written, and their labels or else the names,
and neither is blank; so every facet that is read from a reply has a name. -/
theorem loaded_files_are_tidy :
    (∀ path bytes c, config path bytes = .ok c ↔
      ∃ json raw, document path bytes = .ok json ∧ Config.ofJson? json = some raw ∧
        raw.tidy = c ∧ c.fault? = none) ∧
    (∀ path bytes c, config path bytes = .ok c →
      Text.isBlank c.engine.url = false ∧ c.engine.url.toList.getLast? ≠ some '/' ∧
      (∀ key, c.engine.apiKey = some key → Text.isBlank key = false) ∧
      c.fault? = none ∧ c.tidy = c) ∧
    (∀ c : Config, Engine.searchUrl c.tidy.engine.url c.tidy.engine.index
        = Engine.searchUrl c.engine.url c.engine.index ∧
      ∀ engine tidied, Engine.ofConfig c.engine = .ok engine →
        Engine.ofConfig c.tidy.engine = .ok tidied →
        ∀ document, (tidied.request document).url = (engine.request document).url) ∧
    (∀ base index n, Engine.searchUrl (base ++ Text.slashes n) index
      = Engine.searchUrl base index) ∧
    ∀ path bytes file, catalogFile path bytes = .ok file → file.IsTidy ∧ file.fault? = none ∧
      ∀ catalog, Catalog.ofFile file = .ok catalog →
        (∃ json written, document path bytes = .ok json ∧ CatalogFile.ofJson? json = some written ∧
          List.Forall₂ ElementEntry.Gives written.elements catalog.registry.elements) ∧
        (∀ reply, ∀ f ∈ Facet.assemble reply catalog.registry catalog.services,
          Text.isBlank f.name = false) ∧
        ∀ r reply decoded, Decoded.ofReply catalog r reply = .ok decoded →
          ∀ f ∈ decoded.facets, Text.isBlank f.name = false := by
  refine ⟨fun path bytes c => config_eq_ok_iff, fun path bytes c h => ?_, fun c => ?_,
    Engine.searchUrl_append_slashes, fun path bytes file h => ?_⟩
  · obtain ⟨json, raw, -, -, rfl, hfault⟩ := config_eq_ok_iff.1 h
    have htidy := raw.isTidy_tidy
    exact ⟨(Config.fault?_eq_none_iff.1 hfault).url, htidy.url, htidy.apiKey, hfault,
      Config.tidy_eq_self_iff.2 htidy⟩
  · refine ⟨Engine.searchUrl_tidy c, fun engine tidied hengine htidied document => ?_⟩
    show tidied.url = engine.url
    rw [Engine.url_of_ofConfig htidied, Engine.url_of_ofConfig hengine, Engine.searchUrl_tidy]
  · obtain ⟨json, written, hjson, hwritten, rfl, hfault⟩ := catalogFile_eq_ok_iff.1 h
    refine ⟨written.isTidy_tidy, hfault, fun catalog hcatalog => ?_⟩
    have hgives := Catalog.gives_elements hfault hcatalog
    have hlabelled : ∀ e ∈ catalog.registry.elements, Text.isBlank e.label = false := by
      have hentries : List.Forall₂ (fun (e : Element) entry => Text.isBlank e.label = false ∧
          entry.Gives e) catalog.registry.elements written.elements :=
        (hgives.imp fun _ _ h => ⟨h.label_there, h⟩).flip
      exact ((List.forall₂_and_left _ _).1 hentries).1
    have hnamed : ∀ reply, ∀ f ∈ Facet.assemble reply catalog.registry catalog.services,
        Text.isBlank f.name = false := by
      intro reply f hf
      obtain ⟨e, he, hname⟩ := Facet.exists_label_of_mem_assemble hf
      rw [hname]
      exact hlabelled e he
    refine ⟨⟨json, written, hjson, hwritten, hgives⟩, hnamed, fun r reply decoded h f hf => ?_⟩
    rw [Decoded.facets_of_ofReply h] at hf
    split at hf
    · exact hnamed reply f hf
    · cases hf

/-- Two slashes too many, a key of white space beyond ASCII, and two elements of which one has a label
of the same kind. Engines made of the configuration as it is written and of the tidied one post to one
address. -/
theorem loaded_with_blank_key_and_label :
    let configText := "service.log_level=\"info\"\n[engine]\nurl=\"http://localhost:9200//\"\n"
      ++ "index=\"gleaner\"\ntimeout_ms=5000\napi_key=\"\\u2003\"\n"
    let catalogText := "[[elements]]\nname=\"title\"\nlabel=\"\\u00a0\"\nfacetable=true\n"
      ++ "[[elements]]\nname=\"creator\"\nlabel=\"Creator\"\nfacetable=true\n"
    let raw : Config := ⟨⟨"info"⟩, ⟨"http://localhost:9200//", "gleaner", "modern", 5000,
      some "\u2003", .empty⟩, .usual⟩
    let reply : Json := .object [("aggregations", .object [
      ("local_title.keyword", .object [("buckets", .array [])])])]
    (∃ c, config "gleaner.toml" (some configText.toUTF8) = .ok c ∧
      c.engine.url = "http://localhost:9200" ∧ c.engine.apiKey = none ∧ c.tidy = c) ∧
    (∃ engine tidied, Engine.ofConfig raw.engine = .ok engine ∧
      Engine.ofConfig raw.tidy.engine = .ok tidied ∧
      (tidied.request .null).url = (engine.request .null).url) ∧
    ∃ file catalog decoded,
      catalogFile "catalog.toml" (some catalogText.toUTF8) = .ok file ∧
      Catalog.ofFile file = .ok catalog ∧
      catalog.registry.elements.map (·.label) = ["title", "Creator"] ∧
      Decoded.ofReply catalog .initial reply = .ok decoded ∧
      ∀ f ∈ decoded.facets, Text.isBlank f.name = false := by
  intro configText catalogText raw reply
  obtain ⟨-, htidy, hengines, -, hnames⟩ := loaded_files_are_tidy
  have hconfig : (config "gleaner.toml" (some configText.toUTF8) >>= fun c =>
      .ok (c.engine.url, c.engine.apiKey)) = .ok ("http://localhost:9200", none) := by
    decide +kernel
  have hcatalog : ((catalogFile "catalog.toml" (some catalogText.toUTF8)).mapError
      LoadError.message >>= fun file => (Catalog.ofFile file).mapError DomainError.message >>=
      fun catalog => .ok (catalog.registry.elements.map (·.label))) = .ok ["title", "Creator"] := by
    decide +kernel
  obtain ⟨c, hc, hengine⟩ := Except.bind_eq_ok_iff.1 hconfig
  obtain ⟨hurl, hkey⟩ := Prod.mk.inj (Except.ok.inj hengine)
  obtain ⟨-, -, -, -, hagain⟩ := htidy _ _ c hc
  refine ⟨⟨c, hc, hurl, hkey, hagain⟩, ?_, ?_⟩
  · exact ⟨_, _, rfl, rfl, (hengines raw).2 _ _ rfl rfl .null⟩
  · obtain ⟨file, hread, hmade⟩ := Except.bind_eq_ok_iff.1 hcatalog
    obtain ⟨catalog, hmade, hlabels⟩ := Except.bind_eq_ok_iff.1 hmade
    have hfile := Except.mapError_eq_ok_iff.1 hread
    have hcatalog := Except.mapError_eq_ok_iff.1 hmade
    obtain ⟨-, -, hfacets⟩ := hnames _ _ file hfile
    exact ⟨file, catalog, _, hfile, hcatalog, Except.ok.inj hlabels, rfl,
      (hfacets catalog hcatalog).2.2 .initial reply _ rfl⟩

end Load

end HarvestSearch
