/-
Pages of a list of matches.

A request asks for a page by a number, counted from one, and a size
(`gleaner_search::request::SearchRequest::page`). The document knows nothing of pages: it has the
start of a window and its size, where a start at zero may be left out. `Document.window?` reads the
window off the JSON alone, and `Document.window?_ofPage` says which window a page is, in either
dialect.

Starts are words. The exact start of a page is a product, and where no word can hold it the start is
the largest word. `Request.IsPage` are the numbers of which that cannot happen. For these the pages
tile the list, and one fact says so: a match is on a page exactly if its offset, divided by the size of
the pages, is the number of pages before it (`Document.asks_ofPage_iff`). That no two pages share a
match, that none leaves a gap and that every match is on some page all follow from that.
-/
import HarvestSearch.Proofs.TwoDialects
import HarvestSearch.Proofs.WellFormedDocuments

set_option autoImplicit false

namespace HarvestSearch

/-! ## Starts -/

namespace Request

/-- The start of a page is the number of matches on the pages before it, as far as a word can tell. -/
theorem toNat_pageStart (number perPage : UInt64) : (pageStart number perPage).toNat
    = min ((number.toNat - 1) * perPage.toNat) (UInt64.size - 1) := by
  have hsize : UInt64.size = 18446744073709551616 := rfl
  refine UInt64.toNat_ofNat_of_lt' (Nat.lt_of_le_of_lt (Nat.min_le_right _ _) ?_)
  exact show Json.maxWord < UInt64.size by decide

/-- The number is that of a page, of which a word can tell where it starts. -/
structure IsPage (perPage number : UInt64) : Prop where
  one_le : 1 ≤ number
  fits : (number.toNat - 1) * perPage.toNat < UInt64.size

end Request

/-! ## Windows -/

namespace Document

/-- The window that a document asks for: where it starts, which is at the first match when the document
does not say, and for how many matches it has room. -/
def window? (document : Json) : Option (Nat × Nat) := do
  let start ← document.fieldOr "from" 0 Json.asUInt64?
  let size ← document.field "size" Json.asUInt64?
  pure (start.toNat, size.toNat)

/-- The match at the offset is in the window of the document. -/
def Asks (document : Json) (offset : Nat) : Prop :=
  ∃ start size, window? document = some (start, size) ∧ start ≤ offset ∧ offset < start + size

/-- The size of the window stands in the document when it has one. -/
theorem get?_size (d : Document) : d.toJson.get? "size" = d.size.map .ofUInt64 := by
  have hfront : FieldMap.lookupEntries "size"
      (d.opening ++ Json.optionMember "from" (d.start.map .ofUInt64)).reverse = none := by
    refine FieldMap.lookupEntries_reverse_eq_none fun e he hsize => ?_
    rcases List.mem_append.1 he with hopening | hfrom
    · exact ne_of_mem_opening (by decide) (by decide) (by decide) e hopening hsize
    · exact ne_of_mem_optionMember (show "from" ≠ "size" by decide) hfrom hsize
  rw [toJson_eq, Json.get?_ofMembers, List.reverse_append, FieldMap.lookupEntries_append,
    Json.lookupEntries_optionMember, if_pos rfl, hfront, Option.or_none]

/-- A start that is left out is a start at zero. -/
theorem fieldOr_from (settings : Settings) (catalog : Catalog) (r : Request) :
    (build settings catalog r).toJson.fieldOr "from" 0 Json.asUInt64? = some r.start := by
  have hstart : (build settings catalog r).start
      = if 0 < r.start || settings.dialect.alwaysSendsStart then some r.start else none := rfl
  rw [Json.fieldOr, get?_from, hstart]
  by_cases hsent : (0 < r.start || settings.dialect.alwaysSendsStart) = true
  · rw [if_pos hsent]
    exact readsBack_uint64 r.start
  · rw [if_neg hsent]
    rw [Bool.or_eq_true, not_or, decide_eq_true_eq, UInt64.pos_iff_ne_zero, not_not] at hsent
    exact congrArg some hsent.1.symm

/-- The window of a document is the one of its request, in either dialect. -/
theorem window?_build (settings : Settings) (catalog : Catalog) (r : Request) :
    window? (build settings catalog r).toJson
      = r.limit.map fun limit => (r.start.toNat, limit.toNat) := by
  have hsize : (build settings catalog r).size = r.limit := rfl
  unfold window?
  rw [fieldOr_from, Json.field, get?_size, hsize]
  cases r.limit with
  | none => rfl
  | some limit =>
    show ((Json.ofUInt64 limit).asUInt64?.bind fun size => some (r.start.toNat, size.toNat)) = _
    rw [readsBack_uint64 limit]
    rfl

/-- Only the window stands behind the opening members. -/
theorem get?_toJson_of_ne_window (d : Document) {key : String} (hfrom : key ≠ "from")
    (hsize : key ≠ "size") : d.toJson.get? key = (Json.ofMembers d.opening).get? key := by
  rw [toJson_eq,
    Json.get?_ofMembers_append _ fun e he => ne_of_mem_optionMember hsize.symm he,
    Json.get?_ofMembers_append _ fun e he => ne_of_mem_optionMember hfrom.symm he]

/-! ## Documents of pages -/

/-- The document of a page of a request. -/
def ofPage (settings : Settings) (catalog : Catalog) (r : Request) (number perPage : UInt64) : Json :=
  (build settings catalog (r.apply (.page number perPage))).toJson

variable {settings : Settings} {catalog : Catalog} {r : Request} {number perPage : UInt64}

theorem window?_ofPage (settings : Settings) (catalog : Catalog) (r : Request)
    (number perPage : UInt64) : window? (ofPage settings catalog r number perPage)
      = some (min ((number.toNat - 1) * perPage.toNat) (UInt64.size - 1), perPage.toNat) := by
  unfold ofPage
  rw [window?_build, ← Request.toNat_pageStart]
  rfl

theorem window?_ofPage_of_isPage (h : Request.IsPage perPage number) :
    window? (ofPage settings catalog r number perPage)
      = some ((number.toNat - 1) * perPage.toNat, perPage.toNat) := by
  rw [window?_ofPage, Nat.min_eq_left (Nat.le_sub_one_of_lt h.fits)]

/-- **The page of a match** is told by the quotient of its offset. -/
theorem asks_ofPage_iff (h : Request.IsPage perPage number) (hpos : 0 < perPage) {offset : Nat} :
    Asks (ofPage settings catalog r number perPage) offset ↔
      offset / perPage.toNat = number.toNat - 1 := by
  have hsize : 0 < perPage.toNat := UInt64.lt_iff_toNat_lt.1 hpos
  have hwindow : window? (ofPage settings catalog r number perPage)
      = some ((number.toNat - 1) * perPage.toNat, perPage.toNat) := window?_ofPage_of_isPage h
  -- the bounds of a quotient are those of the window, the product being one number to both
  rw [Nat.div_eq_iff hsize]
  constructor
  · rintro ⟨start, size, hasked, hlow, hhigh⟩
    rw [hwindow] at hasked
    cases hasked
    omega
  · rintro ⟨hlow, hhigh⟩
    exact ⟨_, _, hwindow, hlow, by omega⟩

/-- Pages with as many pages before them are the same. -/
theorem eq_of_quotient {n m : UInt64} (hn : 1 ≤ n) (hm : 1 ≤ m)
    (h : n.toNat - 1 = m.toNat - 1) : n = m := by
  rw [UInt64.le_iff_toNat_le, UInt64.toNat_one] at hn hm
  exact UInt64.toNat_inj.1 (by omega)

/-- No match is on two pages. -/
theorem eq_of_asks_ofPage (hpos : 0 < perPage) {n m : UInt64} (hn : Request.IsPage perPage n)
    (hm : Request.IsPage perPage m) {offset : Nat}
    (h : Asks (ofPage settings catalog r n perPage) offset)
    (h' : Asks (ofPage settings catalog r m perPage) offset) : n = m := by
  rw [asks_ofPage_iff hn hpos] at h
  rw [asks_ofPage_iff hm hpos] at h'
  exact eq_of_quotient hn.one_le hm.one_le (h.symm.trans h')

/-- Behind a page starts the next. -/
theorem window?_ofPage_succ {n m : UInt64} (hn : Request.IsPage perPage n)
    (hm : Request.IsPage perPage m) (h : m.toNat = n.toNat + 1) : ∃ start,
      window? (ofPage settings catalog r n perPage) = some (start, perPage.toNat) ∧
      window? (ofPage settings catalog r m perPage)
        = some (start + perPage.toNat, perPage.toNat) := by
  have hone : 1 ≤ n.toNat := UInt64.le_iff_toNat_le.1 hn.one_le
  have hbefore : m.toNat - 1 = (n.toNat - 1) + 1 := by omega
  refine ⟨_, window?_ofPage_of_isPage hn, ?_⟩
  rw [window?_ofPage_of_isPage hm, hbefore, Nat.succ_mul]

/-- Every match that a page number can reach is on a page. -/
theorem asks_ofPage_of_quotient (hpos : 0 < perPage) {offset n : UInt64}
    (h : n.toNat = offset.toNat / perPage.toNat + 1) :
    Request.IsPage perPage n ∧ Asks (ofPage settings catalog r n perPage) offset.toNat := by
  have hbefore : n.toNat - 1 = offset.toNat / perPage.toNat := Nat.sub_eq_of_eq_add h
  have hpage : Request.IsPage perPage n := by
    refine ⟨UInt64.le_iff_toNat_le.2 (h ▸ Nat.le_add_left _ _), ?_⟩
    rw [hbefore]
    exact Nat.lt_of_le_of_lt (Nat.div_mul_le_self _ _) offset.toNat_lt_size
  exact ⟨hpage, (asks_ofPage_iff hpage hpos).2 hbefore.symm⟩

/-- Where the exact start is too large for a word, the start is the largest word. -/
theorem window?_ofPage_of_size_le (h : UInt64.size ≤ (number.toNat - 1) * perPage.toNat) :
    window? (ofPage settings catalog r number perPage)
      = some (UInt64.size - 1, perPage.toNat) := by
  rw [window?_ofPage, Nat.min_eq_right (Nat.le_trans (Nat.sub_le _ _) h)]

/-- A later page does not start before an earlier one. -/
theorem window?_ofPage_mono {n m : UInt64} (h : n ≤ m) : ∃ start start',
    window? (ofPage settings catalog r n perPage) = some (start, perPage.toNat) ∧
    window? (ofPage settings catalog r m perPage) = some (start', perPage.toNat) ∧
    start ≤ start' := by
  refine ⟨_, _, window?_ofPage .., window?_ofPage .., ?_⟩
  have hbefore : n.toNat - 1 ≤ m.toNat - 1 := Nat.sub_le_sub_right (UInt64.le_iff_toNat_le.1 h) 1
  have hproduct : (n.toNat - 1) * perPage.toNat ≤ (m.toNat - 1) * perPage.toNat :=
    Nat.mul_le_mul_right _ hbefore
  omega

/-- Page zero is the first page. -/
theorem ofPage_zero (settings : Settings) (catalog : Catalog) (r : Request) (perPage : UInt64) :
    ofPage settings catalog r 0 perPage = ofPage settings catalog r 1 perPage := by
  have hstart : Request.pageStart 0 perPage = Request.pageStart 1 perPage := by
    refine UInt64.toNat_inj.1 ?_
    rw [Request.toNat_pageStart, Request.toNat_pageStart]
    rfl
  exact congrArg (fun start => (build settings catalog
    { r with start := start, limit := some perPage }).toJson) hstart

/-- Documents of two pages of a request differ in the window only. -/
theorem get?_ofPage_of_ne_window (settings : Settings) (catalog : Catalog) (r : Request)
    (n perPage m perPage' : UInt64) {key : String} (hfrom : key ≠ "from") (hsize : key ≠ "size") :
    (ofPage settings catalog r n perPage).get? key
      = (ofPage settings catalog r m perPage').get? key := by
  have hopening : (build settings catalog (r.apply (.page n perPage))).opening
      = (build settings catalog (r.apply (.page m perPage'))).opening := rfl
  unfold ofPage
  rw [get?_toJson_of_ne_window _ hfrom hsize, get?_toJson_of_ne_window _ hfrom hsize, hopening]

/-- **Documents that tile a list of matches.** There is one for every number and size of a page. -/
structure Tiling (page : UInt64 → UInt64 → Json) (perPage : UInt64) : Prop where
  window : ∀ n, Request.IsPage perPage n →
    window? (page n perPage) = some ((n.toNat - 1) * perPage.toNat, perPage.toNat)
  /-- No two pages share a match. -/
  disjoint : ∀ n m, Request.IsPage perPage n → Request.IsPage perPage m → n ≠ m →
    ∀ offset, Asks (page n perPage) offset → ¬Asks (page m perPage) offset
  /-- The next page starts where a page ends. -/
  adjacent : ∀ n m, Request.IsPage perPage n → Request.IsPage perPage m → m.toNat = n.toNat + 1 →
    ∃ start, window? (page n perPage) = some (start, perPage.toNat) ∧
      window? (page m perPage) = some (start + perPage.toNat, perPage.toNat)
  /-- Every match is on one page, if there is a number for this page. -/
  covers : ∀ offset : UInt64, offset.toNat / perPage.toNat < UInt64.size - 1 →
    ∃ n, n.toNat = offset.toNat / perPage.toNat + 1 ∧
      ∀ m, (Request.IsPage perPage m ∧ Asks (page m perPage) offset.toNat) ↔ m = n
  zero : page 0 perPage = page 1 perPage
  /-- A start too large for a word is the largest word. -/
  saturates : ∀ n, UInt64.size ≤ (n.toNat - 1) * perPage.toNat →
    window? (page n perPage) = some (UInt64.size - 1, perPage.toNat)
  monotone : ∀ n m, n ≤ m → ∃ start start',
    window? (page n perPage) = some (start, perPage.toNat) ∧
    window? (page m perPage) = some (start', perPage.toNat) ∧ start ≤ start'
  /-- Pages differ in the window only, also if their sizes do. -/
  agrees : ∀ n m perPage' key, key ≠ "from" → key ≠ "size" →
    (page n perPage).get? key = (page m perPage').get? key

/-- **The pages of a request tile the list of its matches**, in either dialect. -/
theorem tiling_ofPage (settings : Settings) (catalog : Catalog) (r : Request) {perPage : UInt64}
    (hpos : 0 < perPage) : Tiling (ofPage settings catalog r) perPage where
  window _ hn := window?_ofPage_of_isPage hn
  disjoint _ _ hn hm hne _ h h' := hne (eq_of_asks_ofPage hpos hn hm h h')
  adjacent _ _ hn hm h := window?_ofPage_succ hn hm h
  covers offset hlt := by
    -- the number fits into a word, as the quotient is not the largest one
    have hword : offset.toNat / perPage.toNat + 1 < UInt64.size := Nat.add_lt_of_lt_sub hlt
    have hnumber : (UInt64.ofNat (offset.toNat / perPage.toNat + 1)).toNat
        = offset.toNat / perPage.toNat + 1 := UInt64.toNat_ofNat_of_lt' hword
    obtain ⟨hpage, hasked⟩ := @asks_ofPage_of_quotient settings catalog r _ hpos _ _ hnumber
    refine ⟨_, hnumber, fun m => ⟨fun ⟨hm, h⟩ => eq_of_asks_ofPage hpos hm hpage h hasked, ?_⟩⟩
    rintro rfl
    exact ⟨hpage, hasked⟩
  zero := ofPage_zero settings catalog r perPage
  saturates _ h := window?_ofPage_of_size_le h
  monotone _ _ h := window?_ofPage_mono h
  agrees n m perPage' _ hfrom hsize :=
    get?_ofPage_of_ne_window settings catalog r n perPage m perPage' hfrom hsize

/-- Pages of ten matches: the match at offset 25 is on the third of them and not on the second, page
zero is the first, and the start of the last page that has a number is the largest word. -/
theorem tiling_of_pages_of_ten :
    let page : UInt64 → UInt64 → Json := ofPage .usual Sample.catalog default
    Tiling page 10 ∧ window? (page 3 10) = some (20, 10) ∧ Asks (page 3 10) 25 ∧
      ¬Asks (page 2 10) 25 ∧ page 0 10 = page 1 10 ∧
      window? (page 18446744073709551615 10) = some (18446744073709551615, 10) := by
  intro page
  have htiling : Tiling page 10 := tiling_ofPage .usual Sample.catalog default (by decide)
  have hsecond : Request.IsPage 10 2 := ⟨by decide, by decide⟩
  have hthird : Request.IsPage 10 3 := ⟨by decide, by decide⟩
  have hasked : Asks (page 3 10) 25 :=
    ⟨_, _, htiling.window 3 hthird, by decide, by decide⟩
  refine ⟨htiling, htiling.window 3 hthird, hasked, ?_, htiling.zero, ?_⟩
  · exact htiling.disjoint 3 2 hthird hsecond (by decide) 25 hasked
  · exact htiling.saturates 18446744073709551615 (by decide)

end Document

end HarvestSearch
