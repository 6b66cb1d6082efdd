/-
Which header goes with every request to the engine.

The header is put together from left to right (`gleaner_transport::auth_headers`): the content type,
the key, and then the configured entries in the order of their names. `Judges` says what one entry
comes to (`judges_addHeader`): it is refused, or it decides the value of its name and of no other.
What a whole list of entries comes to follows by induction on the list, for every header that it is
added to. The configuration keeps names apart that differ in the size of a letter only, so several
entries can have one name, and the last of them counts (`lastNamed`).

Of the faults, the one about a value that is no string is looked for when the configuration is
checked. An accepted configuration therefore never meets it here (`not_lacks_string`).
-/
import HarvestSearch.Engine
import HarvestSearch.Proofs.EntriesInOrder

set_option autoImplicit false

namespace HarvestSearch

namespace Http

/-! ## One entry -/

/-- A text that may be the value of a header. -/
def isValue (text : String) : Bool := text.toList.all isValueChar

/-- An entry that may stand in a header. -/
structure Acceptable (entry : String × Json) : Prop where
  name : isName entry.1 = true
  text : ∃ text, entry.2 = .string text ∧ isValue text = true

theorem acceptable_iff {entry : String × Json} : Acceptable entry ↔
    isName entry.1 = true ∧ entry.2.asString?.any isValue = true := by
  constructor
  · rintro ⟨hname, text, htext, hvalue⟩
    exact ⟨hname, by simp [htext, Json.asString?, hvalue]⟩
  · rintro ⟨hname, hany⟩
    obtain ⟨name, value⟩ := entry
    cases value with
    | string text => exact ⟨hname, text, rfl, hany⟩
    | _ => cases hany

instance (entry : String × Json) : Decidable (Acceptable entry) :=
  decidable_of_iff _ acceptable_iff.symm

/-- What is said of an entry that may not stand in a header: of several reasons the first counts. -/
inductive Lacks : String × Json → HeaderFault → Prop where
  | notString {name : String} {value : Json} (h : value.isString = false) :
    Lacks (name, value) .valueNotString
  | name {name text : String} (h : isName name = false) : Lacks (name, .string text) .invalidName
  | value {name text : String} (hname : isName name = true) (h : isValue text = false) :
    Lacks (name, .string text) .invalidValue

/-- There is one thing to say of an entry at most. -/
theorem Lacks.unique {entry : String × Json} {fault other : HeaderFault} (h : Lacks entry fault)
    (hother : Lacks entry other) : fault = other := by
  cases h <;> cases hother <;> first | rfl | contradiction | simp_all

/-- There is nothing to say of an acceptable entry. -/
theorem Lacks.not_acceptable {entry : String × Json} {fault : HeaderFault} (h : Lacks entry fault) :
    ¬Acceptable entry := by
  rintro ⟨hname, text, htext, hvalue⟩
  cases h with
  | notString h =>
    cases htext
    cases h
  | name h => exact absurd (h.symm.trans hname) Bool.false_ne_true
  | value _ h =>
    cases htext
    exact absurd (h.symm.trans hvalue) Bool.false_ne_true

/-- The name is looked at before the text. -/
theorem addHeader_string (headers : Headers) (name text : String) :
    addHeader headers name (.string text) = (parseName name >>= fun name =>
      parseValue text >>= fun text => .ok (headers.insert name text)) := rfl

/-- An entry has a reason not to stand in a header, or it is the value of its name in the header that
it is added to. -/
theorem addHeader_cases (headers : Headers) (entry : String × Json) :
    (∃ fault, Lacks entry fault ∧ addHeader headers entry.1 entry.2 = .error fault) ∨
    (Acceptable entry ∧ ∃ result, addHeader headers entry.1 entry.2 = .ok result ∧
      result.get? = fun q => if Text.lowerAscii entry.1 = q then entry.2.asString?
        else headers.get? q) := by
  obtain ⟨name, value⟩ := entry
  cases value with
  | string text =>
    rw [addHeader_string]
    by_cases hname : isName name = true
    · have hparsed : parseName name = .ok (Text.lowerAscii name) := if_pos hname
      rw [hparsed]
      by_cases hvalue : isValue text = true
      · have htext : parseValue text = .ok text := if_pos hvalue
        rw [htext]
        exact .inr ⟨⟨hname, text, rfl, hvalue⟩, headers.insert (Text.lowerAscii name) text, rfl,
          funext fun q => FieldMap.get?_insert ..⟩
      · have htext : parseValue text = .error .invalidValue := if_neg hvalue
        rw [htext]
        exact .inl ⟨_, .value hname (Bool.eq_false_iff.2 hvalue), rfl⟩
    · have hparsed : parseName name = .error .invalidName := if_neg hname
      rw [hparsed]
      exact .inl ⟨_, .name (Bool.eq_false_iff.2 hname), rfl⟩
  | _ => exact .inl ⟨_, .notString rfl, rfl⟩

theorem judges_addHeader (headers : Headers) :
    Judges (fun entry => addHeader headers entry.1 entry.2)
      (fun entry q => if Text.lowerAscii entry.1 = q then entry.2.asString? else headers.get? q)
      FieldMap.get? Acceptable Lacks where
  made := addHeader_cases headers
  unique := Lacks.unique
  not_good := Lacks.not_acceptable

/-! ## All entries -/

/-- The value of the last entry of a name, in whatever letters the entry has it. -/
def lastNamed (entries : List (String × Json)) (q : String) : Option Json :=
  (entries.reverse.find? fun entry => Text.lowerAscii entry.1 = q).map (·.2)

theorem lastNamed_cons (entry : String × Json) (entries : List (String × Json)) (q : String) :
    lastNamed (entry :: entries) q =
      (lastNamed entries q).or (if Text.lowerAscii entry.1 = q then some entry.2 else none) := by
  rw [lastNamed, lastNamed, List.reverse_cons, List.find?_append, Option.map_or, List.find?_singleton]
  by_cases h : Text.lowerAscii entry.1 = q <;> simp [h]

theorem addHeaders_ok_iff {entries : List (String × Json)} {headers : Headers} :
    (∃ result, addHeaders headers entries = .ok result) ↔ ∀ entry ∈ entries, Acceptable entry := by
  induction entries generalizing headers with
  | nil => exact iff_of_true ⟨headers, rfl⟩ fun entry h => absurd h List.not_mem_nil
  | cons entry entries ih =>
    rw [List.forall_mem_cons, ← (judges_addHeader headers).ok_iff]
    constructor
    · rintro ⟨result, h⟩
      obtain ⟨first, hfirst, hrest⟩ := Except.bind_eq_ok_iff.1 h
      exact ⟨⟨first, hfirst⟩, ih.1 ⟨result, hrest⟩⟩
    · rintro ⟨⟨first, hfirst⟩, hall⟩
      obtain ⟨result, hrest⟩ := ih.2 hall
      exact ⟨result, Except.bind_eq_ok_iff.2 ⟨first, hfirst, hrest⟩⟩

theorem addHeaders_error_iff {entries : List (String × Json)} {headers : Headers}
    {fault : HeaderFault} : addHeaders headers entries = .error fault ↔
      FirstLacking Acceptable Lacks entries fault := by
  induction entries generalizing headers with
  | nil => exact iff_of_false (fun h => by cases h) not_firstLacking_nil
  | cons entry entries ih =>
    rw [firstLacking_cons_iff, ← (judges_addHeader headers).ok_iff,
      ← (judges_addHeader headers).error_iff]
    refine Except.bind_eq_error_iff.trans (or_congr_right ?_)
    constructor
    · rintro ⟨first, hfirst, hrest⟩
      exact ⟨⟨first, hfirst⟩, ih.1 hrest⟩
    · rintro ⟨⟨first, hfirst⟩, hrest⟩
      exact ⟨first, hfirst, ih.2 hrest⟩

/-- The last entry of a name decides its value, and a name without an entry keeps the value that it
has. -/
theorem get?_addHeaders {entries : List (String × Json)} {headers result : Headers}
    (h : addHeaders headers entries = .ok result) (q : String) :
    result.get? q = match lastNamed entries q with
      | some value => value.asString?
      | none => headers.get? q := by
  induction entries generalizing headers with
  | nil =>
    cases h
    rfl
  | cons entry entries ih =>
    obtain ⟨first, hfirst, hrest⟩ := Except.bind_eq_ok_iff.1 h
    have hvalue := congrFun ((judges_addHeader headers).key_eq hfirst) q
    rw [ih hrest, lastNamed_cons]
    cases lastNamed entries q with
    | some value => rfl
    | none =>
      rw [Option.none_or]
      show first.get? q = _
      rw [hvalue]
      split <;> rfl

/-! ## The content type and the key -/

/-- A key that is there may be the value of a header. -/
def KeyAcceptable (apiKey : Option String) : Prop := ∀ key, apiKey = some key → isValue key = true

/-- The values that do not come from the configured entries. -/
def preset (apiKey : Option String) (q : String) : Option String :=
  if q = "authorization" then apiKey.map ("ApiKey " ++ ·)
  else if q = "content-type" then some "application/json"
  else none

/-- What is put before the key makes no difference to whether it is acceptable. -/
theorem isValue_apiKey (key : String) : isValue ("ApiKey " ++ key) = isValue key := by
  have hfront : "ApiKey ".toList.all isValueChar = true := by decide
  rw [isValue, String.toList_append, List.all_append, hfront, Bool.true_and, isValue]

theorem get?_baseHeaders (q : String) : baseHeaders.get? q = preset none q := by
  rw [baseHeaders, FieldMap.get?_insert, FieldMap.get?_empty, preset]
  by_cases hq : q = "authorization"
  · subst hq
    rfl
  · rw [if_neg hq]
    exact if_congr eq_comm rfl rfl

/-- The key is refused, or there is a header with it and the content type. -/
theorem addKey_cases (apiKey : Option String) :
    (¬KeyAcceptable apiKey ∧ addKey baseHeaders apiKey = .error .invalidValue) ∨
    (KeyAcceptable apiKey ∧ ∃ headers, addKey baseHeaders apiKey = .ok headers ∧
      ∀ q, headers.get? q = preset apiKey q) := by
  cases apiKey with
  | none => exact .inr ⟨fun _ h => (by cases h), baseHeaders, rfl, get?_baseHeaders⟩
  | some key =>
    have hadd : addKey baseHeaders (some key) = (parseValue ("ApiKey " ++ key) >>= fun value =>
        .ok (baseHeaders.insert "authorization" value)) := rfl
    rw [hadd]
    by_cases hkey : isValue key = true
    · have hvalue : parseValue ("ApiKey " ++ key) = .ok ("ApiKey " ++ key) :=
        if_pos ((isValue_apiKey key).trans hkey)
      rw [hvalue]
      refine .inr ⟨fun _ h => Option.some.inj h ▸ hkey, _, rfl, fun q => ?_⟩
      rw [FieldMap.get?_insert, get?_baseHeaders, preset, preset]
      by_cases hq : q = "authorization"
      · rw [if_pos hq.symm, if_pos hq]
        rfl
      · rw [if_neg (Ne.symm hq), if_neg hq, if_neg hq]
    · have hvalue : parseValue ("ApiKey " ++ key) = .error .invalidValue :=
        if_neg fun h => hkey ((isValue_apiKey key).symm.trans h)
      rw [hvalue]
      exact .inl ⟨fun h => hkey (h key rfl), rfl⟩

theorem addKey_ok_iff {apiKey : Option String} :
    (∃ headers, addKey baseHeaders apiKey = .ok headers) ↔ KeyAcceptable apiKey := by
  rcases addKey_cases apiKey with ⟨hkey, hadd⟩ | ⟨hkey, headers, hadd, -⟩
  · rw [hadd]
    exact iff_of_false (fun ⟨_, h⟩ => by cases h) hkey
  · exact iff_of_true ⟨headers, hadd⟩ hkey

theorem get?_addKey {apiKey : Option String} {headers : Headers}
    (h : addKey baseHeaders apiKey = .ok headers) (q : String) :
    headers.get? q = preset apiKey q := by
  rcases addKey_cases apiKey with ⟨-, hadd⟩ | ⟨-, other, hadd, hpreset⟩
  · cases hadd.symm.trans h
  · cases hadd.symm.trans h
    exact hpreset q

/-! ## The whole header -/

theorem engineHeaders_eq_ok_iff {apiKey : Option String} {defaults : FieldMap Json}
    {headers : Headers} : engineHeaders apiKey defaults = .ok headers ↔
      ∃ start, addKey baseHeaders apiKey = .ok start ∧
        addHeaders start defaults.entries = .ok headers :=
  Except.bind_eq_ok_iff

/-- The key counts before the entries. -/
theorem engineHeaders_eq_error_iff {apiKey : Option String} {defaults : FieldMap Json}
    {fault : HeaderFault} : engineHeaders apiKey defaults = .error fault ↔
      ¬KeyAcceptable apiKey ∧ fault = .invalidValue ∨
      KeyAcceptable apiKey ∧ FirstLacking Acceptable Lacks defaults.entries fault := by
  refine Except.bind_eq_error_iff.trans ?_
  rcases addKey_cases apiKey with ⟨hkey, hadd⟩ | ⟨hkey, start, hadd, -⟩
  · simp [hkey, hadd, eq_comm]
  · simp [hkey, hadd, addHeaders_error_iff]

/-- A check of the configuration finds every value that is no string. -/
theorem not_lacks_string {entries : List (String × Json)}
    (h : ∀ entry ∈ entries, entry.2.isString = true) :
    ¬FirstLacking Acceptable Lacks entries .valueNotString := by
  rintro ⟨front, entry, back, rfl, -, hlacks⟩
  cases hlacks with
  | notString hno =>
    have hyes := h _ (List.mem_append_right front List.mem_cons_self)
    exact Bool.false_ne_true (hno.symm.trans hyes)

/-- **The header of requests.** It can be made exactly if the key and all configured entries are
acceptable. The value of a name, which is looked up in small letters, is then that of the last
configured entry of this name, in whatever letters it is written; without an entry it is the key for
the authorization and JSON for the content type, and there are no other names. If the header cannot be
made, the key counts before the entries, and among them the first that is not acceptable, where a value
that is no string counts before a name that is no token and that before a text with a control
character. For an accepted configuration no value is found to be no string. -/
theorem engineHeaders_by_name :
    (∀ apiKey defaults, (∃ headers, engineHeaders apiKey defaults = .ok headers) ↔
      KeyAcceptable apiKey ∧ ∀ entry ∈ defaults.entries, Acceptable entry) ∧
    (∀ apiKey defaults headers, engineHeaders apiKey defaults = .ok headers →
      ∀ q, headers.get? q = match lastNamed defaults.entries q with
        | some value => value.asString?
        | none => preset apiKey q) ∧
    (∀ apiKey defaults fault, engineHeaders apiKey defaults = .error fault ↔
      ¬KeyAcceptable apiKey ∧ fault = .invalidValue ∨
      KeyAcceptable apiKey ∧ FirstLacking Acceptable Lacks defaults.entries fault) ∧
    ∀ c : Config, c.fault? = none →
      engineHeaders c.engine.apiKey c.engine.defaultHeaders ≠ .error .valueNotString ∧
      Engine.ofConfig c.engine ≠ .error (.header .valueNotString) := by
  refine ⟨fun apiKey defaults => ?_, fun apiKey defaults headers h q => ?_,
    fun apiKey defaults fault => engineHeaders_eq_error_iff, fun c hfault => ?_⟩
  · constructor
    · rintro ⟨headers, h⟩
      obtain ⟨start, hstart, hentries⟩ := engineHeaders_eq_ok_iff.1 h
      exact ⟨addKey_ok_iff.1 ⟨start, hstart⟩, addHeaders_ok_iff.1 ⟨headers, hentries⟩⟩
    · rintro ⟨hkey, hall⟩
      obtain ⟨start, hstart⟩ := addKey_ok_iff.2 hkey
      obtain ⟨headers, hentries⟩ := addHeaders_ok_iff.2 hall
      exact ⟨headers, engineHeaders_eq_ok_iff.2 ⟨start, hstart, hentries⟩⟩
  · obtain ⟨start, hstart, hentries⟩ := engineHeaders_eq_ok_iff.1 h
    rw [get?_addHeaders hentries, get?_addKey hstart]
  · have hheaders : engineHeaders c.engine.apiKey c.engine.defaultHeaders
        ≠ .error .valueNotString := by
      intro h
      rcases engineHeaders_eq_error_iff.1 h with ⟨-, hfault⟩ | ⟨-, hlacks⟩
      · cases hfault
      · exact not_lacks_string (Config.fault?_eq_none_iff.1 hfault).headers hlacks
    refine ⟨hheaders, fun h => ?_⟩
    rcases Except.bind_eq_error_iff.1 h with h | ⟨_, _, h⟩
    · obtain ⟨fault, hmade, hwrap⟩ := Except.mapError_eq_error_iff.1 h
      cases hwrap
      exact hheaders hmade
    · cases h

/-- Two spellings of the content type, of which the later one in the order of names counts, a spelling
of the authorization that replaces the key, and an entry of its own. A key with a line break counts
before an entry that is no string. An accepted configuration whose header is refused for the blank in
a name. -/
theorem headers_of_two_spellings :
    let defaults : FieldMap Json := .ofList [("content-type", .string "text/plain"),
      ("Content-Type", .string "application/cbor"), ("AUTHORIZATION", .string "Basic eDp5"),
      ("X-Trace", .string "on")]
    let c : Config := ⟨⟨"info"⟩, ⟨"http://localhost:9200", "gleaner", "modern", 5000, none,
      .ofList [("X Trace", .string "on")]⟩, .usual⟩
    (∃ headers, engineHeaders (some "secret") defaults = .ok headers ∧
      headers.get? "content-type" = some "text/plain" ∧
      headers.get? "authorization" = some "Basic eDp5" ∧ headers.get? "x-trace" = some "on" ∧
      headers.get? "accept" = none) ∧
    engineHeaders (some "sec\nret") (.ofList [("X-Trace", .int 1)]) = .error .invalidValue ∧
    c.fault? = none ∧
    engineHeaders c.engine.apiKey c.engine.defaultHeaders = .error .invalidName ∧
    Engine.ofConfig c.engine ≠ .error (.header .valueNotString) := by
  intro defaults c
  obtain ⟨hmade, hvalue, hrefused, haccepted⟩ := engineHeaders_by_name
  have hkey : KeyAcceptable (some "secret") := fun key h => Option.some.inj h ▸ by decide
  have hall : ∀ entry ∈ defaults.entries, Acceptable entry := by decide +kernel
  obtain ⟨headers, h⟩ := (hmade (some "secret") defaults).2 ⟨hkey, hall⟩
  have hfault : c.fault? = none := by decide +kernel
  refine ⟨⟨headers, h, ?_, ?_, ?_, ?_⟩, ?_, hfault, ?_, (haccepted c hfault).2⟩
  · rw [hvalue _ _ headers h]
    decide +kernel
  · rw [hvalue _ _ headers h]
    decide +kernel
  · rw [hvalue _ _ headers h]
    decide +kernel
  · rw [hvalue _ _ headers h]
    decide +kernel
  · refine (hrefused _ _ _).2 (.inl ⟨fun h => ?_, rfl⟩)
    exact absurd (h _ rfl) (by decide)
  · refine (hrefused _ _ _).2 (.inr ⟨fun key h => (by cases h), ?_⟩)
    exact ⟨[], ("X Trace", .string "on"), [], rfl, fun x hx => (by cases hx), .name (by decide)⟩

end Http

end HarvestSearch
