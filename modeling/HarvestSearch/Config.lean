/-
The configuration of the program: logging, the search engine, bucket caps.

Reading a configuration tidies it, so that a blank key for the engine counts as none and the engine's
address ends without a slash, and then checks it. The checks come in a fixed order and the first
failure is the answer; `Config.Sound` says what a configuration without one is like.

`Config` is `gleaner_config::Config`, made of `Service`, `Engine` and `Search`; `Config.tidy` and
`Config.fault?` are `gleaner_config::normalize` and `gleaner_config::validate`.
-/
import HarvestSearch.CatalogFile

set_option autoImplicit false

namespace HarvestSearch

/-- Settings of the program itself. -/
structure ServiceConfig where
  logLevel : String
deriving Inhabited

/-- Where the search engine is and how it is spoken to. -/
structure EngineConfig where
  url : String
  index : String
  dialect : String
  timeoutMs : UInt64
  apiKey : Option String
  -- Headers that go with every request. A checked configuration has only strings here.
  defaultHeaders : FieldMap Json
deriving Inhabited

/-- Caps on the number of buckets of a facet. -/
structure SearchConfig where
  -- for facets ordered by count
  bucketLimit : UInt32
  -- for facets ordered alphanumerically
  alphanumericBucketLimit : UInt32
deriving DecidableEq, Repr

/-- The caps that count when none are configured: ten buckets by count, a thousand in alphanumeric
order. -/
def SearchConfig.usual : SearchConfig := ⟨10, 1000⟩

instance : Inhabited SearchConfig := ⟨.usual⟩

structure Config where
  service : ServiceConfig
  engine : EngineConfig
  search : SearchConfig
deriving Inhabited

/-! ## Reading -/

/-- Reads the program's section. -/
def ServiceConfig.ofJson? (j : Json) : Option ServiceConfig := do
  pure { logLevel := ← j.field "log_level" Json.asString? }

/-- Reads the value of a header, which may be anything as long as no whole number in it is beyond 64
bits. -/
def EngineConfig.headerValue? (value : Json) : Option Json :=
  if value.fitsWords then some value else none

/-- Reads the engine's section. -/
def EngineConfig.ofJson? (j : Json) : Option EngineConfig := do
  pure {
    url := ← j.field "url" Json.asString?
    index := ← j.field "index" Json.asString?
    dialect := ← j.fieldOr "dialect" "modern" Json.asString?
    timeoutMs := ← j.field "timeout_ms" Json.asUInt64?
    apiKey := ← j.fieldOption "api_key" Json.asString?
    defaultHeaders := ← j.fieldOr "default_headers" .empty (Json.mapOf headerValue?) }

/-- Reads the section of the caps, each of which has its default. -/
def SearchConfig.ofJson? (j : Json) : Option SearchConfig := do
  let _ ← j.asObject?
  pure {
    bucketLimit := ← j.fieldOr "bucket_limit" usual.bucketLimit Json.asUInt32?
    alphanumericBucketLimit :=
      ← j.fieldOr "alphanumeric_bucket_limit" usual.alphanumericBucketLimit Json.asUInt32? }

/-- Reads a configuration. -/
def Config.ofJson? (j : Json) : Option Config := do
  pure {
    service := ← j.field "service" ServiceConfig.ofJson?
    engine := ← j.field "engine" EngineConfig.ofJson?
    search := ← j.fieldOr "search" .usual SearchConfig.ofJson? }

/-! ## Tidying -/

/-- The configuration with a blank key left out and no slash at the end of the address. -/
def Config.tidy (c : Config) : Config :=
  { c with engine :=
    { c.engine with
      apiKey := Text.unlessBlank c.engine.apiKey
      url := Text.dropTrailingSlashes c.engine.url } }

/-! ## Checking -/

inductive ConfigFault where
  | blankUrl
  | blankIndex
  | unknownDialect
  | zeroTimeout
  | headerNotString (name : String)
  | zeroBucketLimit
  | alphanumericBelowBucketLimit
deriving DecidableEq, Repr

def ConfigFault.message : ConfigFault → String
  | .blankUrl => "engine.url must be non-empty."
  | .blankIndex => "engine.index must be non-empty."
  | .unknownDialect => "engine.dialect must be one of modern or legacy."
  | .zeroTimeout => "engine.timeout_ms must be greater than zero."
  | .headerNotString name => "engine.default_headers." ++ name ++ " must be a string."
  | .zeroBucketLimit => "search.bucket_limit must be greater than zero."
  | .alphanumericBelowBucketLimit =>
    "search.alphanumeric_bucket_limit must not be below search.bucket_limit."

/-- The name of the first header whose value is not a string. -/
def EngineConfig.headerFault? (e : EngineConfig) : Option String :=
  (e.defaultHeaders.entries.find? fun header => !header.2.isString).map (·.1)

/-- The dialects that a configuration may name. -/
def dialectWords : List String := ["modern", "legacy"]

/-- The first fault of the configuration, in the order of the checks. -/
def Config.fault? (c : Config) : Option ConfigFault :=
  if Text.isBlank c.engine.url then some .blankUrl
  else if Text.isBlank c.engine.index then some .blankIndex
  else if c.engine.dialect ∉ dialectWords then some .unknownDialect
  else if c.engine.timeoutMs = 0 then some .zeroTimeout
  else
    match c.engine.headerFault? with
    | some name => some (.headerNotString name)
    | none =>
      if c.search.bucketLimit = 0 then some .zeroBucketLimit
      else if c.search.alphanumericBucketLimit < c.search.bucketLimit then
        some .alphanumericBelowBucketLimit
      else none

/-! ## Accepted configurations -/

/-- No header has a value that is not a string. -/
theorem EngineConfig.headerFault?_eq_none_iff {e : EngineConfig} :
    e.headerFault? = none ↔ ∀ header ∈ e.defaultHeaders.entries, header.2.isString = true := by
  rw [headerFault?, Option.map_eq_none_iff, List.find?_eq_none]
  simp only [Bool.not_eq_true', Bool.not_eq_false]

/-- What a configuration has to be like to be accepted. -/
structure Config.Sound (c : Config) : Prop where
  url : Text.isBlank c.engine.url = false
  index : Text.isBlank c.engine.index = false
  dialect : c.engine.dialect ∈ dialectWords
  timeout : c.engine.timeoutMs ≠ 0
  headers : ∀ header ∈ c.engine.defaultHeaders.entries, header.2.isString = true
  bucketLimit : c.search.bucketLimit ≠ 0
  alphanumeric : c.search.bucketLimit ≤ c.search.alphanumericBucketLimit

theorem Config.fault?_eq_none_iff {c : Config} : c.fault? = none ↔ c.Sound := by
  unfold fault?
  constructor
  · intro h
    split at h
    · cases h
    next hurl =>
    split at h
    · cases h
    next hindex =>
    split at h
    · cases h
    next hdialect =>
    split at h
    · cases h
    next htimeout =>
    split at h
    · cases h
    next hheaders =>
    split at h
    · cases h
    next hlimit =>
    split at h
    · cases h
    next halphanumeric =>
    exact ⟨Bool.eq_false_iff.2 hurl, Bool.eq_false_iff.2 hindex, Classical.not_not.1 hdialect,
      htimeout, EngineConfig.headerFault?_eq_none_iff.1 hheaders, hlimit,
      UInt32.not_lt.1 halphanumeric⟩
  · intro h
    have hheaders := EngineConfig.headerFault?_eq_none_iff.2 h.headers
    simp [h.url, h.index, h.dialect, h.timeout, hheaders, h.bucketLimit,
      UInt32.not_lt.2 h.alphanumeric]

end HarvestSearch
