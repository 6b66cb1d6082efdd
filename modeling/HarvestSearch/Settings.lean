/-
What of the configuration a query document depends on: the engine's dialect and the bucket caps.

`Settings` is `gleaner_search::settings::SearchSettings`, and `Dialect` is
`gleaner_search::settings::Dialect`.
-/
import HarvestSearch.Config

set_option autoImplicit false

namespace HarvestSearch

/-- The generation of the search engine. -/
inductive Dialect where
  | modern
  | legacy
deriving DecidableEq, Repr, Inhabited

namespace Dialect

def word : Dialect → String
  | .modern => "modern"
  | .legacy => "legacy"

/-- The dialect that a word asks for. Every other word asks for the modern one. -/
def ofWord (word : String) : Dialect := if word = "legacy" then .legacy else .modern

/-- Legacy engines expect the start of the window even when it is zero. -/
def alwaysSendsStart : Dialect → Bool
  | .modern => false
  | .legacy => true

/-- The name under which buckets are ordered by their keys. -/
def keyOrder : Dialect → String
  | .modern => "_key"
  | .legacy => "_term"

end Dialect

/-- What a query document depends on besides the request and the catalog. -/
structure Settings where
  dialect : Dialect
  bucketLimit : UInt32
  alphanumericBucketLimit : UInt32
deriving DecidableEq, Repr

namespace Settings

def ofConfig (c : Config) : Settings where
  dialect := .ofWord c.engine.dialect
  bucketLimit := c.search.bucketLimit
  alphanumericBucketLimit := c.search.alphanumericBucketLimit

/-- A modern engine with the usual caps. -/
def usual : Settings where
  dialect := .modern
  bucketLimit := SearchConfig.usual.bucketLimit
  alphanumericBucketLimit := SearchConfig.usual.alphanumericBucketLimit

instance : Inhabited Settings := ⟨usual⟩

end Settings

end HarvestSearch
