/-
Loading the configuration and the catalog file.

A file is given by its bytes, or by nothing when it could not be read. Its text is TOML in UTF-8; what
it says is tidied first and checked then.

`Load.config` is `gleaner_config::load`, and `Load.catalogFile` is `gleaner_config::load_catalog`.
-/
import HarvestSearch.Config
import HarvestSearch.Json.Printer
import HarvestSearch.Toml.Parser

set_option autoImplicit false

namespace HarvestSearch

/-- Why a file cannot be loaded. -/
inductive LoadError where
  -- there is no such file, or its bytes are no text
  | unreadable (path : String)
  -- the text is no TOML, or lacks what it has to say
  | unparsable (path : String)
  -- what the file says is refused
  | invalid (reason : String)
deriving DecidableEq, Repr, Inhabited

def LoadError.message : LoadError → String
  | .unreadable path => "Failed to read config file at " ++ Json.quote path ++ "."
  | .unparsable path => "Failed to parse config file at " ++ Json.quote path ++ "."
  | .invalid reason => reason

namespace Load

/-- The JSON value of a file. -/
def document (path : String) (bytes : Option ByteArray) : Except LoadError Json := do
  let some text := bytes.bind String.fromUTF8? | throw (.unreadable path)
  let some json := Toml.parseJson? text | throw (.unparsable path)
  pure json

/-- The configuration that a JSON value holds, tidied and checked. -/
def configOfJson (path : String) (json : Json) : Except LoadError Config := do
  let some config := Config.ofJson? json | throw (.unparsable path)
  let config := config.tidy
  match config.fault? with
  | some fault => throw (.invalid fault.message)
  | none => pure config

/-- The catalog file that a JSON value holds, tidied and checked. -/
def catalogOfJson (path : String) (json : Json) : Except LoadError CatalogFile := do
  let some file := CatalogFile.ofJson? json | throw (.unparsable path)
  let file := file.tidy
  match file.fault? with
  | some fault => throw (.invalid fault.message)
  | none => pure file

/-- Loads a configuration. -/
def config (path : String) (bytes : Option ByteArray) : Except LoadError Config := do
  configOfJson path (← document path bytes)

/-- Loads a catalog file. -/
def catalogFile (path : String) (bytes : Option ByteArray) : Except LoadError CatalogFile := do
  catalogOfJson path (← document path bytes)

end Load

end HarvestSearch
