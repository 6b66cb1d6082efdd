/-
Runs of the program.

A run reads its arguments, loads the configuration and the catalog, puts the request together and
prints either the query document (a dry run) or a report of the result. The first failure ends the run
and nothing is printed then. A run is a function of the arguments, the bytes of the two files and the
connection to the engine, so nothing here does any input or output.

`Program.runArguments` is `gleaner_query::run`, `Program.Report` is `gleaner_query::Report`, and
`Program.version` is `gleaner_cli::VERSION`.
-/
import HarvestSearch.CommandLine.Help
import HarvestSearch.Engine
import HarvestSearch.Load

set_option autoImplicit false

namespace HarvestSearch.Program

def name : String := "gleaner-query"

def version : String := "0.1.0"

/-- The files of a run: their bytes, or nothing when they cannot be read. -/
structure Files where
  config : Option ByteArray
  catalog : Option ByteArray
deriving Inhabited

inductive RunError where
  | load (error : LoadError)
  | catalog (error : DomainError)
  | sort (fault : Arguments.SortFault)
  | search (error : SearchError)
deriving DecidableEq, Inhabited

def RunError.message : RunError → String
  | .load error => error.message
  | .catalog error => error.message
  | .sort fault => fault.message
  | .search error => error.message

/-! ## Preparation -/

/-- A run that is ready to search. -/
structure Prepared where
  service : SearchService
  finder : Finder

/-- Loads both files, puts the request together and makes the service, in this order. -/
def prepare (connection : Http.Connection) (a : Arguments) (files : Files) :
    Except RunError Prepared := do
  let config ← (Load.config a.config files.config).mapError RunError.load
  let file ← (Load.catalogFile a.catalog files.catalog).mapError RunError.load
  let catalog ← (Catalog.ofFile file).mapError RunError.catalog
  let request ← (a.request catalog).mapError RunError.sort
  let service ← (SearchService.ofConfig connection config catalog).mapError RunError.search
  pure ⟨service, .new request⟩

/-! ## Reports -/

structure Report where
  count : UInt64
  facets : List Facet
  items : List Item
deriving DecidableEq, Repr, Inhabited

def Report.toJson (r : Report) : Json :=
  .object [
    ("count", .ofUInt64 r.count),
    ("facets", .array (r.facets.map Facet.toJson)),
    ("items", .array (r.items.map Item.toJson))]

/-- A run gives up no access, so there is always an outcome. -/
def outcomeOf {α : Type} (answer : Option (Except SearchError α)) : Except SearchError α :=
  answer.getD (.error (.transport "Search execution did not complete."))

/-- Asks the finder for the count, the facets and the items, and gives the report with all that was
sent for it. -/
def report (p : Prepared) : List Json × Except SearchError Report :=
  let first := p.finder.access p.service []
  let second := first.finder.access p.service first.sent
  let third := second.finder.access p.service second.sent
  (third.sent, do
    let count := (← outcomeOf first.answer).count
    let facets := (← outcomeOf second.answer).facets
    let items ← (← outcomeOf third.answer).items
    pure ⟨count, facets, items⟩)

/-! ## Runs -/

/-- What a run leaves behind. -/
structure Outcome where
  exitCode : Nat
  stdout : String
  -- the text of the cause, of a run that failed
  failure : Option String
  -- the documents that were posted
  sent : List Json

/-- A text on a line of its own. -/
def line (text : String) : String := text ++ "\n"

/-- The outcome of a run that prints something. -/
def printed (text : String) (sent : List Json) : Outcome := ⟨0, line text, none, sent⟩

/-- The outcome of a run that fails. -/
def failed (error : RunError) (sent : List Json) : Outcome := ⟨1, "", some error.message, sent⟩

/-- A run with arguments that were understood. -/
def runArguments (connection : Http.Connection) (a : Arguments) (files : Files) : Outcome :=
  match prepare connection a files with
  | .error error => failed error []
  | .ok p =>
    if a.dryRun then printed (p.finder.queryDocument p.service).pretty []
    else
      match report p with
      | (sent, .ok r) => printed r.toJson.pretty sent
      | (sent, .error error) => failed (.search error) sent

/-- A run that ends with the command line: help and version are printed, all else is an error. -/
def usageOutcome : UsageError → Outcome
  | .help => ⟨0, Help.text name, none, []⟩
  | .version => printed (name ++ " " ++ version) []
  | _ => ⟨2, "", none, []⟩

/-- A run of the program. -/
def run (connection : Http.Connection) (arguments : List String) (files : Files) : Outcome :=
  match Arguments.parse arguments with
  | .error error => usageOutcome error
  | .ok a => runArguments connection a files

end HarvestSearch.Program
