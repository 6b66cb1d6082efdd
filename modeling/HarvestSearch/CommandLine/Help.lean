/-
The help text: every option on a line of its own, with its letter, its value and what it does.

The lines have two columns. The second one begins two blanks behind the longest entry of the first,
so a line without a second entry still ends in blanks. What is said about a command line that is not
followed stands here too.

The options and what is said of them are those of `gleaner_query::Args`.
-/
import HarvestSearch.CommandLine

set_option autoImplicit false

namespace HarvestSearch

namespace CliOption

/-! ## What the help says about an option -/

/-- What stands for the value of an option. -/
def valueName : CliOption → Option String
  | .config => some "FILE"
  | .catalog => some "FILE"
  | .query => some "TEXT"
  | .filter => some "FIELD:VALUE"
  | .exclude => some "FIELD:VALUE"
  | .service => some "KEY"
  | .includeVariant => some "VARIANT"
  | .excludeVariant => some "VARIANT"
  | .sort => some "FIELD:DIR"
  | .start => some "START"
  | .limit => some "LIMIT"
  | .children => none
  | .noFacets => none
  | .dryRun => none
  | .help => none
  | .version => none

/-- What an option does. Some options go without saying. -/
def purpose : CliOption → String
  | .query => "Free-text query across every searchable element"
  | .filter => "Required `field:value` pair; repeat a field to match any of its values"
  | .service => "Content service key to scope the search to"
  | .children => "Include documents that have a parent"
  | .sort => "`element[:asc|desc]` or `field[:asc|desc]`"
  | .start => "[default: 0]"
  | .dryRun => "Print the query document instead of executing it"
  | .help => "Print help"
  | .version => "Print version"
  | _ => ""

/-- The letter of an option, if it has one. -/
def letter? (o : CliOption) : Option Char := (letters.find? fun entry => entry.2 = o).map (·.1)

/-- The letter of an option as the help shows it, or as many blanks. -/
def letterText (o : CliOption) : String :=
  match o.letter? with
  | some c => String.ofList ['-', c, ',', ' ']
  | none => "    "

/-- The value of an option as the help shows it. -/
def valueText (o : CliOption) : String :=
  match o.valueName with
  | some name => " <" ++ name ++ ">"
  | none => ""

end CliOption

/-! ## The text -/

namespace Help

/-- The entry of the first column. -/
def spelling (name : String) (o : CliOption) : String :=
  "  " ++ o.letterText ++ "--" ++ name ++ o.valueText

/-- The width of the first column: the longest entry and two blanks. -/
def width : Nat :=
  ((CliOption.names.map fun (name, o) => (spelling name o).length).foldl max 0) + 2

/-- The text with blanks behind it up to a width. -/
def padded (n : Nat) (s : String) : String :=
  s ++ String.ofList (List.replicate (n - s.length) ' ')

def optionLine (name : String) (o : CliOption) : String :=
  padded width (spelling name o) ++ o.purpose ++ "\n"

def text (program : String) : String :=
  "Usage: " ++ program ++ " [OPTIONS] --config <FILE> --catalog <FILE>\n\nOptions:\n"
    ++ String.join (CliOption.names.map fun (name, o) => optionLine name o)

end Help

/-! ## Complaints -/

/-- What is told about a command line that is not followed. Those who ask for help or for the version
get it without a complaint. -/
def UsageError.complaint? : UsageError → Option String
  | .unknownArgument => some "there is an argument that belongs to no option"
  | .missingValue => some "an option lacks its value"
  | .badNumber => some "the value of an option is not a whole number"
  | .repeated => some "an option that may stand once stands twice"
  | .unexpectedValue => some "an option that takes no value has one"
  | .missingOption => some "the options --config and --catalog are required"
  | .help => none
  | .version => none

end HarvestSearch
