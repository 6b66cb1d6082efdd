/-
The command line: options and what they ask for.

Options are read from left to right. An option without a value attached to it takes the next argument,
and is settled only when the next option or the end is reached; so an unknown argument is reported
before a bad value in front of it. An option that may stand only once is refused the second time,
before its value is looked at.

`Arguments` is `gleaner_query::Args`, and `Arguments.request` is `gleaner_query::build_request`.
-/
import HarvestSearch.Catalog
import HarvestSearch.Json.Parser
import HarvestSearch.Request

set_option autoImplicit false

namespace HarvestSearch

/-! ## Options -/

inductive CliOption where
  | config
  | catalog
  | query
  | filter
  | exclude
  | service
  | includeVariant
  | excludeVariant
  | children
  | sort
  | start
  | limit
  | noFacets
  | dryRun
  | help
  | version
deriving DecidableEq, Repr, Inhabited

inductive OptionKind where
  -- a path, once
  | path
  -- a text, once
  | text
  -- a whole number, once
  | number
  -- a text, any number of times
  | texts
  -- nothing, once
  | flag
  -- nothing, and nothing behind it counts
  | exit
deriving DecidableEq, Repr

namespace CliOption

def kind : CliOption → OptionKind
  | .config => .path
  | .catalog => .path
  | .query => .text
  | .filter => .texts
  | .exclude => .texts
  | .service => .text
  | .includeVariant => .texts
  | .excludeVariant => .texts
  | .children => .flag
  | .sort => .texts
  | .start => .number
  | .limit => .number
  | .noFacets => .flag
  | .dryRun => .flag
  | .help => .exit
  | .version => .exit

def names : List (String × CliOption) := [
  ("config", .config), ("catalog", .catalog), ("query", .query), ("filter", .filter),
  ("exclude", .exclude), ("service", .service), ("include-variant", .includeVariant),
  ("exclude-variant", .excludeVariant), ("children", .children), ("sort", .sort),
  ("start", .start), ("limit", .limit), ("no-facets", .noFacets), ("dry-run", .dryRun),
  ("help", .help), ("version", .version)]

def letters : List (Char × CliOption) := [
  ('c', .config), ('q', .query), ('h', .help), ('V', .version)]

def takesValue (o : CliOption) : Bool :=
  match o.kind with
  | .path => true
  | .text => true
  | .number => true
  | .texts => true
  | .flag => false
  | .exit => false

def repeatable (o : CliOption) : Bool := o.kind = .texts

end CliOption

inductive UsageError where
  -- there is no such option, and arguments that belong to no option are not taken
  | unknownArgument
  -- an option lacks its value
  | missingValue
  -- the value of an option is no number
  | badNumber
  -- an option stands twice
  | repeated
  -- an option that takes no value has one
  | unexpectedValue
  -- an option that has to be there is not
  | missingOption
  -- help was asked for
  | help
  -- the version was asked for
  | version
deriving DecidableEq, Repr, Inhabited

/-! ## Values -/

/-- The number of a run of digits, with or without a plus sign, if it fits a word. -/
def parseWord? (text : String) : Option UInt64 :=
  let digits :=
    match text.toList with
    | '+' :: rest => rest
    | rest => rest
  if digits.isEmpty || !digits.all Char.isDigit then none
  else
    let n := Json.digitsValue digits
    if n ≤ Json.maxWord then some (UInt64.ofNat n) else none

/-- What was given so far: each option with its value, newest first. Options without values have an
empty one. -/
abbrev GivenOptions := List (CliOption × String)

/-- The value fits the option. -/
def checkValue (o : CliOption) (value : String) : Except UsageError Unit :=
  match o.kind with
  | .path => if value.isEmpty then .error .missingValue else .ok ()
  | .number => if (parseWord? value).isSome then .ok () else .error .badNumber
  | _ => .ok ()

/-- Takes an option with its value, unless it may stand only once and was given before. -/
def give (given : GivenOptions) (o : CliOption) (value : String) :
    Except UsageError GivenOptions := do
  if !o.repeatable && given.any (·.1 = o) then throw .repeated
  checkValue o value
  pure ((o, value) :: given)

/-! ## Reading -/

/-- An option that is not settled yet, with the argument it has taken. -/
structure PendingOption where
  option : CliOption
  value : Option String
deriving DecidableEq, Repr

/-- What was read so far. -/
structure ReadingState where
  given : GivenOptions
  pending : Option PendingOption
deriving Inhabited

namespace ReadingState

/-- Settles the pending option. -/
def settle (s : ReadingState) : Except UsageError ReadingState :=
  match s.pending with
  | none => .ok s
  | some ⟨_, none⟩ => .error .missingValue
  | some ⟨o, some value⟩ => do pure ⟨← give s.given o value, none⟩

/-- Takes an option, with the value that is attached to it if there is one. -/
def takeOption (s : ReadingState) (o : CliOption) (attached : Option String) :
    Except UsageError ReadingState := do
  if o.takesValue then
    let s ← s.settle
    match attached with
    | some value => pure ⟨← give s.given o value, none⟩
    | none => pure ⟨s.given, some ⟨o, none⟩⟩
  else
    if attached.isSome then throw .unexpectedValue
    let s ← s.settle
    match o with
    | .help => throw .help
    | .version => throw .version
    | o => pure ⟨← give s.given o "", none⟩

/-- Takes an option by its name, which may be followed by an equals sign and a value. -/
def takeName (s : ReadingState) (cs : List Char) : Except UsageError ReadingState :=
  let (name, attached) :=
    match Text.cutFirst '=' cs with
    | some (name, value) => (name, some (String.ofList value))
    | none => (cs, none)
  match CliOption.names.lookup (String.ofList name) with
  | some o => s.takeOption o attached
  | none => .error .unknownArgument

/-- Takes options by their letters. What follows the letter of an option that takes a value is its
value, with or without an equals sign. -/
def takeLetters (s : ReadingState) : List Char → Except UsageError ReadingState
  | [] => .ok s
  | c :: rest =>
    match CliOption.letters.lookup c with
    | none => .error .unknownArgument
    | some o =>
      if o.takesValue then
        match rest with
        | [] => s.takeOption o none
        | '=' :: value => s.takeOption o (some (String.ofList value))
        | value => s.takeOption o (some (String.ofList value))
      else do takeLetters (← s.takeOption o none) rest

/-- Takes an argument that is no option. Only a pending option can have a use for it. -/
def takeValue (s : ReadingState) (value : String) : Except UsageError ReadingState :=
  match s.pending with
  | some ⟨o, none⟩ => .ok ⟨s.given, some ⟨o, some value⟩⟩
  | _ => .error .unknownArgument

/-- Reads the arguments. Behind two dashes everything belongs to no option. -/
def readAll (s : ReadingState) : List String → Except UsageError ReadingState
  | [] => s.settle
  | argument :: rest =>
    match argument.toList with
    | ['-', '-'] => if rest.isEmpty then s.settle else .error .unknownArgument
    | '-' :: '-' :: name => do readAll (← s.takeName name) rest
    | '-' :: c :: letters => do readAll (← s.takeLetters (c :: letters)) rest
    | _ => do readAll (← s.takeValue argument) rest

end ReadingState

/-! ## Arguments -/

/-- What a command line asks for. -/
structure Arguments where
  config : String
  catalog : String
  query : Option String
  filters : List String
  excludes : List String
  service : Option String
  includeVariants : List String
  excludeVariants : List String
  children : Bool
  sorts : List String
  start : UInt64
  limit : Option UInt64
  noFacets : Bool
  dryRun : Bool
deriving DecidableEq, Repr, Inhabited

namespace Arguments

/-- The values of an option, in the order of the command line. -/
def valuesOf (given : GivenOptions) (o : CliOption) : List String :=
  (given.reverse.filter (·.1 = o)).map (·.2)

/-- The value of an option that stands at most once. -/
def valueOf? (given : GivenOptions) (o : CliOption) : Option String := given.lookup o

def has (given : GivenOptions) (o : CliOption) : Bool := (given.lookup o).isSome

/-- Collects what was given. Both files are required, and results start at the first one. -/
def ofGiven (given : GivenOptions) : Except UsageError Arguments := do
  let some config := valueOf? given .config | throw .missingOption
  let some catalog := valueOf? given .catalog | throw .missingOption
  pure {
    config := config
    catalog := catalog
    query := valueOf? given .query
    filters := valuesOf given .filter
    excludes := valuesOf given .exclude
    service := valueOf? given .service
    includeVariants := valuesOf given .includeVariant
    excludeVariants := valuesOf given .excludeVariant
    children := has given .children
    sorts := valuesOf given .sort
    start := ((valueOf? given .start).bind parseWord?).getD 0
    limit := (valueOf? given .limit).bind parseWord?
    noFacets := has given .noFacets
    dryRun := has given .dryRun }

/-- Reads a command line, without the name of the program. -/
def parse (arguments : List String) : Except UsageError Arguments := do
  let s ← ReadingState.readAll ⟨[], none⟩ arguments
  ofGiven s.given

/-! ## Requests -/

/-- A sort order of the command line names no field. -/
structure SortFault where
  raw : String
deriving DecidableEq, Repr, Inhabited

def SortFault.message (fault : SortFault) : String :=
  "Sort order '" ++ fault.raw ++ "' must name a field."

/-- The sort order that is meant: by the element of that name, if it is sortable, and by the field
itself otherwise. -/
def resolveOrder (catalog : Catalog) (order : SortOrder) : SortOrder :=
  match catalog.registry.find? order.field with
  | some element => if element.sortable then .byElement element order.direction else order
  | none => order

/-- The sort orders of a command line, one for one. -/
def orders (catalog : Catalog) : List String → Except SortFault (List SortOrder)
  | [] => .ok []
  | raw :: rest =>
    match SortOrder.parse? raw with
    | none => .error ⟨raw⟩
    | some order => do pure (resolveOrder catalog order :: (← orders catalog rest))

/-- The calls that put the request of a command line together. -/
def calls (a : Arguments) (orders : List SortOrder) : List Request.Call :=
  [ .filters (.list a.filters),
    .excludes (.list a.excludes),
    .includeVariants a.includeVariants,
    .excludeVariants a.excludeVariants,
    .includeChildren a.children,
    .start a.start,
    .aggregations (!a.noFacets),
    .order orders ]
  ++ a.query.toList.map .query
  ++ a.service.toList.map .contentService
  ++ a.limit.toList.map .limit

def request (a : Arguments) (catalog : Catalog) : Except SortFault Request := do
  pure (Request.initial.applyAll (a.calls (← orders catalog a.sorts)))

end Arguments

end HarvestSearch
