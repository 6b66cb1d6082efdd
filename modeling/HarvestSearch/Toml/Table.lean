/-
Building the tables of a TOML document.

Three things are said about tables: a value is assigned under a dotted key, a header opens a table, a
header in double brackets appends a table to a list. Each is refused when it would define something
twice or reach into something closed. `descend` finds the table at a path of headers, making the
tables above it on the way; of a list of tables it takes the last one.
-/
import HarvestSearch.Toml.Value

set_option autoImplicit false

namespace HarvestSearch.Toml

/-- A path of keys. -/
abbrev Path := List String

/-- The entries with the value of a key replaced. -/
def replaceEntry (key : String) (value : Value) : Entries → Entries
  | [] => []
  | (k, v) :: rest => if k = key then (k, value) :: rest else (k, v) :: replaceEntry key value rest

/-- The entries with a new one at the end. A key that is there is refused. -/
def addEntry (key : String) (value : Value) (entries : Entries) : Option Entries :=
  match entries.lookup key with
  | some _ => none
  | none => some (entries ++ [(key, value)])

/-- The list of tables with its last table changed. -/
def changeLast (change : TableKind → Entries → Option Entries) (items : List Value) :
    Option (List Value) := do
  let .table kind entries ← items.getLast? | none
  pure (items.dropLast ++ [.table kind (← change kind entries)])

/-! ## Assignments -/

/-- Dotted keys may add to a table of this kind: one that dotted keys made, or one that only stands
above headers. -/
def TableKind.takesDotted : TableKind → Bool
  | .implied => true
  | .dotted => true
  | .declared => false
  | .inlined => false

/-- The kind of a table after a value was assigned under a path in it. A table that stood above headers
counts as made by dotted keys once a dotted key puts a value right into it. -/
def TableKind.afterDotted (kind : TableKind) (path : Path) : TableKind :=
  if path.length = 1 then .dotted else kind

/-- Assigns a value under a key that may be dotted, in a table of the given kind. The value may go
into a list of tables, but not right into its last table, which has a header of its own. -/
def assignIn (value : Value) (behindDot : Bool) (kind : TableKind) (entries : Entries) :
    Path → Option Entries
  | [] => none
  | [key] => if behindDot && !kind.takesDotted then none else addEntry key value entries
  | key :: next :: path =>
    match entries.lookup key with
    | none => do
      let inner ← assignIn value true .dotted [] (next :: path)
      pure (entries ++ [(key, .table .dotted inner)])
    | some (.table kind inner) =>
      if kind.takesDotted then do
        let inner ← assignIn value true kind inner (next :: path)
        pure (replaceEntry key (.table (kind.afterDotted (next :: path)) inner) entries)
      else none
    | some (.tables items) => do
      let items ← changeLast (fun kind inner => assignIn value true kind inner (next :: path)) items
      pure (replaceEntry key (.tables items) entries)
    | some _ => none

/-- Assigns a value under a key that may be dotted. -/
def assign (path : Path) (value : Value) (entries : Entries) : Option Entries :=
  assignIn value false .declared entries path

/-! ## Headers -/

/-- Changes the table at a path of headers. Tables that are missing on the way are made. -/
def descend (change : Entries → Option Entries) (entries : Entries) : Path → Option Entries
  | [] => change entries
  | key :: path =>
    match entries.lookup key with
    | none => do
      let inner ← descend change [] path
      pure (entries ++ [(key, .table .implied inner)])
    | some (.table .inlined _) => none
    | some (.table kind inner) => do
      let inner ← descend change inner path
      pure (replaceEntry key (.table kind inner) entries)
    | some (.tables items) => do
      let items ← changeLast (fun _ inner => descend change inner path) items
      pure (replaceEntry key (.tables items) entries)
    | some _ => none

/-- Opens the table of a key, which may exist only as one that stands above headers. -/
def openTable (key : String) (entries : Entries) : Option Entries :=
  match entries.lookup key with
  | none => some (entries ++ [(key, .table .declared [])])
  | some (.table .implied inner) => some (replaceEntry key (.table .declared inner) entries)
  | some _ => none

/-- Appends a table to the list of a key. -/
def appendTable (key : String) (entries : Entries) : Option Entries :=
  match entries.lookup key with
  | none => some (entries ++ [(key, .tables [.table .declared []])])
  | some (.tables items) =>
    some (replaceEntry key (.tables (items ++ [.table .declared []])) entries)
  | some _ => none

/-! ## Documents -/

/-- One statement of a document. -/
inductive Statement where
  -- a value for a key of the open table
  | assign (path : Path) (value : Value)
  -- a header
  | table (path : Path)
  -- a header in double brackets
  | element (path : Path)
deriving Repr, Inhabited

/-- A document so far: all its entries, and the path of the table that is open. -/
structure Building where
  entries : Entries
  current : Path
deriving Repr, Inhabited

/-- The document after one more statement. -/
def Building.add (b : Building) : Statement → Option Building
  | .assign path value => do
    pure { b with entries := ← descend (Toml.assign path value) b.entries b.current }
  | .table path => do
    let key ← path.getLast?
    pure ⟨← descend (openTable key) b.entries path.dropLast, path⟩
  | .element path => do
    let key ← path.getLast?
    pure ⟨← descend (appendTable key) b.entries path.dropLast, path⟩

/-- The entries that the statements of a document make. -/
def entriesOf (statements : List Statement) : Option Entries := do
  let built ← statements.foldlM Building.add ⟨[], []⟩
  pure built.entries

end HarvestSearch.Toml
