/-
Reading TOML text.

A document is a list of statements, each on lines of its own, with blanks and comments around them.
Values nest in arrays and inline tables; the recursion over them is bounded by a count that the length
of the text always covers. Values nested deeper than `maxDepth` are refused, and so are keys with more
parts. Line ends and comments may stand anywhere between the parts of an array or an inline table, but
not inside a dotted key.

`parseJson?` is what `gleaner_config::load` and `gleaner_config::load_catalog` make of a file with
`toml::from_str`.
-/
import HarvestSearch.Toml.Scalar
import HarvestSearch.Toml.Table

set_option autoImplicit false

namespace HarvestSearch.Toml

/-- The number of arrays and inline tables that may be open at the same time, and of the parts that a
key may have. -/
def maxDepth : Nat := 80

/-! ## Between values -/

/-- The text behind a comment, up to the end of its line, if it starts with one. -/
def skipComment? : List Char → Option (List Char)
  | '#' :: rest =>
    match rest.dropWhile isPlain with
    | [] => some []
    | behind => if (lineEnd? behind).isSome then some behind else none
  | cs => some cs

/-- The text from its first character that is not part of a blank, a line end or a comment. -/
def skipSpace? (steps : Nat) (cs : List Char) : Option (List Char) :=
  match steps with
  | 0 => none
  | steps + 1 =>
    match skipBlanks cs with
    | [] => some []
    | '#' :: rest => do skipSpace? steps (← skipComment? ('#' :: rest))
    | c :: rest =>
      match lineEnd? (c :: rest) with
      | some rest => skipSpace? steps rest
      | none => some (c :: rest)

/-- The text behind the rest of a line, on which only a comment may stand. -/
def finishLine? (cs : List Char) : Option (List Char) := do
  match ← skipComment? (skipBlanks cs) with
  | [] => some []
  | rest => lineEnd? rest

/-! ## Keys -/

/-- A character of a key without quotes. -/
def isKeyChar (c : Char) : Bool := c.isAlphanum || c == '_' || c == '-'

/-- One part of a key, and the rest. -/
def keyPart? (cs : List Char) : Option (String × List Char) :=
  match cs with
  | '"' :: _ => lineString? cs
  | '\'' :: _ => lineString? cs
  | _ =>
    let part := cs.takeWhile isKeyChar
    if part.isEmpty then none else some (String.ofList part, cs.dropWhile isKeyChar)

/-- A key, the parts of which are joined by dots, and the rest from its first character that is no
blank. -/
def path? (steps : Nat) (cs : List Char) : Option (Path × List Char) :=
  match steps with
  | 0 => none
  | steps + 1 => do
    let (part, rest) ← keyPart? (skipBlanks cs)
    match skipBlanks rest with
    | '.' :: rest =>
      let (path, rest) ← path? steps rest
      pure (part :: path, rest)
    | rest => pure ([part], rest)

/-- A key that does not have too many parts, and the rest from its first character that is no blank. -/
def key? (cs : List Char) : Option (Path × List Char) := do
  let (path, rest) ← path? (cs.length + 1) cs
  if path.length ≤ maxDepth then some (path, rest) else none

/-- A key and the equals sign, between which line ends and comments may stand, and the rest from its
first character that belongs to neither. -/
def memberKey? (cs : List Char) : Option (Path × List Char) := do
  let (path, rest) ← key? cs
  match ← skipSpace? (rest.length + 1) rest with
  | '=' :: rest => pure (path, ← skipSpace? (rest.length + 1) rest)
  | _ => none

/-! ## Values -/

mutual

/-- The value at the front of the text, and the rest. -/
def value? (steps depth : Nat) (cs : List Char) : Option (Value × List Char) :=
  match steps with
  | 0 => none
  | steps + 1 =>
    match cs with
    | [] => none
    | c :: rest =>
      if c = '"' || c = '\'' then (anyString? cs).map fun (s, rest) => (.string s, rest)
      else if c = '[' then
        match depth with
        | 0 => none
        | depth + 1 => items? steps depth [] rest
      else if c = '{' then
        match depth with
        | 0 => none
        | depth + 1 => members? steps depth [] rest
      else
        let (run, rest) := scalarRun cs
        (scalar? run).map fun value => (value, rest)

/-- The items from here to the end of the array, after those already read, in reverse. -/
def items? (steps depth : Nat) (before : List Value) (cs : List Char) :
    Option (Value × List Char) :=
  match steps with
  | 0 => none
  | steps + 1 =>
    match skipSpace? (cs.length + 1) cs with
    | none => none
    | some (']' :: rest) => some (.array before.reverse, rest)
    | some cs =>
      match value? steps depth cs with
      | none => none
      | some (item, rest) =>
        match skipSpace? (rest.length + 1) rest with
        | some (',' :: rest) => items? steps depth (item :: before) rest
        | some (']' :: rest) => some (.array (item :: before).reverse, rest)
        | _ => none

/-- The members from here to the end of the inline table, added to those already read. -/
def members? (steps depth : Nat) (before : Entries) (cs : List Char) :
    Option (Value × List Char) :=
  match steps with
  | 0 => none
  | steps + 1 =>
    match skipSpace? (cs.length + 1) cs with
    | none => none
    | some ('}' :: rest) => some (.table .inlined before, rest)
    | some cs =>
      match memberKey? cs with
      | none => none
      | some (path, rest) =>
        match value? steps depth rest with
        | none => none
        | some (value, rest) =>
          match assign path value before, skipSpace? (rest.length + 1) rest with
          | some entries, some (',' :: rest) => members? steps depth entries rest
          | some entries, some ('}' :: rest) => some (.table .inlined entries, rest)
          | _, _ => none

end

/-! ## Statements -/

/-- The statement at the front of the text, and the text behind its line. -/
def statement? (cs : List Char) : Option (Statement × List Char) :=
  match cs with
  | '[' :: '[' :: rest => do
    let (path, rest) ← key? rest
    match rest with
    | ']' :: ']' :: rest => pure (.element path, ← finishLine? rest)
    | _ => none
  | '[' :: rest => do
    let (path, rest) ← key? rest
    match rest with
    | ']' :: rest => pure (.table path, ← finishLine? rest)
    | _ => none
  | cs => do
    let (path, rest) ← key? cs
    match rest with
    | '=' :: rest =>
      let (value, rest) ← value? (2 * rest.length + 2) maxDepth (skipBlanks rest)
      pure (.assign path value, ← finishLine? rest)
    | _ => none

/-- The statements from here to the end of the document. -/
def statements? (steps : Nat) (cs : List Char) : Option (List Statement) :=
  match steps with
  | 0 => none
  | steps + 1 => do
    match ← skipSpace? (cs.length + 1) cs with
    | [] => pure []
    | cs =>
      let (statement, rest) ← statement? cs
      pure (statement :: (← statements? steps rest))

/-- The text without the mark that says how it is encoded. -/
def dropByteOrderMark : List Char → List Char
  | '\uFEFF' :: rest => rest
  | cs => cs

/-- The entries of the document that the text stands for. -/
def parse? (text : String) : Option Entries := do
  let cs := dropByteOrderMark text.toList
  entriesOf (← statements? (cs.length + 1) cs)

def parseJson? (text : String) : Option Json := (parse? text).map fun es => .ofMembers (entriesToJson es)

end HarvestSearch.Toml
