/-
Reading JSON text.

The leaves come first: blanks, numbers and strings, each a function that takes what it recognises off
the front of the text and returns the rest. The containers follow, in one recursion that is bounded
by a count: every step takes a character, so twice the length of the text is always enough, and
`parse?` passes just that. Text nested deeper than `maxDepth` is refused.

A number without point and exponent that fits 64 bits, signed or not, is kept exactly; every other
number is a double. Its digits are gathered into one 64-bit word: a digit of the whole part that does
not fit any more only shifts the value, one of the fraction is dropped.

`parse?` is `serde_json::from_str` for a `serde_json::Value`.
-/
import HarvestSearch.Json.Basic

set_option autoImplicit false

namespace HarvestSearch.Json

/-- The containers that may be open at the same time. -/
def maxDepth : Nat := 127

/-! ## Blanks -/

/-- The four blanks that may stand between tokens. -/
def isBlankChar (c : Char) : Bool := c == ' ' || c == '\n' || c == '\t' || c == '\r'

/-- The text from its first character that is no blank. -/
def skipBlanks (cs : List Char) : List Char := cs.dropWhile isBlankChar

/-! ## Numbers -/

def digitValue (c : Char) : Nat := c.toNat - '0'.toNat

/-- The number that a run of digits stands for. -/
def digitsValue (cs : List Char) : Nat := cs.foldl (fun n c => 10 * n + digitValue c) 0

/-- Gathers digits while they fit a word; gives the word and how many digits it took. -/
def gather (word taken : Nat) : List Char → Nat × Nat
  | [] => (word, taken)
  | c :: cs =>
    let next := 10 * word + digitValue c
    if next ≤ maxWord then gather next (taken + 1) cs else (word, taken)

/-- The exponent part, if the text starts with one: its value and the rest. Without a letter there is
nothing to read; after the letter a digit has to follow. -/
def exponent? (cs : List Char) : Option (Option Int × List Char) :=
  match cs with
  | c :: rest =>
    if c == 'e' || c == 'E' then
      let (negative, rest) :=
        match rest with
        | '+' :: rest => (false, rest)
        | '-' :: rest => (true, rest)
        | rest => (false, rest)
      let digits := rest.takeWhile Char.isDigit
      if digits.isEmpty then none
      else
        let n : Int := digitsValue digits
        some (some (if negative then -n else n), rest.dropWhile Char.isDigit)
    else some (none, cs)
  | [] => some (none, [])

/-- The fraction part, if the text starts with one: its digits and the rest. After the point a digit
has to follow. -/
def fraction? (cs : List Char) : Option (Option (List Char) × List Char) :=
  match cs with
  | '.' :: rest =>
    let digits := rest.takeWhile Char.isDigit
    if digits.isEmpty then none else some (some digits, rest.dropWhile Char.isDigit)
  | cs => some (none, cs)

/-- A number without fraction and exponent whose digits fit a word. Minus zero and numbers below
the least signed word are doubles. -/
def wordNumber (negative : Bool) (word : Nat) : Option Json :=
  if !negative then some (.int word)
  else if word = 0 ∨ signedMagnitude < word then (Binary64.ofDecimal? true word 0).map .float
  else some (.int (-(word : Int)))

/-- The number at the front of the text, behind its sign. A leading zero stands alone. -/
def number? (negative : Bool) (cs : List Char) : Option (Json × List Char) := do
  let whole := cs.takeWhile Char.isDigit
  if whole.isEmpty || (whole.head? == some '0' && whole.length != 1) then none
  let (fraction, rest) ← fraction? (cs.dropWhile Char.isDigit)
  let (exponent, rest) ← exponent? rest
  let (word, taken) := gather 0 0 whole
  let dropped := whole.length - taken
  if fraction.isNone && exponent.isNone && dropped == 0 then
    pure (← wordNumber negative word, rest)
  else
    let (word, places) := gather word 0 (fraction.getD [])
    let power : Int := (dropped : Int) - (places : Int) + exponent.getD 0
    pure (.float (← Binary64.ofDecimal? negative word power), rest)

/-! ## Strings -/

def hexDigit? (c : Char) : Option Nat :=
  if '0' ≤ c ∧ c ≤ '9' then some (c.toNat - '0'.toNat)
  else if 'a' ≤ c ∧ c ≤ 'f' then some (c.toNat - 'a'.toNat + 10)
  else if 'A' ≤ c ∧ c ≤ 'F' then some (c.toNat - 'A'.toNat + 10)
  else none

/-- The number that hexadecimal digits stand for, if they all are. -/
def hexValue? (cs : List Char) : Option Nat :=
  cs.foldl (fun acc c => do pure (16 * (← acc) + (← hexDigit? c))) (some 0)

/-- The character that one of the short escapes stands for. -/
def shortEscape? (c : Char) : Option Char :=
  match c with
  | '"' => some '"'
  | '\\' => some '\\'
  | '/' => some '/'
  | 'b' => some (Char.ofNat 8)
  | 'f' => some (Char.ofNat 12)
  | 'n' => some '\n'
  | 'r' => some '\r'
  | 't' => some '\t'
  | _ => none

/-- The first half of a character beyond 16 bits. -/
def isHighHalf (n : Nat) : Bool := 0xD800 ≤ n && n < 0xDC00

/-- The second half of a character beyond 16 bits. -/
def isLowHalf (n : Nat) : Bool := 0xDC00 ≤ n && n < 0xE000

/-- The string up to its closing quote, with the characters before it in reverse, and the rest. -/
def stringFrom? (before : List Char) : List Char → Option (String × List Char)
  | [] => none
  | '"' :: rest => some (String.ofList before.reverse, rest)
  | '\\' :: 'u' :: a :: b :: c :: d :: rest =>
    match hexValue? [a, b, c, d] with
    | none => none
    | some n =>
      if isHighHalf n then
        match rest with
        | '\\' :: 'u' :: e :: f :: g :: h :: rest =>
          match hexValue? [e, f, g, h] with
          | none => none
          | some m =>
            if isLowHalf m then
              let code := 0x10000 + 0x400 * (n - 0xD800) + (m - 0xDC00)
              stringFrom? (Char.ofNat code :: before) rest
            else none
        | _ => none
      else if isLowHalf n then none
      else stringFrom? (Char.ofNat n :: before) rest
  | '\\' :: c :: rest =>
    match shortEscape? c with
    | some e => stringFrom? (e :: before) rest
    | none => none
  | c :: rest => if c.toNat < 32 || c == '\\' then none else stringFrom? (c :: before) rest

/-- The quoted string at the front of the text. -/
def string? : List Char → Option (String × List Char)
  | '"' :: rest => stringFrom? [] rest
  | _ => none

/-! ## Values -/

/-- The text behind a word that it has to start with. -/
def expect? : List Char → List Char → Option (List Char)
  | [], rest => some rest
  | _ :: _, [] => none
  | c :: word, d :: rest => if c = d then expect? word rest else none

mutual

/-- The value at the front of the text. -/
def valueFrom? (steps depth : Nat) (cs : List Char) : Option (Json × List Char) :=
  match steps with
  | 0 => none
  | steps + 1 =>
    match skipBlanks cs with
    | [] => none
    | c :: rest =>
      if c = 'n' then (expect? "ull".toList rest).map (Json.null, ·)
      else if c = 't' then (expect? "rue".toList rest).map (Json.bool true, ·)
      else if c = 'f' then (expect? "alse".toList rest).map (Json.bool false, ·)
      else if c = '"' then (stringFrom? [] rest).map fun (s, rest) => (.string s, rest)
      else if c = '-' then number? true rest
      else if c.isDigit then number? false (c :: rest)
      else if c = '[' then
        match depth, skipBlanks rest with
        | 0, _ => none
        | _ + 1, ']' :: rest => some (.array [], rest)
        | depth + 1, rest => itemsFrom? steps depth [] rest
      else if c = '{' then
        match depth, skipBlanks rest with
        | 0, _ => none
        | _ + 1, '}' :: rest => some (.object [], rest)
        | depth + 1, rest => membersFrom? steps depth .empty rest
      else none

/-- The items from here to the end of the array, after those already read, in reverse. -/
def itemsFrom? (steps depth : Nat) (before : List Json) (cs : List Char) :
    Option (Json × List Char) :=
  match steps with
  | 0 => none
  | steps + 1 =>
    match valueFrom? steps depth cs with
    | none => none
    | some (item, rest) =>
      match skipBlanks rest with
      | ',' :: rest => itemsFrom? steps depth (item :: before) rest
      | ']' :: rest => some (.array (item :: before).reverse, rest)
      | _ => none

/-- The members from here to the end of the object, added to those already read. -/
def membersFrom? (steps depth : Nat) (before : FieldMap Json) (cs : List Char) :
    Option (Json × List Char) :=
  match steps with
  | 0 => none
  | steps + 1 =>
    match string? (skipBlanks cs) with
    | none => none
    | some (key, rest) =>
      match skipBlanks rest with
      | ':' :: rest =>
        match valueFrom? steps depth rest with
        | none => none
        | some (value, rest) =>
          let members := before.insert key value
          match skipBlanks rest with
          | ',' :: rest => membersFrom? steps depth members rest
          | '}' :: rest => some (ofMap members, rest)
          | _ => none
      | _ => none

end

/-- The value that the whole text stands for. Only blanks may surround it. -/
def parseList? (cs : List Char) : Option Json := do
  let (value, rest) ← valueFrom? (2 * cs.length + 2) maxDepth cs
  if (skipBlanks rest).isEmpty then some value else none

/-- The value that the whole text stands for. -/
def parse? (text : String) : Option Json := parseList? text.toList

end HarvestSearch.Json
