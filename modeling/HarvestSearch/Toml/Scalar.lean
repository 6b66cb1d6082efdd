/-
TOML scalars: strings, numbers, truth values and dates.

Strings are taken off the front of the text, in their four forms. Everything else that is not quoted
is one run of characters, which `scalar?` recognises as a whole.
-/
import HarvestSearch.Json.Parser
import HarvestSearch.Toml.Value

set_option autoImplicit false

namespace HarvestSearch.Toml

/-! ## Characters -/

/-- The blanks inside a line. -/
def isBlank (c : Char) : Bool := c == ' ' || c == '\t'

/-- The text from its first character that is no blank. -/
def skipBlanks (cs : List Char) : List Char := cs.dropWhile isBlank

/-- A character that may stand in comments and, unless it has a meaning there, in strings: all but
control characters, of which only the tab may occur. -/
def isPlain (c : Char) : Bool := (32 ≤ c.toNat && c.toNat != 127) || c == '\t'

/-- The text behind a line end, if it starts with one. -/
def lineEnd? : List Char → Option (List Char)
  | '\n' :: rest => some rest
  | '\r' :: '\n' :: rest => some rest
  | _ => none

/-- The text behind one line end, if it starts with one, and the whole text otherwise. -/
def skipLineEnd (cs : List Char) : List Char := (lineEnd? cs).getD cs

/-! ## Escapes -/

/-- The character that one of the short escapes stands for. -/
def shortEscape? (c : Char) : Option Char :=
  match c with
  | 'b' => some (Char.ofNat 8)
  | 't' => some '\t'
  | 'n' => some '\n'
  | 'f' => some (Char.ofNat 12)
  | 'r' => some '\r'
  | 'e' => some (Char.ofNat 27)
  | '"' => some '"'
  | '\\' => some '\\'
  | _ => none

/-- How many hexadecimal digits follow the letter of a long escape. -/
def escapeDigits? (c : Char) : Option Nat :=
  match c with
  | 'x' => some 2
  | 'u' => some 4
  | 'U' => some 8
  | _ => none

/-- The character of a code point, if it is one. -/
def charOfCode? (n : Nat) : Option Char :=
  if n < 0xD800 ∨ (0xDFFF < n ∧ n < 0x110000) then some (Char.ofNat n) else none

/-- The character of the escape behind a backslash, and the rest. -/
def escape? (cs : List Char) : Option (Char × List Char) :=
  match cs with
  | [] => none
  | c :: rest =>
    match shortEscape? c, escapeDigits? c with
    | some e, _ => some (e, rest)
    | none, some count =>
      let digits := rest.take count
      if digits.length = count then do
        let n ← Json.hexValue? digits
        pure (← charOfCode? n, rest.drop count)
      else none
    | none, none => none

/-! ## Strings

Each reader takes the text behind the opening quotes and a bound on its steps, and gives the string
up to the closing quotes and the rest. -/

/-- Collects the characters of a string, newest first. -/
abbrev Collected := List Char

def collectedText (before : Collected) : String := String.ofList before.reverse

/-- A string in double quotes on one line. -/
def basicString? (steps : Nat) (before : Collected) (cs : List Char) :
    Option (String × List Char) :=
  match steps, cs with
  | 0, _ => none
  | _, [] => none
  | _, '"' :: rest => some (collectedText before, rest)
  | steps + 1, '\\' :: rest => do
    let (c, rest) ← escape? rest
    basicString? steps (c :: before) rest
  | steps + 1, c :: rest => if isPlain c then basicString? steps (c :: before) rest else none

/-- A string in single quotes on one line, without escapes. -/
def literalString? (before : Collected) : List Char → Option (String × List Char)
  | [] => none
  | '\'' :: rest => some (collectedText before, rest)
  | c :: rest => if isPlain c then literalString? (c :: before) rest else none

/-- The closing quotes of a string of several lines: three, before which one or two more belong to the
string. Gives how many belong to it and the rest. -/
def closingQuotes? (q : Char) (cs : List Char) : Option (Nat × List Char) :=
  let quotes := (cs.takeWhile (· == q)).length
  if quotes < 3 then none
  else
    let extra := min (quotes - 3) 2
    some (extra, cs.drop (extra + 3))

/-- The text from its first character that is part of no blank and no line end. -/
def skipLines : List Char → List Char
  | [] => []
  | '\n' :: rest => skipLines rest
  | '\r' :: '\n' :: rest => skipLines rest
  | c :: rest => if isBlank c then skipLines rest else c :: rest

/-- The text behind a backslash at the end of a line: the line end, and all blanks and line ends
after it. -/
def lineContinuation? (cs : List Char) : Option (List Char) := (lineEnd? (skipBlanks cs)).map skipLines

/-- A string of several lines in double quotes. Its line ends stay as they are written. -/
def basicText? (steps : Nat) (before : Collected) (cs : List Char) :
    Option (String × List Char) :=
  match steps with
  | 0 => none
  | steps + 1 =>
    match cs with
    | [] => none
    | '"' :: rest =>
      match closingQuotes? '"' cs with
      | some (extra, rest) => some (collectedText (List.replicate extra '"' ++ before), rest)
      | none => basicText? steps ('"' :: before) rest
    | '\\' :: rest =>
      match lineContinuation? rest with
      | some rest => basicText? steps before rest
      | none => do
        let (c, rest) ← escape? rest
        basicText? steps (c :: before) rest
    | '\n' :: rest => basicText? steps ('\n' :: before) rest
    | '\r' :: '\n' :: rest => basicText? steps ('\n' :: '\r' :: before) rest
    | c :: rest => if isPlain c then basicText? steps (c :: before) rest else none

/-- A string of several lines in single quotes, without escapes. Its line ends stay as they are
written. -/
def literalText? (steps : Nat) (before : Collected) (cs : List Char) :
    Option (String × List Char) :=
  match steps with
  | 0 => none
  | steps + 1 =>
    match cs with
    | [] => none
    | '\'' :: rest =>
      match closingQuotes? '\'' cs with
      | some (extra, rest) => some (collectedText (List.replicate extra '\'' ++ before), rest)
      | none => literalText? steps ('\'' :: before) rest
    | '\n' :: rest => literalText? steps ('\n' :: before) rest
    | '\r' :: '\n' :: rest => literalText? steps ('\n' :: '\r' :: before) rest
    | c :: rest => if isPlain c then literalText? steps (c :: before) rest else none

/-- The string at the front of the text, on one line. Keys are written so. -/
def lineString? (cs : List Char) : Option (String × List Char) :=
  match cs with
  | '"' :: rest => basicString? (rest.length + 1) [] rest
  | '\'' :: rest => literalString? [] rest
  | _ => none

/-- The string at the front of the text, in any of the four forms. The line end right behind the
opening quotes of a string of several lines does not belong to it. -/
def anyString? (cs : List Char) : Option (String × List Char) :=
  match cs with
  | '"' :: '"' :: '"' :: rest => basicText? (rest.length + 1) [] (skipLineEnd rest)
  | '\'' :: '\'' :: '\'' :: rest => literalText? (rest.length + 1) [] (skipLineEnd rest)
  | cs => lineString? cs

/-! ## Numbers -/

/-- Digits with single underscores between them, without the underscores. -/
def digitRun? (isDigit : Char → Bool) : List Char → Option (List Char)
  | [] => none
  | [c] => if isDigit c then some [c] else none
  | c :: '_' :: d :: rest =>
    if isDigit c then (digitRun? isDigit (d :: rest)).map (c :: ·) else none
  | c :: rest => if isDigit c then (digitRun? isDigit rest).map (c :: ·) else none

/-- The value of digits in a base. -/
def valueInBase (base : Nat) (digits : List Char) : Nat :=
  digits.foldl (fun n c => base * n + (Json.hexDigit? c).getD 0) 0

/-- A digit of a base up to sixteen. -/
def isDigitOf (base : Nat) (c : Char) : Bool :=
  match Json.hexDigit? c with
  | some n => n < base
  | none => false

/-- The sign at the front: whether it is a minus, and the rest. -/
def takeSign : List Char → Bool × List Char
  | '+' :: rest => (false, rest)
  | '-' :: rest => (true, rest)
  | rest => (false, rest)

/-- Decimal digits of a whole part: no zero in front of others. -/
def wholeDigits? (cs : List Char) : Option (List Char) := do
  let digits ← digitRun? Char.isDigit cs
  if digits.head? == some '0' && digits.length != 1 then none else some digits

/-- Whole numbers that are read at all lie in the range of 128 bits, with or without a sign. -/
def inIntegerRange (n : Int) : Bool :=
  -(Binary64.twoPow 127 : Int) ≤ n && n < Binary64.twoPow 128

/-- A whole number, in decimal with a sign or in another base without one. -/
def integer? (cs : List Char) : Option Int := do
  let n : Int ←
    match cs with
    | '0' :: 'x' :: rest => (digitRun? (isDigitOf 16) rest).map fun ds => Int.ofNat (valueInBase 16 ds)
    | '0' :: 'o' :: rest => (digitRun? (isDigitOf 8) rest).map fun ds => Int.ofNat (valueInBase 8 ds)
    | '0' :: 'b' :: rest => (digitRun? (isDigitOf 2) rest).map fun ds => Int.ofNat (valueInBase 2 ds)
    | cs =>
      let (negative, rest) := takeSign cs
      (wholeDigits? rest).map fun ds =>
        let n : Int := Json.digitsValue ds
        if negative then -n else n
  if inIntegerRange n then some n else none

/-- The exponent of a number: a sign and digits. -/
def exponentValue? (cs : List Char) : Option Int := do
  let (negative, rest) := takeSign cs
  let digits ← digitRun? Char.isDigit rest
  let n : Int := Json.digitsValue digits
  pure (if negative then -n else n)

/-- The double nearest to a decimal number. Powers so large or so small that the digits do not matter
are not computed. -/
def nearestDouble? (negative : Bool) (digits : List Char) (power : Int) : Option Binary64 :=
  let n := Json.digitsValue digits
  let size := power + (digits.length : Int)
  if n = 0 ∨ size < -400 then Binary64.round? negative 0 1
  else if 400 < size ∧ 0 < power then none
  else
    Binary64.round? negative (n * Binary64.tenPow power.toNat) (Binary64.tenPow (-power).toNat)

/-- A double: an infinity, no number, or digits with a fraction or an exponent. -/
def float? (cs : List Char) : Option (Option Binary64) := do
  let (negative, rest) := takeSign cs
  if rest = "inf".toList ∨ rest = "nan".toList then pure none
  else
    let isExponent (c : Char) : Bool := c == 'e' || c == 'E'
    let mantissa := rest.takeWhile fun c => !isExponent c
    let exponent ←
      match rest.dropWhile fun c => !isExponent c with
      | _ :: digits => (exponentValue? digits).map some
      | [] => pure none
    match mantissa.dropWhile (· != '.') with
    | _ :: digits =>
      let whole ← wholeDigits? (mantissa.takeWhile (· != '.'))
      let fraction ← digitRun? Char.isDigit digits
      let power := exponent.getD 0 - (fraction.length : Int)
      pure (some (← nearestDouble? negative (whole ++ fraction) power))
    | [] =>
      let power ← exponent
      pure (some (← nearestDouble? negative (← wholeDigits? mantissa) power))

/-! ## Dates and times -/

/-- The number of a fixed count of digits at the front, if it is in a range, and the rest. -/
def fixedNumber? (count low high : Nat) (cs : List Char) : Option (Nat × List Char) :=
  let digits := cs.take count
  if digits.length = count && digits.all Char.isDigit then
    let n := Json.digitsValue digits
    if low ≤ n && n ≤ high then some (n, cs.drop count) else none
  else none

/-- The text behind a character that it has to start with. -/
def expectChar? (c : Char) : List Char → Option (List Char)
  | d :: rest => if c = d then some rest else none
  | [] => none

def daysOf (year month : Nat) : Nat :=
  if month = 2 then
    if year % 4 = 0 && (year % 100 != 0 || year % 400 = 0) then 29 else 28
  else if month = 4 || month = 6 || month = 9 || month = 11 then 30
  else 31

/-- The text behind a date. -/
def date? (cs : List Char) : Option (List Char) := do
  let (year, rest) ← fixedNumber? 4 0 9999 cs
  let (month, rest) ← fixedNumber? 2 1 12 (← expectChar? '-' rest)
  let (_, rest) ← fixedNumber? 2 1 (daysOf year month) (← expectChar? '-' rest)
  pure rest

/-- The text behind the fraction of a second, if it starts with one. -/
def secondFraction? (cs : List Char) : Option (List Char) :=
  match cs with
  | '.' :: rest =>
    if (rest.takeWhile Char.isDigit).isEmpty then none else some (rest.dropWhile Char.isDigit)
  | cs => some cs

/-- The text behind a time of day, in which the seconds may be left out. -/
def time? (cs : List Char) : Option (List Char) := do
  let (_, rest) ← fixedNumber? 2 0 23 cs
  let (_, rest) ← fixedNumber? 2 0 59 (← expectChar? ':' rest)
  match rest with
  | ':' :: rest =>
    let (_, rest) ← fixedNumber? 2 0 60 rest
    secondFraction? rest
  | rest => some rest

/-- A time zone and nothing else, or nothing at all. -/
def isOffset (cs : List Char) : Bool :=
  match cs with
  | [] => true
  | ['Z'] => true
  | ['z'] => true
  | c :: rest =>
    (c == '+' || c == '-') &&
      ((fixedNumber? 2 0 23 rest).bind fun (_, rest) =>
        (expectChar? ':' rest).bind fun rest => fixedNumber? 2 0 59 rest).any (·.2.isEmpty)

/-- A date, a time of day, or a date and a time with or without a zone. -/
def isMoment (cs : List Char) : Bool :=
  match date? cs with
  | some [] => true
  | some (c :: rest) =>
    (c == 'T' || c == 't' || c == ' ') && (time? rest).any isOffset
  | none => (time? cs).any List.isEmpty

/-! ## Scalars without quotes -/

/-- A character of a scalar without quotes. -/
def isScalarChar (c : Char) : Bool :=
  c.isAlphanum || c == '_' || c == '+' || c == '-' || c == '.' || c == ':'

/-- The value that a run of characters stands for. -/
def scalar? (cs : List Char) : Option Value :=
  if cs = "true".toList then some (.bool true)
  else if cs = "false".toList then some (.bool false)
  else
    match integer? cs with
    | some n => some (.integer n)
    | none =>
      match float? cs with
      | some x => some (.float x)
      | none => if isMoment cs then some (.moment (String.ofList cs)) else none

/-- The run of characters at the front of the text that is one scalar, and the rest. A blank between
a date and a time belongs to the scalar. -/
def scalarRun (cs : List Char) : List Char × List Char :=
  let run := cs.takeWhile isScalarChar
  match cs.dropWhile isScalarChar with
  | ' ' :: c :: rest =>
    if c.isDigit && (date? run == some []) then
      (run ++ ' ' :: (c :: rest).takeWhile isScalarChar, (c :: rest).dropWhile isScalarChar)
    else (run, ' ' :: c :: rest)
  | rest => (run, rest)

end HarvestSearch.Toml
