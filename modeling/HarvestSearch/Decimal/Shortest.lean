/-
The decimal text of a double: the fewest digits that read back as the same number.

The reals that round to a given double form an interval around it, ends included exactly when the
significand is even. For one, two, … seventeen digits the two neighbours of the value on that decimal
grid are tested against the interval, in exact arithmetic; the first grid with a hit gives the
digits, and of two hits the nearer one is taken. Seventeen digits always suffice.

The digits are then written in place when the decimal exponent is in the range of a `Layout`, always
with a digit after the point, and with a signed exponent otherwise.

The text is that of an `f64` in `serde_json::to_string`.
-/
import HarvestSearch.Decimal.Binary64

set_option autoImplicit false

namespace HarvestSearch.Binary64

/-! ## The digits -/

/-- A positive rational, as the two sides of a fraction. -/
structure Ratio where
  num : Nat
  den : Nat

namespace Ratio

/-- `n * 2 ^ e`. -/
def ofScaled (n : Nat) (e : Int) : Ratio := ⟨scaleUp n e, scaleUp 1 (-e)⟩

/-- `n * 10 ^ k`. -/
def ofDecimal (n : Nat) (k : Int) : Ratio := ⟨n * tenPow k.toNat, tenPow (-k).toNat⟩

def less (a b : Ratio) : Bool := a.num * b.den < b.num * a.den

def same (a b : Ratio) : Bool := a.num * b.den == b.num * a.den

/-- The power of ten that the value reaches: `10 ^ k ≤ value < 10 ^ (k + 1)`. -/
def decimalExponent (a : Ratio) : Int :=
  if a.den ≤ a.num then ((Nat.toDigits 10 (a.num / a.den)).length : Int) - 1
  else
    let places := (Nat.toDigits 10 (a.den / a.num)).length
    if a.den ≤ a.num * tenPow (places - 1) then -((places : Int) - 1) else -(places : Int)

/-- The value in units of `10 ^ k`, rounded down. -/
def floorAt (a : Ratio) (k : Int) : Nat := a.num * tenPow (-k).toNat / (a.den * tenPow k.toNat)

end Ratio

/-- The interval of the reals that round to a positive double. -/
structure Interval where
  low : Ratio
  high : Ratio
  closed : Bool

/-- The interval ends half way to each neighbour; below a power of two the neighbour is half as far,
except at the least exponent. -/
def interval (x : Binary64) : Interval :=
  let m := 4 * x.significand
  let below := if x.significand = twoPow 52 && x.exponent != minExponent then 1 else 2
  { low := .ofScaled (m - below) (x.exponent - 2)
    high := .ofScaled (m + 2) (x.exponent - 2)
    closed := x.significand % 2 == 0 }

def Interval.contains (i : Interval) (a : Ratio) : Bool :=
  (i.low.less a && a.less i.high) || (i.closed && (a.same i.low || a.same i.high))

/-- The nearest number with `count` digits that rounds to the double, if there is one: the digits
and the power of ten of the last one. -/
def digitsAt (i : Interval) (value : Ratio) (exponent : Int) (count : Nat) : Option (Nat × Int) :=
  let unit := exponent - (count : Int) + 1
  let down := value.floorAt unit
  let up := down + 1
  match i.contains (.ofDecimal down unit), i.contains (.ofDecimal up unit) with
  | true, true =>
    let twice : Ratio := ⟨2 * value.num, value.den⟩
    let middle := Ratio.ofDecimal (down + up) unit
    if twice.less middle || (twice.same middle && down % 2 == 0) then some (down, unit)
    else some (up, unit)
  | true, false => some (down, unit)
  | false, true => some (up, unit)
  | false, false => none

/-- The fewest digits that read back, with the power of ten of the last one. -/
def shortestDigits (x : Binary64) : Nat × Int :=
  let value := Ratio.ofScaled x.significand x.exponent
  let exponent := value.decimalExponent
  let i := x.interval
  let counts := (List.range 17).map (· + 1)
  (counts.findSome? (digitsAt i value exponent)).getD
    (value.floorAt (exponent - 16), exponent - 16)

/-! ## The text -/

/-- The range of the decimal exponents of numbers that are written in place, both ends included. -/
structure Layout where
  least : Int
  greatest : Int
deriving DecidableEq, Repr

/-- The digits without zeros at the end. -/
def stripZeros (digits : List Char) : List Char := (digits.reverse.dropWhile (· == '0')).reverse

/-- Digits written in place: the first one has the weight `10 ^ exponent`, and at least one digit
follows the point. -/
def positionalText (digits : List Char) (exponent : Int) : List Char :=
  if exponent < 0 then
    '0' :: '.' :: (List.replicate (-exponent - 1).toNat '0' ++ digits)
  else
    let places := exponent.toNat + 1
    let whole := digits.take places ++ List.replicate (places - digits.length) '0'
    let rest := digits.drop places
    whole ++ '.' :: (if rest.isEmpty then ['0'] else rest)

/-- Digits written with one of them before the point and a signed exponent. -/
def scientificText (digits : List Char) (exponent : Int) : List Char :=
  let lead := digits.take 1
  let rest := digits.drop 1
  let sign := if exponent < 0 then '-' else '+'
  lead ++ (if rest.isEmpty then [] else '.' :: rest) ++ 'e' :: sign ::
    Nat.toDigits 10 exponent.natAbs

/-- The text of a double in a layout. -/
def toText (layout : Layout) (x : Binary64) : String :=
  let sign := if x.negative then ['-'] else []
  if x.significand = 0 then String.ofList (sign ++ ['0', '.', '0'])
  else
    let (digits, unit) := x.shortestDigits
    let text := Nat.toDigits 10 digits
    let exponent := unit + (text.length : Int) - 1
    let text := stripZeros text
    String.ofList (sign ++
      (if layout.least ≤ exponent && exponent ≤ layout.greatest then positionalText text exponent
       else scientificText text exponent))

end HarvestSearch.Binary64
