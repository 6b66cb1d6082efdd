/-
Finite doubles as exact numbers.

A `Binary64` is a sign, a whole significand and a power of two, so its value is the rational
`significand * 2 ^ exponent` and every operation on it is arithmetic on natural numbers. Values are
made by `round?`, which takes an exact quotient to the nearest representable number, a tie going to
the even significand, and answers `none` past the largest finite double. Two doubles are equal as
data exactly when they have the same bits, because `round?` always gives the same form: 53 bits of
significand, or fewer at the smallest exponent.

`ofDecimal?` is the rule by which decimal text becomes a double: the digits rounded to a double,
then one multiplication or division by a rounded power of ten.

It is also the rule of `serde_json::from_str`.
-/

set_option autoImplicit false

namespace HarvestSearch

/-- A finite double. Its magnitude is `significand * 2 ^ exponent`. -/
structure Binary64 where
  negative : Bool
  significand : Nat
  exponent : Int
deriving DecidableEq, Repr, Inhabited

namespace Binary64

/-! ## Powers -/

def twoPow (k : Nat) : Nat := Nat.pow 2 k

def tenPow (k : Nat) : Nat := Nat.pow 10 k

/-! ## Rounding -/

/-- The quotient rounded to the nearest whole number, a tie going to the even one. -/
def roundDiv (num den : Nat) : Nat :=
  let q := num / den
  let r := num % den
  if 2 * r < den then q
  else if den < 2 * r then q + 1
  else q + q % 2

/-- The least exponent of a double: below it there are no more bits. -/
def minExponent : Int := -1074

/-- The greatest exponent of a finite double. -/
def maxExponent : Int := 971

/-- `n * 2 ^ k` for `0 ≤ k`, and `n` otherwise: the factor a power of two puts on one side of a
fraction. -/
def scaleUp (n : Nat) (k : Int) : Nat := n * twoPow k.toNat

/-- The exponent at which the significand of `num / den` has 53 bits, or the least exponent. -/
def exponentOf (num den : Nat) : Int :=
  let top : Int := (Nat.log2 num : Int) - (Nat.log2 den : Int)
  let top := if scaleUp num (-top) < scaleUp den top then top - 1 else top
  max minExponent (top - 52)

/-- The double nearest to `num / den`, or nothing when that lies past the largest one. -/
def round? (negative : Bool) (num den : Nat) : Option Binary64 :=
  if num = 0 then some ⟨negative, 0, minExponent⟩
  else
    let e := exponentOf num den
    let s := roundDiv (scaleUp num (-e)) (scaleUp den e)
    let x : Binary64 :=
      if s = twoPow 53 then ⟨negative, twoPow 52, e + 1⟩ else ⟨negative, s, e⟩
    if maxExponent < x.exponent then none else some x

/-! ## Arithmetic -/

def mul? (x y : Binary64) : Option Binary64 :=
  let e := x.exponent + y.exponent
  round? (x.negative != y.negative) (scaleUp (x.significand * y.significand) e) (scaleUp 1 (-e))

/-- The quotient, rounded. The divisor is not zero where this is used. -/
def div? (x y : Binary64) : Option Binary64 :=
  let e := x.exponent - y.exponent
  round? (x.negative != y.negative) (scaleUp x.significand e) (scaleUp y.significand (-e))

def one : Binary64 := ⟨false, twoPow 52, -52⟩

/-- The double nearest to a power of ten. -/
def powTen? (k : Nat) : Option Binary64 := round? false (tenPow k) 1

/-! ## Decimal text -/

def maxPowTen : Nat := 308

/-- `x` times a power of ten. A power below `10 ^ -308` is taken in steps, and a nonzero value times
a power above `10 ^ 308` is out of range. -/
def scaleTen? (x : Binary64) (k : Int) : Option Binary64 :=
  if x.significand = 0 then some x
  else if _ : k < -(maxPowTen : Int) then do
    let step ← powTen? maxPowTen
    let y ← x.div? step
    y.scaleTen? (k + maxPowTen)
  else if k < 0 then do
    let p ← powTen? (-k).toNat
    x.div? p
  else if k ≤ maxPowTen then do
    let p ← powTen? k.toNat
    x.mul? p
  else none
termination_by (-k).toNat
decreasing_by simp only [maxPowTen] at *; omega

/-- The double that the digits and the power of ten of a decimal number stand for. -/
def ofDecimal? (negative : Bool) (digits : Nat) (power : Int) : Option Binary64 := do
  let x ← round? false digits 1
  let y ← x.scaleTen? power
  pure { y with negative := negative }

end Binary64

end HarvestSearch
