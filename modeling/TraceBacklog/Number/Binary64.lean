/-
# Binary64 numbers, exactly

A finite number of the binary64 format is a sign and `mantissa * 2 ^ exponent`.
Rounding is done on ratios of natural numbers, so every step is exact and can be
computed inside a proof: `roundHalfEven` rounds a quotient to a whole number, a
half going to the even neighbour, and `Binary64.ofRatio` uses it on the grid that
the format has at the magnitude of the ratio. Sums do not occur; what readers of
decimal text need are a natural number, a product and a quotient.

Key definitions: `Binary64`, `roundHalfEven`, `Binary64.ofRatio`,
`Binary64.mul`, `Binary64.div`.
-/
import TraceBacklog.Number.Decimal

namespace TraceBacklog

/-- A finite binary64 number. Numbers that `ofRatio` makes have a mantissa below
`2 ^ 53`, and one of at least `2 ^ 52` unless the exponent is the least one. -/
structure Binary64 where
  negative : Bool
  mantissa : Nat
  exponent : Int
deriving DecidableEq, Repr, Inhabited

/-- `num / den` rounded to a whole number, a half going to the even neighbour. -/
def roundHalfEven (num den : Nat) : Nat :=
  let low := num / den
  let rest := num % den
  if 2 * rest < den then low
  else if den < 2 * rest then low + 1
  else low + low % 2

namespace Binary64

/-- The exponent of the finest grid, that of the subnormal numbers. -/
def minExponent : Int := -1074

/-- The exponent of the coarsest grid. -/
def maxExponent : Int := 971

/-- `num / den` as a ratio of multiples of `2 ^ q`. -/
def inUnits (num den : Nat) (q : Int) : Nat × Nat :=
  (num * twoTo (-q).toNat, den * twoTo q.toNat)

/-- The exponent of the grid on which `num / den` has 53 binary digits, or of the
finest grid if that one is coarser. -/
def gridExponent (num den : Nat) : Int :=
  let guess : Int := (Nat.log2 num : Int) - (Nat.log2 den : Int) - 53
  let scaled := inUnits num den guess
  max minExponent (if twoTo 53 ≤ scaled.1 / scaled.2 then guess + 1 else guess)

/-- The number nearest to `num / den`, a half going to the even mantissa; `none` if
that lies beyond the largest finite number. -/
def ofRatio (negative : Bool) (num den : Nat) : Option Binary64 :=
  if num = 0 then some ⟨negative, 0, minExponent⟩
  else
    let q := gridExponent num den
    let scaled := inUnits num den q
    let m := roundHalfEven scaled.1 scaled.2
    let rounded : Binary64 :=
      if m = twoTo 53 then ⟨negative, twoTo 52, q + 1⟩ else ⟨negative, m, q⟩
    if rounded.exponent ≤ maxExponent then some rounded else none

/-- The number nearest to a natural number. -/
def ofNat? (n : Nat) : Option Binary64 :=
  ofRatio false n 1

/-- Numerator of the magnitude. -/
def num (x : Binary64) : Nat := x.mantissa * twoTo x.exponent.toNat

/-- Denominator of the magnitude. -/
def den (x : Binary64) : Nat := twoTo (-x.exponent).toNat

def isZero (x : Binary64) : Bool := x.mantissa == 0

def neg (x : Binary64) : Binary64 := { x with negative := !x.negative }

/-- The rounded product. -/
def mul (x y : Binary64) : Option Binary64 :=
  ofRatio (x.negative != y.negative) (x.num * y.num) (x.den * y.den)

/-- The rounded quotient; the divisor is not zero. -/
def div (x y : Binary64) : Option Binary64 :=
  ofRatio (x.negative != y.negative) (x.num * y.den) (x.den * y.num)

end Binary64

end TraceBacklog
