/-
# Decimal literals and the numbers they stand for

A literal is a sign, whole digits, and optionally digits after a point and an
exponent. Its number is an integer when it is written as one and fits 64 bits
(signed below zero, unsigned above), and a binary64 number otherwise.

Binary64 numbers are read in two roundings, not one: the digits are gathered into a
64-bit significand (digits past what fits keep their place but lose their value),
the significand is rounded, and the result is multiplied or divided by a rounded
power of ten. The answer can differ from the nearest number in the last place, and
readers that exchange text with other tools of this family must agree on it.

Key definitions: `Number`, `Literal`, `Literal.number?`.
-/
import TraceBacklog.Number.Shortest

namespace TraceBacklog

/-- A number of a JSON document. -/
inductive Number where
  | int (n : Int)
  | float (x : Binary64)
deriving DecidableEq, Repr, Inhabited

namespace Number

/-- An integer in decimal, a binary64 number with the fewest digits. -/
def text : Number → String
  | .int n => toString n
  | .float x => x.text

end Number

/-- The exponent part of a literal. -/
structure ExponentPart where
  negative : Bool
  digits : List Nat
deriving DecidableEq, Repr

def ExponentPart.value (e : ExponentPart) : Int :=
  if e.negative then -(denote e.digits : Int) else denote e.digits

/-- A decimal literal; `fraction` is empty when there is no point. -/
structure Literal where
  negative : Bool
  whole : List Nat
  fraction : List Nat
  exponent : Option ExponentPart
deriving DecidableEq, Repr

namespace Literal

/-- Appends digits to a significand while it fits a word; gives back the digits that
no longer do. -/
def gather (acc : Nat) : List Nat → Nat × List Nat
  | [] => (acc, [])
  | d :: ds => if acc * 10 + d < wordBound then gather (acc * 10 + d) ds else (acc, d :: ds)

/-- The largest power of ten used in one step. -/
def stepExponent : Nat := 308

/-- `x * 10 ^ e` by rounded powers of ten of at most `10 ^ 308` each; `none` beyond the
largest finite number. Three steps down take any significand to zero. -/
def scaleBy : Nat → Binary64 → Int → Option Binary64
  | 0, x, _ => some x
  | fuel + 1, x, e =>
    if e.natAbs ≤ stepExponent then do
      let power ← Binary64.ofNat? (tenTo e.natAbs)
      if 0 ≤ e then x.mul power else x.div power
    else if x.isZero then some x
    else if 0 ≤ e then none
    else do
      let power ← Binary64.ofNat? (tenTo stepExponent)
      let smaller ← x.div power
      scaleBy fuel smaller (e + stepExponent)

/-- The binary64 number of a significand and a decimal exponent. -/
def float? (negative : Bool) (significand : Nat) (e : Int) : Option Number := do
  let start ← Binary64.ofNat? significand
  let x ← scaleBy 4 start e
  return .float (if negative then x.neg else x)

/-- Written without point and exponent, with digits that fit a word. -/
def integer? (negative : Bool) (significand : Nat) : Option Number :=
  if !negative then some (.int significand)
  else if 0 < significand && significand ≤ signedBound then some (.int (-(significand : Int)))
  else float? true significand 0

/-- The number of a literal; `none` if it is beyond the largest finite number. -/
def number? (l : Literal) : Option Number :=
  let (whole, dropped) := gather 0 l.whole
  if dropped.isEmpty && l.fraction.isEmpty && l.exponent.isNone then integer? l.negative whole
  else
    let (significand, ignored) := gather whole l.fraction
    let places : Int := (dropped.length : Int) - ((l.fraction.length - ignored.length : Nat) : Int)
    let shift : Int := match l.exponent with
      | none => 0
      | some e => e.value
    float? l.negative significand (places + shift)

end Literal

end TraceBacklog
