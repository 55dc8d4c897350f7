/-
# The shortest decimal text of a binary64 number

Of all decimals that round to a number, the text shows one with the fewest digits,
and of those the one nearest to the number, a tie going to the even digit. The
search works on exact ratios: `Shortest.Span` is the interval of reals that round
to the number (ends included when the mantissa is even), and `Shortest.search`
tries grids of 1, 2, ... 17 digits, on each the two neighbours of the number.

The layout keeps positional notation while the decimal point falls inside or next
to the digits, and writes an exponent with its sign otherwise.

Key definitions: `Shortest.digits`, `Shortest.layout`, `Binary64.text`.
-/
import TraceBacklog.Number.Binary64

namespace TraceBacklog

namespace Shortest

/-- A positive number `centre` quarters of a unit, and the least and greatest
points that round to it. A unit is `unitNum / unitDen`. -/
structure Span where
  low : Nat
  centre : Nat
  high : Nat
  unitNum : Nat
  unitDen : Nat
  closed : Bool

/-- The interval of a positive number. Below a power of two the grid is twice as
fine, so the lower half of the interval is a quarter there. -/
def Span.ofNumber (m : Nat) (q : Int) : Span :=
  let e := q - 2
  { low := 4 * m - (if m = twoTo 52 && Binary64.minExponent < q then 1 else 2)
    centre := 4 * m
    high := 4 * m + 2
    unitNum := twoTo e.toNat
    unitDen := twoTo (-e).toNat
    closed := m % 2 = 0 }

/-- Does `d * 10 ^ k` lie in the interval? -/
def Span.holds (s : Span) (d : Nat) (k : Int) : Bool :=
  let point := d * tenTo k.toNat * s.unitDen
  let scale := tenTo (-k).toNat * s.unitNum
  if s.closed then s.low * scale ≤ point && point ≤ s.high * scale
  else s.low * scale < point && point < s.high * scale

/-- The greatest `d` with `d * 10 ^ k` at most the number, and twice what is left
over, compared with one step of the grid. -/
def Span.floor (s : Span) (k : Int) : Nat × Ordering :=
  let value := s.centre * (tenTo (-k).toNat * s.unitNum)
  let step := tenTo k.toNat * s.unitDen
  (value / step, compare (2 * (value % step)) step)

/-- The candidate on the grid of `10 ^ k`: of the neighbours of the number that lie
in the interval the nearer one, on a tie the even one. -/
def Span.candidate (s : Span) (k : Int) : Option Nat :=
  let (d, side) := s.floor k
  match s.holds d k, s.holds (d + 1) k with
  | false, false => none
  | true, false => some d
  | false, true => some (d + 1)
  | true, true =>
    match side with
    | .lt => some d
    | .gt => some (d + 1)
    | .eq => some (d + d % 2)

/-- Is the number at least `10 ^ k`? -/
def Span.reaches (s : Span) (k : Int) : Bool :=
  tenTo k.toNat * s.unitDen ≤ s.centre * (tenTo (-k).toNat * s.unitNum)

/-- The position of the first digit: the greatest `k` with `10 ^ k` at most the
number, found from an estimate that is at most one off. -/
def Span.leading (s : Span) (m : Nat) (q : Int) : Int :=
  let guess := ((Nat.log2 m : Int) + q) * 30103 / 100000
  if s.reaches (guess + 1) then guess + 1
  else if s.reaches guess then guess
  else guess - 1

/-- Tries ever finer grids, `tries` of them, from the one of `10 ^ k` on. -/
def Span.search (s : Span) : Nat → Int → Nat × Int
  | 0, k => ((s.floor k).1, k)
  | tries + 1, k =>
    match s.candidate k with
    | some d => (d, k)
    | none => s.search tries (k - 1)

/-- Moves the zeros at the end of a number into its exponent; `fuel` bounds how many. -/
def dropZeros : Nat → Nat → Int → Nat × Int
  | 0, d, k => (d, k)
  | fuel + 1, d, k => if d ≠ 0 && d % 10 = 0 then dropZeros fuel (d / 10) (k + 1) else (d, k)

/-- The shortest decimal `d * 10 ^ k` of the positive number `m * 2 ^ q`. -/
def digits (m : Nat) (q : Int) : Nat × Int :=
  let s := Span.ofNumber m q
  let (d, k) := s.search 17 (s.leading m q)
  dropZeros 20 d k

def zeros (n : Nat) : String := String.ofList (List.replicate n '0')

/-- An exponent with its sign. -/
def signed (e : Int) : String :=
  if e < 0 then toString e else "+" ++ toString e

/-- Writes `d * 10 ^ k`. The point stands after position `digits + k`; positional
notation serves from `0.00001` up to sixteen digits before the point. -/
def layout (d : Nat) (k : Int) : String :=
  let text := toString d
  let point : Int := (text.length : Int) + k
  if 0 ≤ k && point ≤ 16 then text ++ zeros k.toNat ++ ".0"
  else if 0 < point && point ≤ 16 then
    String.ofList (text.toList.take point.toNat) ++ "." ++
      String.ofList (text.toList.drop point.toNat)
  else if -5 < point && point ≤ 0 then "0." ++ zeros (-point).toNat ++ text
  else if text.length = 1 then text ++ "e" ++ signed (point - 1)
  else String.ofList (text.toList.take 1) ++ "." ++ String.ofList (text.toList.drop 1) ++ "e"
    ++ signed (point - 1)

end Shortest

/-- The decimal text of a number: the fewest digits that read back the same. -/
def Binary64.text (x : Binary64) : String :=
  let magnitude :=
    if x.isZero then "0.0"
    else
      let (d, k) := Shortest.digits x.mantissa x.exponent
      Shortest.layout d k
  if x.negative then "-" ++ magnitude else magnitude

end TraceBacklog
