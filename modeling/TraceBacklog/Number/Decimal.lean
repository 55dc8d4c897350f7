/-
# Natural numbers in decimal digits

Key definitions: `denote`, `takeDigits`, `decimal?`, `padded`, `twoTo`, `tenTo`,
`wordBound`.
-/

namespace TraceBacklog

/-- The power of two. -/
def twoTo (n : Nat) : Nat := Nat.pow 2 n

/-- The power of ten. -/
def tenTo (n : Nat) : Nat := Nat.pow 10 n

/-- What unsigned words stay below. -/
def wordBound : Nat := twoTo 64

/-- What signed words stay below, and the magnitude of the least one. -/
def signedBound : Nat := twoTo 63

/-- The value of a decimal digit. -/
def digitValue (c : Char) : Nat := c.toNat - 48

/-- The natural number that decimal digits denote. -/
def denote (ds : List Nat) : Nat := ds.foldl (fun n d => n * 10 + d) 0

/-- The digits at the start of a text, and what follows them. -/
def takeDigits (cs : List Char) : List Nat × List Char :=
  ((cs.takeWhile Char.isDigit).map digitValue, cs.dropWhile Char.isDigit)

/-- The number that a text of digits denotes. -/
def decimal? (cs : List Char) : Option Nat :=
  match takeDigits cs with
  | ([], _) => none
  | (ds, []) => some (denote ds)
  | (_, _ :: _) => none

/-- A number with zeros in front, up to `width` digits. -/
def padded (width n : Nat) : List Char :=
  let digits := Nat.toDigits 10 n
  List.replicate (width - digits.length) '0' ++ digits

example : padded 4 7 = "0007".toList := by decide +kernel
example : padded 4 12345 = "12345".toList := by decide +kernel

end TraceBacklog
