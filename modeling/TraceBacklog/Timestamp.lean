/-
# Instants in UTC

An instant is held as its calendar date and time of day in UTC, to the nanosecond; a
second 60 is a leap second and stays one. Texts are read in the form of RFC 3339,
leniently: numbers may be shorter than their field, white space may stand before a
number or a mark, and the zone may be written `UTC`. An offset moves the time by whole
minutes, so reading needs no more of the calendar than the day before and the day
after.

A clock gives instants in an order of its own: nothing is known of a reading but its place
among the readings.

Key definitions: `Timestamp`, `Timestamp.ofChars?`, `Timestamp.chars` (with as many
digits of the second as needed), `Timestamp.millisChars` (with three), `Clock`.
-/
import TraceBacklog.Json.Decode

namespace TraceBacklog

/-- Leap years of the Gregorian calendar, also before its introduction. -/
def isLeapYear (year : Int) : Bool :=
  year % 4 = 0 && (year % 100 ≠ 0 || year % 400 = 0)

def daysInMonth (year : Int) (month : Nat) : Nat :=
  if month = 2 then (if isLeapYear year then 29 else 28)
  else if month = 4 || month = 6 || month = 9 || month = 11 then 30
  else 31

/-- A day of the calendar. -/
structure Date where
  year : Int
  month : Nat
  day : Nat
deriving DecidableEq, Repr

namespace Date

/-- The days that can be named: months and days that exist, in a range of years. -/
def Valid (d : Date) : Prop :=
  (-262143 ≤ d.year ∧ d.year ≤ 262142) ∧ (1 ≤ d.month ∧ d.month ≤ 12) ∧
    (1 ≤ d.day ∧ d.day ≤ daysInMonth d.year d.month)

instance (d : Date) : Decidable d.Valid := by unfold Valid; infer_instance

/-- The day after. -/
def next (d : Date) : Date :=
  if d.day < daysInMonth d.year d.month then { d with day := d.day + 1 }
  else if d.month < 12 then ⟨d.year, d.month + 1, 1⟩
  else ⟨d.year + 1, 1, 1⟩

/-- The day before. -/
def previous (d : Date) : Date :=
  if 1 < d.day then { d with day := d.day - 1 }
  else if 1 < d.month then ⟨d.year, d.month - 1, daysInMonth d.year (d.month - 1)⟩
  else ⟨d.year - 1, 12, 31⟩

/-- The date that lies `days` after 1970-01-01: eras of 400 years, counted from the first
of March, so that a leap day is the last day of its year. -/
def ofUnixDays (days : Int) : Date :=
  let shifted := days + 719468
  let era := shifted / 146097
  let dayOfEra := (shifted % 146097).toNat
  let yearOfEra := (dayOfEra - dayOfEra / 1460 + dayOfEra / 36524 - dayOfEra / 146096) / 365
  let dayOfYear := dayOfEra - (365 * yearOfEra + yearOfEra / 4 - yearOfEra / 100)
  let march := (5 * dayOfYear + 2) / 153
  let day := dayOfYear - (153 * march + 2) / 5 + 1
  let month := if march < 10 then march + 3 else march - 9
  ⟨(yearOfEra : Int) + era * 400 + (if month ≤ 2 then 1 else 0), month, day⟩

example : ofUnixDays 0 = ⟨1970, 1, 1⟩ := by decide
example : ofUnixDays 19782 = ⟨2024, 2, 29⟩ := by decide

end Date

/-- An instant: its date and time of day in UTC. -/
structure Timestamp where
  date : Date
  hour : Nat
  minute : Nat
  second : Nat
  nano : Nat
  valid : date.Valid ∧ hour < 24 ∧ minute < 60 ∧ second ≤ 60 ∧ nano < 1000000000
deriving DecidableEq, Repr

namespace Timestamp

/-- The instant of a date and a time of day, if there are such. -/
def make? (date : Date) (hour minute second nano : Nat) : Option Timestamp :=
  if h : date.Valid ∧ hour < 24 ∧ minute < 60 ∧ second ≤ 60 ∧ nano < 1000000000 then
    some ⟨date, hour, minute, second, nano, h⟩
  else none

theorem make?_self (t : Timestamp) : make? t.date t.hour t.minute t.second t.nano = some t := by
  simp [make?, t.valid]

/-- 1970-01-01T00:00:00Z. -/
def epoch : Timestamp := ⟨⟨1970, 1, 1⟩, 0, 0, 0, 0, by decide⟩

instance : Inhabited Timestamp := ⟨epoch⟩

/-- The instant that many seconds and nanoseconds after the epoch. -/
def ofUnix? (seconds : Int) (nano : Nat) : Option Timestamp :=
  let rest := (seconds % 86400).toNat
  make? (.ofUnixDays (seconds / 86400)) (rest / 3600) (rest / 60 % 60) (rest % 60) nano

/-! ### Writing -/

/-- Years of four digits have no sign. -/
def yearChars (year : Int) : List Char :=
  if 0 ≤ year && year ≤ 9999 then padded 4 year.toNat
  else (if year < 0 then '-' else '+') :: padded 4 year.natAbs

/-- Date and time of day to the second. -/
def secondsChars (t : Timestamp) : List Char :=
  yearChars t.date.year ++ '-' :: padded 2 t.date.month ++ '-' :: padded 2 t.date.day ++
    'T' :: padded 2 t.hour ++ ':' :: padded 2 t.minute ++ ':' :: padded 2 t.second

/-- None, three, six or nine digits, the fewest that lose nothing. -/
def fractionChars (nano : Nat) : List Char :=
  if nano = 0 then []
  else if nano % 1000000 = 0 then '.' :: padded 3 (nano / 1000000)
  else if nano % 1000 = 0 then '.' :: padded 6 (nano / 1000)
  else '.' :: padded 9 nano

/-- The text of an instant that loses nothing. -/
def chars (t : Timestamp) : List Char := t.secondsChars ++ fractionChars t.nano ++ ['Z']

/-- The text of an instant to the millisecond, what is finer cut off. -/
def millisChars (t : Timestamp) : List Char :=
  t.secondsChars ++ '.' :: padded 3 (t.nano / 1000000) ++ "+0000".toList

/-! ### Reading -/

/-- White space of any script. -/
def isSpace (c : Char) : Bool :=
  let n := c.toNat
  (9 ≤ n && n ≤ 13) || n = 32 || n = 0x85 || n = 0xa0 || n = 0x1680 ||
    (0x2000 ≤ n && n ≤ 0x200a) || n = 0x2028 || n = 0x2029 || n = 0x202f || n = 0x205f || n = 0x3000

def trimSpace (cs : List Char) : List Char := cs.dropWhile isSpace

/-- The digits at the start, at most `width` of them, and what follows. -/
def splitDigits : Nat → List Char → List Nat × List Char
  | 0, cs => ([], cs)
  | _ + 1, [] => ([], [])
  | width + 1, c :: cs =>
    if c.isDigit then
      let (ds, rest) := splitDigits width cs
      (digitValue c :: ds, rest)
    else ([], c :: cs)

/-- A number of one to `width` digits. -/
def takeNumber (width : Nat) (cs : List Char) : Option (Nat × List Char) :=
  match splitDigits width cs with
  | ([], _) => none
  | (ds, rest) => some (denote ds, rest)

/-- A number of a field, after white space. -/
def takeField (width : Nat) (cs : List Char) : Option (Nat × List Char) :=
  takeNumber width (trimSpace cs)

/-- A year has four digits at most, or a sign and any number of them. -/
def takeYear (cs : List Char) : Option (Int × List Char) :=
  match trimSpace cs with
  | '-' :: rest => (takeNumber rest.length rest).map fun (n, rest) => (-(n : Int), rest)
  | '+' :: rest => (takeNumber rest.length rest).map fun (n, rest) => ((n : Int), rest)
  | rest => (takeNumber 4 rest).map fun (n, rest) => ((n : Int), rest)

/-- A mark, after white space. -/
def takeMark (mark : Char) (cs : List Char) : Option (List Char) :=
  match trimSpace cs with
  | c :: rest => if c = mark then some rest else none
  | [] => none

/-- What stands between date and time. -/
def takeSeparator : List Char → Option (List Char)
  | c :: rest => if c = 'T' || c = 't' || c = ' ' then some rest else none
  | [] => none

/-- The nanoseconds after a point; digits after the ninth are cut off. -/
def takeFraction : List Char → Option (Nat × List Char)
  | '.' :: rest =>
    match splitDigits 9 rest with
    | ([], _) => none
    | (ds, rest) => some (denote ds * tenTo (9 - ds.length), rest.dropWhile Char.isDigit)
  | cs => some (0, cs)

/-- An offset from UTC in minutes: a sign, two digits for the hours, two for the
minutes. -/
def takeOffset : List Char → Option (Int × List Char)
  | [] => none
  | s :: rest =>
    if s = 'Z' || s = 'z' then some (0, rest)
    else if s = '+' || s = '-' || s = '−' then
      match splitDigits 2 rest with
      | ([h1, h2], rest) =>
        match splitDigits 2 (rest.dropWhile fun c => c = ':' || isSpace c) with
        | ([m1, m2], rest) =>
          let minutes := (h1 * 10 + h2) * 60 + (m1 * 10 + m2)
          if 5 < m1 || 1440 ≤ minutes then none
          else some (if s = '+' then (minutes : Int) else -(minutes : Int), rest)
        | _ => none
      | _ => none
    else none

/-- The zone: `UTC` in either case, or an offset. -/
def takeZone (cs : List Char) : Option (Int × List Char) :=
  match cs with
  | u :: t :: c :: rest =>
    if u.toUpper = 'U' && t.toUpper = 'T' && c.toUpper = 'C' then some (0, rest)
    else takeOffset cs
  | _ => takeOffset cs

/-- The instant of a local time that is `offset` minutes ahead of UTC. -/
def atOffset (t : Timestamp) (offset : Int) : Option Timestamp :=
  let minutes : Int := (t.hour * 60 + t.minute : Nat) - offset
  let ofDay := (minutes % 1440).toNat
  let date :=
    if minutes < 0 then t.date.previous
    else if 1440 ≤ minutes then t.date.next
    else t.date
  make? date (ofDay / 60) (ofDay % 60) t.second t.nano

/-- Reads an instant. -/
def ofChars? (cs : List Char) : Option Timestamp := do
  let (year, cs) ← takeYear cs
  let cs ← takeMark '-' cs
  let (month, cs) ← takeField 2 cs
  let cs ← takeMark '-' cs
  let (day, cs) ← takeField 2 cs
  let cs ← takeSeparator cs
  let (hour, cs) ← takeField 2 cs
  let cs ← takeMark ':' cs
  let (minute, cs) ← takeField 2 cs
  let cs ← takeMark ':' cs
  let (second, cs) ← takeField 2 cs
  let (nano, cs) ← takeFraction cs
  let (offset, cs) ← takeZone (trimSpace cs)
  let t ← make? ⟨year, month, day⟩ hour minute second nano
  if (trimSpace cs).isEmpty then t.atOffset offset else none

/-- Reads an instant from a text value. -/
def reader : Reader Timestamp
  | .text t => do
    match ofChars? (← t.read).toList with
    | some stamp => .ok stamp
    | none => .error (.mismatch .invalidTimestamp)
  | d => .error (d.unexpected "an RFC 3339 formatted date and time string")

end Timestamp

/-- A source of readings that come one after the other. -/
structure Clock where
  readings : Nat → Timestamp
  /-- How many readings were taken. -/
  taken : Nat

namespace Clock

/-- The reading that comes after `n` others from now on. -/
def reading (c : Clock) (n : Nat) : Timestamp := c.readings (c.taken + n)

/-- The next reading. -/
def now (c : Clock) : Timestamp := c.reading 0

/-- The clock when `n` more readings were taken. -/
def after (c : Clock) (n : Nat) : Clock := { c with taken := c.taken + n }

/-- A clock that stands still. -/
def still (t : Timestamp) : Clock := ⟨fun _ => t, 0⟩

def epoch : Clock := still .epoch

instance : Inhabited Clock := ⟨epoch⟩

@[simp] theorem after_zero (c : Clock) : c.after 0 = c := rfl

theorem after_after (c : Clock) (m n : Nat) : (c.after m).after n = c.after (m + n) := by
  rw [after, after, after, Nat.add_assoc]

theorem reading_after (c : Clock) (m n : Nat) : (c.after m).reading n = c.reading (m + n) := by
  rw [reading, reading, after, Nat.add_assoc]

end Clock

end TraceBacklog
