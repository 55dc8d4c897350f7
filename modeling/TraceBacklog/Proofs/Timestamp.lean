/-
# Instants come back from their texts

Every field of an instant is written with all its digits, so a reader that takes as many
digits as the field is wide takes the field and stops (`takeField_padded`); the year may
have a sign and more digits, and then ends at the mark after it (`takeYear_yearChars`).
Date and time of day are read back whatever fraction and zone follow them
(`ofChars?_secondsChars`): the text with the fewest digits gives the instant itself
(`ofChars?_chars`), and the text with three digits gives the instant with the rest of the
second's digits cut off (`ofChars?_millisChars`), and no more is lost by it
(`millisChars_inj`).

Key definitions: `Timestamp.toMillis`.
Key theorems: `Timestamp.ofChars?_chars`, `Timestamp.ofChars?_millisChars`,
`Timestamp.millisChars_inj`, `Timestamp.reads_reader`.
-/
import TraceBacklog.Timestamp
import TraceBacklog.Proofs.Number.Decimal
import TraceBacklog.Proofs.Json.Read

namespace TraceBacklog

namespace Timestamp

/-! ### Digits of a field -/

theorem isSpace_of_isDigit {c : Char} (h : c.isDigit = true) : isSpace c = false := by
  simp only [Char.isDigit, Bool.and_eq_true, decide_eq_true_eq] at h
  have hl : 48 ≤ c.toNat := h.1
  have hu : c.toNat ≤ 57 := h.2
  simp only [isSpace, Bool.or_eq_false_iff, Bool.and_eq_false_iff, decide_eq_false_iff_not]
  omega

theorem trimSpace_cons {c : Char} (cs : List Char) (h : isSpace c = false) :
    trimSpace (c :: cs) = c :: cs :=
  List.dropWhile_cons_of_neg (by simp [h])

/-- Digits are taken up to the width, or up to a character that is no digit. -/
theorem splitDigits_append {width : Nat} {ds rest : List Char}
    (hd : ∀ c ∈ ds, c.isDigit = true) (hlen : ds.length ≤ width)
    (hr : ds.length = width ∨ NoDigit rest) :
    splitDigits width (ds ++ rest) = (ds.map digitValue, rest) := by
  induction ds generalizing width with
  | nil =>
    cases width with
    | zero => rfl
    | succ width =>
      cases rest with
      | nil => rfl
      | cons c rest =>
        have hc : c.isDigit = false := by
          rcases hr with hr | hr
          · simp at hr
          · exact hr c rfl
        simp [splitDigits, hc]
  | cons d ds ih =>
    cases width with
    | zero => simp at hlen
    | succ width =>
      rw [List.length_cons, Nat.add_le_add_iff_right] at hlen
      have htail := ih (fun c hc => hd c (List.mem_cons_of_mem _ hc)) hlen
        (hr.imp_left fun h => by simpa using h)
      rw [List.cons_append, splitDigits, if_pos (hd d List.mem_cons_self), htail]
      rfl

theorem takeNumber_padded {width k n : Nat} {rest : List Char}
    (hlen : (padded k n).length ≤ width)
    (hr : (padded k n).length = width ∨ NoDigit rest) :
    takeNumber width (padded k n ++ rest) = some (n, rest) := by
  have hsplit := splitDigits_append (fun _ h => isDigit_of_mem_padded h) hlen hr
  rw [takeNumber, hsplit]
  split
  · next heq => exact absurd (Prod.mk.inj heq).1 (by simp [padded_ne_nil])
  · next heq =>
    obtain ⟨rfl, rfl⟩ := Prod.mk.inj heq
    rw [denote_padded]

theorem trimSpace_padded (width n : Nat) (rest : List Char) :
    trimSpace (padded width n ++ rest) = padded width n ++ rest := by
  obtain ⟨c, cs, hc⟩ := List.exists_cons_of_ne_nil (padded_ne_nil width n)
  have hdigit : c.isDigit = true := isDigit_of_mem_padded (hc ▸ List.mem_cons_self)
  rw [hc, List.cons_append, trimSpace_cons _ (isSpace_of_isDigit hdigit)]

/-- A field is what its digits say. -/
theorem takeField_padded {n : Nat} (rest : List Char) (h : n < 100) :
    takeField 2 (padded 2 n ++ rest) = some (n, rest) := by
  have hlen : (padded 2 n).length = 2 := length_padded (by omega) h
  rw [takeField, trimSpace_padded]
  exact takeNumber_padded (Nat.le_of_eq hlen) (.inl hlen)

theorem takeMark_cons {c : Char} (rest : List Char) (h : isSpace c = false) :
    takeMark c (c :: rest) = some rest := by
  rw [takeMark, trimSpace_cons _ h]
  simp

theorem takeSeparator_cons (rest : List Char) : takeSeparator ('T' :: rest) = some rest := rfl

/-- A year without a sign ends after four digits. -/
theorem takeYear_padded {n : Nat} (rest : List Char) (h : n < 10000) :
    takeYear (padded 4 n ++ rest) = some ((n : Int), rest) := by
  have hlen : (padded 4 n).length = 4 := length_padded (by omega) h
  have hnumber : takeNumber 4 (padded 4 n ++ rest) = some (n, rest) :=
    takeNumber_padded (Nat.le_of_eq hlen) (.inl hlen)
  obtain ⟨c, cs, hc⟩ := List.exists_cons_of_ne_nil (padded_ne_nil 4 n)
  have hdigit : c.isDigit = true := isDigit_of_mem_padded (hc ▸ List.mem_cons_self)
  have hsign : ∀ d, d.isDigit = false → c ≠ d := fun d hd hcd => by simp [hcd, hd] at hdigit
  rw [takeYear, trimSpace_padded]
  split
  · next heq =>
    rw [hc] at heq
    exact absurd (List.cons.inj heq).1 (hsign '-' (by decide))
  · next heq =>
    rw [hc] at heq
    exact absurd (List.cons.inj heq).1 (hsign '+' (by decide))
  · rw [hnumber]
    rfl

/-- A year with a sign ends at the mark after it. -/
theorem takeNumber_signed (n : Nat) (rest : List Char) :
    takeNumber (padded 4 n ++ '-' :: rest).length (padded 4 n ++ '-' :: rest) =
      some (n, '-' :: rest) :=
  takeNumber_padded (by simp) (.inr (noDigit_cons _ (by decide)))

theorem takeYear_yearChars (year : Int) (rest : List Char) :
    takeYear (yearChars year ++ '-' :: rest) = some (year, '-' :: rest) := by
  unfold yearChars
  split
  · next h =>
    simp only [Bool.and_eq_true, decide_eq_true_eq] at h
    have hyear : (year.toNat : Int) = year := by omega
    rw [takeYear_padded _ (by omega), hyear]
  · next h =>
    simp only [Bool.and_eq_true, decide_eq_true_eq] at h
    split
    · have hyear : -(year.natAbs : Int) = year := by omega
      rw [List.cons_append, takeYear, trimSpace_cons _ (by decide)]
      simp only [takeNumber_signed, Option.map_some, hyear]
    · have hyear : (year.natAbs : Int) = year := by omega
      rw [List.cons_append, takeYear, trimSpace_cons _ (by decide)]
      simp only [takeNumber_signed, Option.map_some, hyear]

/-! ### Fraction and zone -/

/-- A fraction of so many digits is read as what they say, filled up with zeros. -/
theorem takeFraction_padded {width n : Nat} {rest : List Char} (hw : 0 < width) (hle : width ≤ 9)
    (h : n < tenTo width) (hr : NoDigit rest) :
    takeFraction ('.' :: padded width n ++ rest) = some (n * tenTo (9 - width), rest) := by
  have hlen := length_padded hw h
  have hsplit : splitDigits 9 (padded width n ++ rest) =
      ((padded width n).map digitValue, rest) :=
    splitDigits_append (fun _ h => isDigit_of_mem_padded h) (by omega) (.inr hr)
  rw [List.cons_append, takeFraction, hsplit]
  split
  · next heq => exact absurd (Prod.mk.inj heq).1 (by simp [padded_ne_nil])
  · next heq =>
    obtain ⟨rfl, rfl⟩ := Prod.mk.inj heq
    rw [denote_padded, List.length_map, hlen, hr.dropWhile]

/-- The fewest digits that lose nothing lose nothing. -/
theorem takeFraction_fractionChars {nano : Nat} (rest : List Char) (h : nano < 1000000000) :
    takeFraction (fractionChars nano ++ 'Z' :: rest) = some (nano, 'Z' :: rest) := by
  have hz : NoDigit ('Z' :: rest) := noDigit_cons _ (by decide)
  unfold fractionChars
  split
  · next hzero => rw [hzero]; rfl
  · split
    · rw [takeFraction_padded (by omega) (by omega) (show _ < 1000 by omega) hz]
      have : tenTo (9 - 3) = 1000000 := by decide
      rw [this]
      congr 2
      omega
    · split
      · rw [takeFraction_padded (by omega) (by omega) (show _ < 1000000 by omega) hz]
        have : tenTo (9 - 6) = 1000 := by decide
        rw [this]
        congr 2
        omega
      · rw [takeFraction_padded (by omega) (by omega) h hz]
        have : tenTo (9 - 9) = 1 := by decide
        rw [this, Nat.mul_one]

/-- UTC is no minutes away from UTC. -/
theorem atOffset_zero (t : Timestamp) : t.atOffset 0 = some t := by
  obtain ⟨-, hhour, hminute, -, -⟩ := t.valid
  have hday : (((t.hour * 60 + t.minute : Nat) : Int) - 0) % 1440 =
      ((t.hour * 60 + t.minute : Nat) : Int) := by omega
  have hnonneg : ¬ (((t.hour * 60 + t.minute : Nat) : Int) - 0 < 0) := by omega
  have hsame : ¬ (1440 ≤ ((t.hour * 60 + t.minute : Nat) : Int) - 0) := by omega
  have hh : (t.hour * 60 + t.minute) / 60 = t.hour := by omega
  have hm : (t.hour * 60 + t.minute) % 60 = t.minute := by omega
  simp only [atOffset, hday, if_neg hnonneg, if_neg hsame, Int.toNat_natCast, hh, hm]
  exact make?_self t

/-! ### The whole text -/

theorem bind_of_eq_some {α β : Type} {x : Option α} {a : α} {f : α → Option β} {r : Option β}
    (hx : x = some a) (hf : f a = r) : (x >>= f) = r := by
  rw [hx]
  exact hf

/-- Date and time of day are read back, whatever way the fraction and the zone are
written. -/
theorem ofChars?_secondsChars (t : Timestamp) {tail zone : List Char}
    (hfraction : takeFraction tail = some (t.nano, zone))
    (hzone : takeZone (trimSpace zone) = some (0, [])) :
    ofChars? (t.secondsChars ++ tail) = some t := by
  obtain ⟨⟨-, hmonth, hday⟩, hhour, hminute, hsecond, -⟩ := t.valid
  have hdays : daysInMonth t.date.year t.date.month ≤ 31 := by
    unfold daysInMonth
    split
    · split <;> omega
    · split <;> omega
  have htext : t.secondsChars ++ tail = yearChars t.date.year ++ '-' :: (padded 2 t.date.month ++
      '-' :: (padded 2 t.date.day ++ 'T' :: (padded 2 t.hour ++ ':' :: (padded 2 t.minute ++
      ':' :: (padded 2 t.second ++ tail))))) := by
    simp [secondsChars]
  rw [htext, ofChars?]
  -- the fields in their order, each with the mark after it
  refine bind_of_eq_some (takeYear_yearChars _ _) ?_
  refine bind_of_eq_some (takeMark_cons _ (by decide)) ?_
  refine bind_of_eq_some (takeField_padded _ (by omega)) ?_
  refine bind_of_eq_some (takeMark_cons _ (by decide)) ?_
  refine bind_of_eq_some (takeField_padded _ (by omega)) ?_
  refine bind_of_eq_some (takeSeparator_cons _) ?_
  refine bind_of_eq_some (takeField_padded _ (by omega)) ?_
  refine bind_of_eq_some (takeMark_cons _ (by decide)) ?_
  refine bind_of_eq_some (takeField_padded _ (by omega)) ?_
  refine bind_of_eq_some (takeMark_cons _ (by decide)) ?_
  refine bind_of_eq_some (takeField_padded _ (by omega)) ?_
  refine bind_of_eq_some hfraction ?_
  refine bind_of_eq_some hzone ?_
  refine bind_of_eq_some (make?_self t) ?_
  exact (if_pos rfl).trans t.atOffset_zero

/-- **Nothing is lost in the text of an instant.** -/
theorem ofChars?_chars (t : Timestamp) : ofChars? t.chars = some t := by
  rw [chars, List.append_assoc]
  exact t.ofChars?_secondsChars (takeFraction_fractionChars [] t.valid.2.2.2.2) (by decide)

/-- An instant with what is finer than milliseconds cut off. -/
def toMillis (t : Timestamp) : Timestamp where
  date := t.date
  hour := t.hour
  minute := t.minute
  second := t.second
  nano := t.nano / 1000000 * 1000000
  valid := by
    obtain ⟨hdate, hhour, hminute, hsecond, hnano⟩ := t.valid
    exact ⟨hdate, hhour, hminute, hsecond, by omega⟩

theorem ofChars?_millisChars (t : Timestamp) : ofChars? t.millisChars = some t.toMillis := by
  have hnano : t.nano / 1000000 < tenTo 3 := by
    have := t.valid.2.2.2.2
    show _ < 1000
    omega
  have hzone : NoDigit "+0000".toList := noDigit_cons _ (by decide)
  have hfraction := takeFraction_padded (by omega) (by omega) hnano hzone
  rw [millisChars, List.append_assoc]
  exact t.toMillis.ofChars?_secondsChars hfraction (by decide)

theorem millisChars_toMillis (t : Timestamp) : t.toMillis.millisChars = t.millisChars := by
  simp [millisChars, secondsChars, toMillis]

/-- Two instants have the same text to the millisecond when they are the same instant to
the millisecond. -/
theorem millisChars_inj {t u : Timestamp} :
    t.millisChars = u.millisChars ↔ t.toMillis = u.toMillis := by
  constructor
  · intro h
    have hread := t.ofChars?_millisChars
    rw [h, u.ofChars?_millisChars] at hread
    exact (Option.some.inj hread).symm
  · intro h
    rw [← t.millisChars_toMillis, h, u.millisChars_toMillis]

/-- Instants written without loss are read back. -/
theorem reads_reader : Reads reader fun t => .string (String.ofList t.chars) where
  integral t := by rw [Json.Integral]; trivial
  read t := by
    simp [Json.draft, reader, String.toList_ofList, ofChars?_chars, bind, Except.bind]

end Timestamp

end TraceBacklog
