/-
# Decimal digits and back

A number is written with the digits that `Nat.toDigits` lists, with zeros in front where
a field has a width. Either way the digits denote the number (`denote_digits`,
`denote_padded`), a reader that takes digits while there are some takes exactly these
(`takeDigits_append`), and a number below `wordBound` is gathered in full
(`Literal.gather_digits`).

Key definitions: `digits`, `NoDigit`.
Key theorems: `denote_digits`, `denote_padded`, `length_padded`, `takeDigits_append`,
`Literal.gather_digits`.
-/
import TraceBacklog.Number.Literal

namespace TraceBacklog

/-- The decimal digits of a number, the highest one first. -/
def digits (n : Nat) : List Nat := (Nat.toDigits 10 n).map digitValue

/-- A text that does not go on with a digit. -/
def NoDigit (cs : List Char) : Prop := ∀ c ∈ cs.head?, c.isDigit = false

theorem noDigit_nil : NoDigit [] := by simp [NoDigit]

theorem noDigit_cons {c : Char} (cs : List Char) (h : c.isDigit = false) : NoDigit (c :: cs) := by
  simpa [NoDigit] using h

/-! ### What digits denote -/

theorem denote_map_digitValue (cs : List Char) :
    denote (cs.map digitValue) = Nat.ofDigitChars 10 cs 0 := by
  simp only [denote, List.foldl_map, Nat.ofDigitChars_eq_foldl, Nat.mul_comm 10]
  rfl

theorem denote_digits (n : Nat) : denote (digits n) = n := by
  rw [digits, denote_map_digitValue, Nat.ofDigitChars_ten_toDigits]

theorem denote_padded (width n : Nat) : denote ((padded width n).map digitValue) = n := by
  rw [denote_map_digitValue, padded, Nat.ofDigitChars_append, Nat.ofDigitChars_replicate_zero,
    Nat.mul_zero, Nat.ofDigitChars_ten_toDigits]

theorem toList_toString (n : Nat) : (toString n).toList = Nat.toDigits 10 n := Nat.toList_repr

theorem isDigit_of_mem_toDigits {n : Nat} {c : Char} (h : c ∈ Nat.toDigits 10 n) :
    c.isDigit = true :=
  Nat.isDigit_of_mem_toDigits (by omega) (by omega) h

theorem isDigit_of_mem_padded {width n : Nat} {c : Char} (h : c ∈ padded width n) :
    c.isDigit = true := by
  rcases List.mem_append.1 h with h | h
  · rw [List.eq_of_mem_replicate h]
    decide
  · exact isDigit_of_mem_toDigits h

/-- A number that fits its field fills it. -/
theorem length_padded {width n : Nat} (hw : 0 < width) (h : n < tenTo width) :
    (padded width n).length = width := by
  have : (Nat.toDigits 10 n).length ≤ width := (Nat.length_toDigits_le_iff (by omega) hw).2 h
  simp only [padded, List.length_append, List.length_replicate]
  omega

theorem padded_ne_nil (width n : Nat) : padded width n ≠ [] := by
  simp [padded]

/-! ### Taking digits from a text -/

theorem NoDigit.takeWhile {cs : List Char} (h : NoDigit cs) : cs.takeWhile Char.isDigit = [] := by
  cases cs with
  | nil => rfl
  | cons c cs => exact List.takeWhile_cons_of_neg (by simpa [NoDigit] using h)

theorem NoDigit.dropWhile {cs : List Char} (h : NoDigit cs) : cs.dropWhile Char.isDigit = cs := by
  cases cs with
  | nil => rfl
  | cons c cs => exact List.dropWhile_cons_of_neg (by simpa [NoDigit] using h)

theorem takeDigits_append {ds rest : List Char} (hd : ∀ c ∈ ds, c.isDigit = true)
    (hr : NoDigit rest) : takeDigits (ds ++ rest) = (ds.map digitValue, rest) := by
  rw [takeDigits, List.takeWhile_append_of_pos hd, List.dropWhile_append_of_pos hd, hr.takeWhile,
    hr.dropWhile, List.append_nil]

theorem takeDigits_toDigits (n : Nat) {rest : List Char} (hr : NoDigit rest) :
    takeDigits (Nat.toDigits 10 n ++ rest) = (digits n, rest) :=
  takeDigits_append (fun _ h => isDigit_of_mem_toDigits h) hr

theorem digits_ne_nil (n : Nat) : digits n ≠ [] := by simp [digits]

/-- The digits of a longer number are those of its tenth and one more. -/
theorem digits_eq_append {n : Nat} (h : 10 ≤ n) :
    ∃ d, digits n = digits (n / 10) ++ [d] := by
  rw [digits, Nat.toDigits_of_base_le (by omega) h, List.map_append]
  exact ⟨_, rfl⟩

/-- Only zero starts with the digit zero. -/
theorem eq_zero_of_head?_digits (n : Nat) (h : (digits n).head? = some 0) : n = 0 := by
  induction n using Nat.strongRecOn with
  | ind n ih =>
    by_cases hn : n < 10
    · have hd : digits n = [n] := by
        rw [digits, Nat.toDigits_of_lt_base hn, List.map_singleton, digitValue,
          Nat.toNat_digitChar_sub_48_of_lt_ten hn]
      simpa [hd] using h
    · obtain ⟨d, hd⟩ := digits_eq_append (Nat.le_of_not_lt hn)
      obtain ⟨e, es, he⟩ := List.exists_cons_of_ne_nil (digits_ne_nil (n / 10))
      rw [hd, he] at h
      have := ih (n / 10) (by omega) (by simpa [he] using h)
      omega

/-- No number of several digits starts with zero. -/
theorem digits_ne_zero_cons (n d : Nat) (ds : List Nat) : digits n ≠ 0 :: d :: ds := by
  intro h
  have hn := eq_zero_of_head?_digits n (by rw [h, List.head?_cons])
  subst hn
  simp [digits] at h

/-! ### Gathering digits into a word -/

theorem le_foldl_digits (ds : List Nat) (acc : Nat) :
    acc ≤ ds.foldl (fun n d => n * 10 + d) acc := by
  induction ds generalizing acc with
  | nil => exact Nat.le_refl acc
  | cons d ds ih => exact Nat.le_trans (by omega) (ih (acc * 10 + d))

namespace Literal

theorem gather_eq (ds : List Nat) (acc : Nat)
    (h : ds.foldl (fun n d => n * 10 + d) acc < wordBound) :
    gather acc ds = (ds.foldl (fun n d => n * 10 + d) acc, []) := by
  induction ds generalizing acc with
  | nil => rfl
  | cons d ds ih =>
    have hd : acc * 10 + d < wordBound := Nat.lt_of_le_of_lt (le_foldl_digits ds _) h
    rw [gather, if_pos hd]
    exact ih _ h

theorem gather_digits {n : Nat} (h : n < wordBound) : gather 0 (digits n) = (n, []) := by
  have hn : (digits n).foldl (fun n d => n * 10 + d) 0 = n := denote_digits n
  rw [gather_eq _ _ (by rwa [hn]), hn]

end Literal

end TraceBacklog
