/-
# The grammar of JSON texts

JSON as its grammar has it: values, and elements, items and members around them, with white
space wherever it may stand (`Produces`). Text literals may have any pieces, so that the
surrogates in them need not be paired. Numbers may have a fraction and an exponent and are
taken as a whole, whatever may stand after a value (`tokens_number`).

Key definitions: `Blank`, `IsNumber`, `Symbol`, `Produces`.
Key theorems: `scanNumber_number`, `tokens_number`.
-/
import Mathlib.Tactic.Common
import TraceBacklog.Proofs.Json.Literal

namespace TraceBacklog

/-! ### The grammar -/

/-- White space, or nothing. -/
def Blank (cs : List Char) : Prop := ∀ c ∈ cs, isBlank c = true

theorem blank_nil : Blank [] := by simp [Blank]

theorem blank_space : Blank [' '] := List.forall_mem_singleton.2 rfl

def IsDigits (ds : List Char) : Prop := ds ≠ [] ∧ ∀ c ∈ ds, c.isDigit = true

/-- Whole digits: a leading zero stands alone. -/
def IsWhole (ds : List Char) : Prop := IsDigits ds ∧ (ds.head? = some '0' → ds = ['0'])

inductive IsFraction : List Char → Prop
  | nil : IsFraction []
  | digits {ds : List Char} (h : IsDigits ds) : IsFraction ('.' :: ds)

inductive IsExponent : List Char → Prop
  | nil : IsExponent []
  | digits {e : Char} {sign ds : List Char} (he : e = 'e' ∨ e = 'E')
      (hsign : sign = [] ∨ sign = ['+'] ∨ sign = ['-']) (h : IsDigits ds) :
      IsExponent (e :: (sign ++ ds))

inductive IsNumber : List Char → Prop
  | plain {whole fraction exponent : List Char} (hw : IsWhole whole) (hf : IsFraction fraction)
      (he : IsExponent exponent) : IsNumber (whole ++ (fraction ++ exponent))
  | negative {whole fraction exponent : List Char} (hw : IsWhole whole)
      (hf : IsFraction fraction) (he : IsExponent exponent) :
      IsNumber ('-' :: (whole ++ (fraction ++ exponent)))

/-- What the grammar has texts for. An element is a value with white space around it; items
and members are those of an array and an object that is not empty. -/
inductive Symbol where
  | value
  | element
  | items
  | member
  | members

/-- The texts of a symbol. -/
inductive Produces : Symbol → List Char → Prop
  | null : Produces .value "null".toList
  | bool (b : Bool) : Produces .value (Json.boolChars b)
  | number {cs : List Char} (h : IsNumber cs) : Produces .value cs
  | text {pieces : List Piece} {cs : List Char} (h : Spelled pieces cs) :
      Produces .value (quote cs)
  | emptyArray {ws : List Char} (h : Blank ws) : Produces .value ('[' :: (ws ++ [']']))
  | array {cs : List Char} (h : Produces .items cs) : Produces .value ('[' :: (cs ++ [']']))
  | emptyObject {ws : List Char} (h : Blank ws) : Produces .value ('{' :: (ws ++ ['}']))
  | object {cs : List Char} (h : Produces .members cs) : Produces .value ('{' :: (cs ++ ['}']))
  | element {before cs after : List Char} (hbefore : Blank before) (h : Produces .value cs)
      (hafter : Blank after) : Produces .element (before ++ (cs ++ after))
  | item {cs : List Char} (h : Produces .element cs) : Produces .items cs
  | items {cs rest : List Char} (h : Produces .element cs) (hrest : Produces .items rest) :
      Produces .items (cs ++ ',' :: rest)
  | keyed {before key after value : List Char} {pieces : List Piece} (hbefore : Blank before)
      (hkey : Spelled pieces key) (hafter : Blank after) (h : Produces .element value) :
      Produces .member (before ++ (quote key ++ (after ++ ':' :: value)))
  | member {cs : List Char} (h : Produces .member cs) : Produces .members cs
  | members {cs rest : List Char} (h : Produces .member cs) (hrest : Produces .members rest) :
      Produces .members (cs ++ ',' :: rest)

/-! ### Numbers -/

theorem IsDigits.map_ne_nil {ds : List Char} (h : IsDigits ds) : ds.map digitValue ≠ [] := by
  simpa using h.1

/-- Digits start with a digit. -/
theorem IsDigits.exists_cons {ds : List Char} (h : IsDigits ds) :
    ∃ d rest, ds = d :: rest ∧ d.isDigit = true := by
  obtain ⟨d, rest, rfl⟩ := List.exists_cons_of_ne_nil h.1
  exact ⟨d, rest, rfl, h.2 d List.mem_cons_self⟩

theorem eq_zero_of_digitValue {c : Char} (h : c.isDigit = true) (hc : digitValue c = 0) :
    c = '0' := by
  simp only [Char.isDigit, Bool.and_eq_true, decide_eq_true_eq] at h
  have hle : ('0' : Char).toNat ≤ c.toNat := h.1
  refine Char.toNat_inj.mp (Nat.le_antisymm ?_ hle)
  exact Nat.le_of_sub_eq_zero hc

/-- Whole digits are no zero with more digits after it. -/
theorem IsWhole.map_ne_zero_cons {ds : List Char} (h : IsWhole ds) (d : ℕ) (rest : List ℕ) :
    ds.map digitValue ≠ 0 :: d :: rest := by
  intro heq
  obtain ⟨c, cs, rfl, hc⟩ := h.1.exists_cons
  rw [List.map_cons, List.cons.injEq] at heq
  have hzero : c = '0' := eq_zero_of_digitValue hc heq.1
  obtain ⟨-, rfl⟩ := List.cons.inj (h.2 (by rw [hzero, List.head?_cons]))
  simp at heq

/-- What follows the whole digits of a number does not go on with a digit. -/
theorem noDigit_fraction {fraction exponent rest : List Char} (hf : IsFraction fraction)
    (he : IsExponent exponent) (hr : Apart rest) : NoDigit (fraction ++ (exponent ++ rest)) := by
  cases hf with
  | digits h => exact noDigit_cons _ (by decide)
  | nil =>
    cases he with
    | nil => exact hr.noDigit
    | digits he hsign h =>
      rcases he with rfl | rfl
      all_goals exact noDigit_cons _ (by decide)

/-- What follows the fraction of a number has no point. -/
theorem IsExponent.append_ne_point {exponent rest : List Char} (he : IsExponent exponent)
    (hr : Apart rest) (rest' : List Char) : exponent ++ rest ≠ '.' :: rest' := by
  intro heq
  cases he with
  | nil =>
    rw [List.nil_append] at heq
    subst heq
    exact hr.head.2.1 rfl
  | digits he hsign h =>
    obtain ⟨rfl, -⟩ := List.cons.inj heq
    exact absurd he (by decide)

theorem scanExponent_exponent {exponent : List Char} (h : IsExponent exponent) (negative : Bool)
    (whole fraction : List ℕ) : ∃ part, ∀ rest, Apart rest →
      scanExponent negative whole fraction (exponent ++ rest) =
        (.number ⟨negative, whole, fraction, part⟩, rest) := by
  cases h with
  | nil =>
    refine ⟨none, fun rest hr => ?_⟩
    cases rest with
    | nil => rfl
    | cons c rest =>
      obtain ⟨-, -, he, hE⟩ := hr.head
      simp [scanExponent, he, hE]
  | @digits e sign ds he hsign h =>
    obtain ⟨d, ds', rfl, hd⟩ := h.exists_cons
    have hletter : (decide (e = 'e') || decide (e = 'E')) = true := by simpa using he
    refine ⟨some ⟨sign = ['-'], (d :: ds').map digitValue⟩, fun rest hr => ?_⟩
    have htake : takeDigits (d :: ds' ++ rest) = ((d :: ds').map digitValue, rest) :=
      takeDigits_append h.2 hr.noDigit
    rcases hsign with rfl | rfl | rfl
    · rw [List.nil_append, List.cons_append, scanExponent, if_pos hletter, htake]
      · rfl
      -- the digit that comes first is no sign
      · rintro rest ⟨⟩
        exact absurd hd (by decide)
      · rintro rest ⟨⟩
        exact absurd hd (by decide)
    · rw [List.cons_append, List.append_assoc, List.singleton_append, scanExponent,
        if_pos hletter, htake]
      rfl
    · rw [List.cons_append, List.append_assoc, List.singleton_append, scanExponent,
        if_pos hletter, htake]
      rfl

theorem scanFraction_fraction {fraction exponent : List Char} (hf : IsFraction fraction)
    (he : IsExponent exponent) (negative : Bool) (whole : List ℕ) :
    ∃ l, ∀ rest, Apart rest →
      scanFraction negative whole (fraction ++ (exponent ++ rest)) = (.number l, rest) := by
  cases hf with
  | nil =>
    obtain ⟨part, hscan⟩ := scanExponent_exponent he negative whole []
    exact ⟨_, fun rest hr =>
      (scanFraction.eq_2 _ _ _ (he.append_ne_point hr)).trans (hscan rest hr)⟩
  | @digits ds h =>
    obtain ⟨part, hscan⟩ := scanExponent_exponent he negative whole (ds.map digitValue)
    refine ⟨⟨negative, whole, ds.map digitValue, part⟩, fun rest hr => ?_⟩
    have htake : takeDigits (ds ++ (exponent ++ rest)) = (ds.map digitValue, exponent ++ rest) :=
      takeDigits_append h.2 (noDigit_fraction .nil he hr)
    obtain ⟨d, ds', rfl, -⟩ := h.exists_cons
    rw [List.cons_append, scanFraction, htake]
    exact hscan rest hr

/-- The digits of a number and all that belongs to them are taken, whatever may follow. -/
theorem scanNumber_number {whole fraction exponent : List Char} (hw : IsWhole whole)
    (hf : IsFraction fraction) (he : IsExponent exponent) (negative : Bool) :
    ∃ l, ∀ rest, Apart rest →
      scanNumber negative (whole ++ (fraction ++ (exponent ++ rest))) = (.number l, rest) := by
  obtain ⟨l, hscan⟩ := scanFraction_fraction hf he negative (whole.map digitValue)
  refine ⟨l, fun rest hr => ?_⟩
  have htake : takeDigits (whole ++ (fraction ++ (exponent ++ rest))) =
      (whole.map digitValue, fraction ++ (exponent ++ rest)) :=
    takeDigits_append hw.1.2 (noDigit_fraction hf he hr)
  rw [scanNumber, htake]
  split
  · next heq => exact absurd (Prod.mk.inj heq).1 hw.1.map_ne_nil
  · next heq => exact absurd (Prod.mk.inj heq).1 (hw.map_ne_zero_cons _ _)
  · next heq =>
    obtain ⟨rfl, rfl⟩ := Prod.mk.inj heq
    exact hscan rest hr

theorem tokens_number {cs : List Char} (h : IsNumber cs) : ∃ l, ∀ rest, Apart rest →
    tokens (cs ++ rest) = .number l :: tokens rest := by
  cases h with
  | @plain whole fraction exponent hw hf he =>
    obtain ⟨l, hscan⟩ := scanNumber_number hw hf he false
    refine ⟨l, fun rest hr => ?_⟩
    obtain ⟨d, ds, rfl, hd⟩ := hw.1.exists_cons
    have hword := hscan rest hr
    rw [List.append_assoc, List.append_assoc]
    rw [List.cons_append] at hword ⊢
    exact tokens_word (isBlank_of_isDigit hd) ((scanToken_of_isDigit _ hd).trans hword) rfl
  | @negative whole fraction exponent hw hf he =>
    obtain ⟨l, hscan⟩ := scanNumber_number hw hf he true
    refine ⟨l, fun rest hr => ?_⟩
    rw [List.cons_append, List.append_assoc, List.append_assoc]
    exact tokens_word (by decide) (hscan rest hr) rfl

end TraceBacklog
