/-
# Words, and the literals of integers

The scanners take at least one character for a word (`length_scanToken`), so the fuel of
`tokens` never runs out and cutting a text is described by two equations, `tokens_blank`
and `tokens_word`. An integer of 64 bits is one word and comes back out of it (`tokens_int`,
`Literal.read_ofInt`).

Key definitions: `Literal.ofInt`, `Apart`.
Key theorems: `tokens_word`, `tokens_int`, `Literal.read_ofInt`.
-/
import TraceBacklog.Json.Decode
import TraceBacklog.Proofs.Number.Decimal

namespace TraceBacklog

/-! ### Cutting a text into words -/

theorem length_scanText (cs : List Char) : (scanText cs).2.length ≤ cs.length := by
  fun_induction scanText cs with
  | case2 rest => exact Nat.le_succ _
  | case4 a b c d rest u hunit t after hscan ih =>
    have hafter : after.length ≤ rest.length := by rwa [hscan] at ih
    simp only [List.length_cons]
    omega
  | case7 e rest hlong hu c hshort t after hscan ih =>
    have hafter : after.length ≤ rest.length := by rwa [hscan] at ih
    simp only [List.length_cons]
    omega
  | case10 c rest _ _ _ _ _ hplain t after hscan ih =>
    rw [hscan] at ih
    exact Nat.le_succ_of_le ih
  | _ => exact Nat.zero_le _

theorem length_scanWord (word : Token) (ws cs : List Char) :
    (scanWord word ws cs).2.length ≤ cs.length := by
  fun_induction scanWord word ws cs with
  | case1 cs => exact Nat.le_refl _
  | case2 w ws => exact Nat.le_refl _
  | case3 ws c cs ih => exact Nat.le_succ_of_le ih
  | case4 => exact Nat.zero_le _

theorem length_takeDigits (cs : List Char) : (takeDigits cs).2.length ≤ cs.length :=
  (List.dropWhile_sublist _).length_le

theorem length_scanExponent (negative : Bool) (whole fraction : List Nat) (cs : List Char) :
    (scanExponent negative whole fraction cs).2.length ≤ cs.length := by
  fun_cases scanExponent negative whole fraction cs with
  | case1 => simp
  | case2 e rest he minus digits hsign ds after hds htake =>
    have hdigits : digits.length ≤ rest.length := by
      split at hsign <;> cases hsign <;> simp
    have hafter := length_takeDigits digits
    rw [htake] at hafter
    exact Nat.le_succ_of_le (Nat.le_trans hafter hdigits)
  | case3 => simp
  | case4 => simp

theorem length_scanFraction (negative : Bool) (whole : List Nat) (cs : List Char) :
    (scanFraction negative whole cs).2.length ≤ cs.length := by
  fun_cases scanFraction negative whole cs with
  | case1 => simp
  | case2 rest ds after hds htake =>
    have hafter := length_takeDigits rest
    rw [htake] at hafter
    exact Nat.le_succ_of_le (Nat.le_trans (length_scanExponent _ _ _ _) hafter)
  | case3 => exact length_scanExponent _ _ _ _

/-- A number takes its digits at least. -/
theorem length_scanNumber (negative : Bool) (cs : List Char) :
    (scanNumber negative cs).2.length ≤ (takeDigits cs).2.length := by
  fun_cases scanNumber negative cs with
  | case1 => simp
  | case2 => simp
  | case3 ds after hds hzero htake =>
    rw [htake]
    exact length_scanFraction _ _ _

/-- What a word leaves is no longer than what follows its first character. -/
theorem length_scanToken (c : Char) (rest : List Char) :
    (scanToken c rest).2.length ≤ rest.length := by
  fun_cases scanToken c rest with
  | case7 | case8 | case9 => exact length_scanWord _ _ _
  | case10 => exact Nat.le_trans (length_scanNumber _ _) (length_takeDigits _)
  | case11 t after hscan =>
    have htext := length_scanText rest
    rwa [hscan] at htext
  | case12 c hdigit =>
    have hnumber := length_scanNumber false (c :: rest)
    rw [takeDigits, List.dropWhile_cons_of_pos hdigit] at hnumber
    rw [if_pos hdigit]
    exact Nat.le_trans hnumber (length_takeDigits rest)
  | case13 c hdigit => rw [if_neg hdigit]; exact Nat.zero_le _
  | _ => exact Nat.le_refl _

/-- Fuel that is enough is no limit. -/
theorem tokensUpTo_congr (m n : Nat) (cs : List Char) (hm : cs.length ≤ m) (hn : cs.length ≤ n) :
    tokensUpTo m cs = tokensUpTo n cs := by
  induction m generalizing n cs with
  | zero =>
    cases cs with
    | nil => cases n <;> rfl
    | cons c rest => simp at hm
  | succ m ih =>
    cases n with
    | zero =>
      cases cs with
      | nil => rfl
      | cons c rest => simp at hn
    | succ n =>
      cases cs with
      | nil => rfl
      | cons c rest =>
        have hlen := length_scanToken c rest
        rw [List.length_cons] at hm hn
        simp only [tokensUpTo, ih n rest (by omega) (by omega),
          ih n (scanToken c rest).2 (by omega) (by omega)]

@[simp] theorem tokens_nil : tokens [] = [] := rfl

theorem tokens_blank {c : Char} (rest : List Char) (h : isBlank c = true) :
    tokens (c :: rest) = tokens rest := by
  rw [tokens, List.length_cons, tokensUpTo, if_pos h, tokens]

theorem tokens_word {c : Char} {rest after : List Char} {t : Token} (hc : isBlank c = false)
    (h : scanToken c rest = (t, after)) (ht : t.isLast = false) :
    tokens (c :: rest) = t :: tokens after := by
  have hlen := length_scanToken c rest
  rw [h] at hlen
  rw [tokens, List.length_cons, tokensUpTo, if_neg (by simp [hc]), h]
  simp only [ht]
  rw [tokens, tokensUpTo_congr rest.length after.length after hlen (Nat.le_refl _)]
  rfl

section Marks

variable (rest : List Char)

@[simp] theorem tokens_openArray : tokens ('[' :: rest) = .openArray :: tokens rest :=
  tokens_word (by decide) rfl rfl

@[simp] theorem tokens_closeArray : tokens (']' :: rest) = .closeArray :: tokens rest :=
  tokens_word (by decide) rfl rfl

@[simp] theorem tokens_openObject : tokens ('{' :: rest) = .openObject :: tokens rest :=
  tokens_word (by decide) rfl rfl

@[simp] theorem tokens_closeObject : tokens ('}' :: rest) = .closeObject :: tokens rest :=
  tokens_word (by decide) rfl rfl

@[simp] theorem tokens_comma : tokens (',' :: rest) = .comma :: tokens rest :=
  tokens_word (by decide) rfl rfl

@[simp] theorem tokens_colon : tokens (':' :: rest) = .colon :: tokens rest :=
  tokens_word (by decide) rfl rfl

theorem tokens_null : tokens ("null".toList ++ rest) = .null :: tokens rest :=
  tokens_word (by decide) rfl rfl

theorem tokens_bool (b : Bool) : tokens (Json.boolChars b ++ rest) = .bool b :: tokens rest := by
  cases b with
  | true => exact tokens_word (by decide) rfl rfl
  | false => exact tokens_word (by decide) rfl rfl

end Marks

/-! ### Integer literals -/

/-- The literal of an integer. -/
def Literal.ofInt (n : Int) : Literal := ⟨n < 0, digits n.natAbs, [], none⟩

/-- The text of an integer: its digits, and a sign if it is negative. -/
theorem Number.toList_text_int (n : Int) :
    (Number.int n).text.toList =
      if n < 0 then '-' :: Nat.toDigits 10 n.natAbs else Nat.toDigits 10 n.natAbs := by
  cases n with
  | ofNat m =>
    rw [if_neg (by simp)]
    exact Nat.toList_repr
  | negSucc m =>
    rw [if_pos (Int.negSucc_lt_zero m)]
    show ("-" ++ Nat.repr (m + 1)).toList = _
    rw [String.toList_append, Nat.toList_repr]
    rfl

/-- Integers of 64 bits are read as they were written. -/
theorem Literal.read_ofInt {n : Int} (hl : -(signedBound : Int) ≤ n) (hu : n < wordBound) :
    (Literal.ofInt n).read = .ok (.int n) := by
  have hbounds : signedBound < wordBound := by decide
  have hgather : gather 0 (digits n.natAbs) = (n.natAbs, []) := gather_digits (by omega)
  have hnumber : (Literal.ofInt n).number? = integer? (n < 0) n.natAbs := by
    rw [number?, ofInt, hgather]
    rfl
  have hinteger : integer? (n < 0) n.natAbs = some (.int n) := by
    by_cases hn : n < 0
    · have hfit : (decide (0 < n.natAbs) && decide (n.natAbs ≤ signedBound)) = true := by
        simp only [Bool.and_eq_true, decide_eq_true_eq]
        omega
      have habs : -(n.natAbs : Int) = n := by omega
      rw [decide_eq_true hn, integer?, if_neg (by decide), if_pos hfit, habs]
    · have habs : (n.natAbs : Int) = n := by omega
      rw [decide_eq_false hn, integer?, if_pos (by decide), habs]
  rw [read, hnumber, hinteger]

theorem Literal.ofInt_injective {m n : Int} (hm : -(signedBound : Int) ≤ m ∧ m < wordBound)
    (hn : -(signedBound : Int) ≤ n ∧ n < wordBound) (h : Literal.ofInt m = Literal.ofInt n) :
    m = n := by
  have hread := congrArg Literal.read h
  rw [read_ofInt hm.1 hm.2, read_ofInt hn.1 hn.2] at hread
  exact Number.int.inj (Except.ok.inj hread)

/-- What may stand after a value: white space, a comma or a closing bracket, if anything. -/
def Apart (cs : List Char) : Prop :=
  ∀ c ∈ cs.head?, isBlank c = true ∨ c = ',' ∨ c = ']' ∨ c = '}'

theorem apart_nil : Apart [] := by simp [Apart]

theorem apart_cons {c : Char} (cs : List Char)
    (h : isBlank c = true ∨ c = ',' ∨ c = ']' ∨ c = '}') : Apart (c :: cs) := by
  simpa [Apart] using h

/-- None of the characters that may follow goes on with a number. -/
theorem Apart.head {c : Char} {cs : List Char} (h : Apart (c :: cs)) :
    c.isDigit = false ∧ c ≠ '.' ∧ c ≠ 'e' ∧ c ≠ 'E' := by
  have hc : isBlank c = true ∨ c = ',' ∨ c = ']' ∨ c = '}' := h c rfl
  simp only [isBlank, Bool.or_eq_true, decide_eq_true_eq] at hc
  rcases hc with (((rfl | rfl) | rfl) | rfl) | rfl | rfl | rfl
  all_goals decide

theorem Apart.noDigit {cs : List Char} (h : Apart cs) : NoDigit cs := by
  cases cs with
  | nil => exact noDigit_nil
  | cons c cs => exact noDigit_cons cs h.head.1

theorem scanFraction_apart (negative : Bool) (whole : List Nat) {rest : List Char}
    (hr : Apart rest) :
    scanFraction negative whole rest = (.number ⟨negative, whole, [], none⟩, rest) := by
  cases rest with
  | nil => rfl
  | cons c rest =>
    obtain ⟨-, hpoint, he, hE⟩ := hr.head
    rw [scanFraction]
    · simp [scanExponent, he, hE]
    · rintro rest ⟨⟩
      exact hpoint rfl

theorem scanNumber_toDigits (negative : Bool) (n : Nat) {rest : List Char} (hr : Apart rest) :
    scanNumber negative (Nat.toDigits 10 n ++ rest) =
      (.number ⟨negative, digits n, [], none⟩, rest) := by
  rw [scanNumber, takeDigits_toDigits n hr.noDigit]
  split
  · next heq => exact absurd (Prod.mk.inj heq).1 (digits_ne_nil n)
  · next heq => exact absurd (Prod.mk.inj heq).1 (digits_ne_zero_cons n _ _)
  · next heq =>
    obtain ⟨rfl, rfl⟩ := Prod.mk.inj heq
    exact scanFraction_apart negative _ hr

theorem scanToken_of_isDigit {c : Char} (rest : List Char) (h : c.isDigit = true) :
    scanToken c rest = scanNumber false (c :: rest) := by
  unfold scanToken
  split
  case h_12 => rw [if_pos h]
  all_goals exact absurd h (by decide)

theorem isBlank_of_isDigit {c : Char} (h : c.isDigit = true) : isBlank c = false := by
  rw [← Bool.not_eq_true]
  intro hc
  simp only [isBlank, Bool.or_eq_true, decide_eq_true_eq] at hc
  rcases hc with ((rfl | rfl) | rfl) | rfl
  all_goals exact absurd h (by decide)

theorem tokens_int (n : Int) {rest : List Char} (hr : Apart rest) :
    tokens ((Number.int n).text.toList ++ rest) = .number (.ofInt n) :: tokens rest := by
  have hscan := scanNumber_toDigits (decide (n < 0)) n.natAbs hr
  rw [Number.toList_text_int]
  split
  · next hn =>
    rw [decide_eq_true hn] at hscan
    have hword : scanToken '-' (Nat.toDigits 10 n.natAbs ++ rest) =
        (.number (.ofInt n), rest) := by
      rw [scanToken, hscan, Literal.ofInt, decide_eq_true hn]
    exact tokens_word (by decide) hword rfl
  · -- without a sign the number starts with its first digit
    next hn =>
    rw [decide_eq_false hn] at hscan
    obtain ⟨c, cs, hc⟩ := List.exists_cons_of_ne_nil (Nat.toDigits_ne_nil (n := n.natAbs) (b := 10))
    have hdigit : c.isDigit = true := isDigit_of_mem_toDigits (hc ▸ List.mem_cons_self)
    rw [hc, List.cons_append] at hscan ⊢
    refine tokens_word (isBlank_of_isDigit hdigit) ?_ rfl
    rw [scanToken_of_isDigit _ hdigit, hscan, Literal.ofInt, decide_eq_false hn]

end TraceBacklog
