/-
# Text literals

Between quotes stand pieces: characters, spelled as they are or by a letter, and 16-bit units,
spelled by four digits (`Spelled`). Any pieces make a literal, and it is one word
(`tokens_quote`); it denotes a text if its surrogates come in pairs (`Denotes`), and is read as
this text (`TextLiteral.read_of_denotes`). An escaped text is spelled by pieces that denote it
(`spelled_escape`, `denotes_map_of`), so a written text is one word and comes back out of it.

Key definitions: `Spelled`, `Denotes`, `quote`, `Piece.of`, `TextLiteral.of`.
Key theorems: `scanText_spelled`, `tokens_quote`, `TextLiteral.read_of_denotes`,
`tokens_stringChars`, `TextLiteral.read_of`.
-/
import TraceBacklog.Proofs.Json.Words

namespace TraceBacklog

/-! ### What literals look like -/

/-- Pieces as they may stand between quotes. -/
inductive Spelled : List Piece → List Char → Prop
  | nil : Spelled [] []
  | plain {c : Char} {pieces : List Piece} {cs : List Char} (hq : c ≠ '"') (hb : c ≠ '\\')
      (hc : 32 ≤ c.toNat) (h : Spelled pieces cs) : Spelled (.char c :: pieces) (c :: cs)
  | short {e c : Char} {pieces : List Piece} {cs : List Char} (he : unescape? e = some c)
      (h : Spelled pieces cs) : Spelled (.char c :: pieces) ('\\' :: e :: cs)
  | unit {a b c d : Char} {u : Nat} {pieces : List Piece} {cs : List Char}
      (hu : unitOf? a b c d = some u) (h : Spelled pieces cs) :
      Spelled (.unit u :: pieces) ('\\' :: 'u' :: a :: b :: c :: d :: cs)

/-- The text that pieces denote: surrogates come in pairs. -/
inductive Denotes : List Piece → List Char → Prop
  | nil : Denotes [] []
  | char {c : Char} {pieces : List Piece} {s : List Char} (h : Denotes pieces s) :
      Denotes (.char c :: pieces) (c :: s)
  | unit {u : Nat} {pieces : List Piece} {s : List Char} (hu : u < 0xD800 ∨ 0xE000 ≤ u)
      (h : Denotes pieces s) : Denotes (.unit u :: pieces) (Char.ofNat u :: s)
  | pair {high low : Nat} {pieces : List Piece} {s : List Char}
      (hhigh : 0xD800 ≤ high ∧ high < 0xDC00) (hlow : 0xDC00 ≤ low ∧ low < 0xE000)
      (h : Denotes pieces s) :
      Denotes (.unit high :: .unit low :: pieces)
        (Char.ofNat (0x10000 + (high - 0xD800) * 0x400 + (low - 0xDC00)) :: s)

def quote (cs : List Char) : List Char := '"' :: (cs ++ ['"'])

/-! ### Reading a literal -/

theorem scanText_short {e c : Char} (rest : List Char) (h : unescape? e = some c) (he : e ≠ 'u') :
    scanText ('\\' :: e :: rest) = ((scanText rest).1.cons (.char c), (scanText rest).2) := by
  rw [scanText]
  · simp [h]
  · intro _ _ _ _ _ hu
    exact absurd hu he
  · exact he

theorem scanText_plain {c : Char} (rest : List Char) (hq : c ≠ '"') (hb : c ≠ '\\')
    (h : ¬ c.toNat < 32) :
    scanText (c :: rest) = ((scanText rest).1.cons (.char c), (scanText rest).2) := by
  rw [scanText, if_neg h]
  all_goals simp_all

/-- Pieces are read up to the closing quote. -/
theorem scanText_spelled {pieces : List Piece} {cs : List Char} (h : Spelled pieces cs)
    (rest : List Char) : scanText (cs ++ '"' :: rest) = (⟨pieces, none⟩, rest) := by
  induction h with
  | nil => simp [scanText]
  | plain hq hb hc h ih =>
    rw [List.cons_append, scanText_plain _ hq hb (by omega), ih]
    rfl
  | short he h ih =>
    have hu : ∀ e c, unescape? e = some c → e ≠ 'u' := by
      rintro e c he rfl
      simp [unescape?] at he
    rw [List.cons_append, List.cons_append, scanText_short _ he (hu _ _ he), ih]
    rfl
  | unit hu h ih =>
    simp only [List.cons_append]
    rw [scanText, hu, ih]
    rfl

theorem tokens_quote {pieces : List Piece} {cs : List Char} (h : Spelled pieces cs)
    (rest : List Char) :
    tokens (quote cs ++ rest) = .text ⟨pieces, none⟩ :: tokens rest := by
  have hscan : scanToken '"' (cs ++ '"' :: rest) = (.text ⟨pieces, none⟩, rest) := by
    simp only [scanToken, scanText_spelled h]
  rw [quote, List.cons_append, List.append_assoc, List.singleton_append]
  exact tokens_word (by decide) hscan rfl

namespace TextLiteral

/-- A unit that is no surrogate is a character. -/
theorem decode_unit {u : Nat} (fault : Option Fault) (rest : List Piece)
    (h : u < 0xD800 ∨ 0xE000 ≤ u) :
    decode fault (.unit u :: rest) = (decode fault rest).map (Char.ofNat u :: ·) := by
  have hlow : isLowSurrogate u = false := by
    simp only [isLowSurrogate, Bool.and_eq_false_iff, decide_eq_false_iff_not]
    omega
  have hhigh : isHighSurrogate u = false := by
    simp only [isHighSurrogate, Bool.and_eq_false_iff, decide_eq_false_iff_not]
    omega
  rw [decode.eq_def]
  simp only [hlow, hhigh, Bool.false_eq_true, if_false]

/-- A high surrogate and the low one after it are one character. -/
theorem decode_pair {high low : Nat} (fault : Option Fault) (rest : List Piece)
    (hhigh : 0xD800 ≤ high ∧ high < 0xDC00) (hlow : 0xDC00 ≤ low ∧ low < 0xE000) :
    decode fault (.unit high :: .unit low :: rest) =
      (decode fault rest).map (pair high low :: ·) := by
  have hnotlow : isLowSurrogate high = false := by
    simp only [isLowSurrogate, Bool.and_eq_false_iff, decide_eq_false_iff_not]
    omega
  have hishigh : isHighSurrogate high = true := by simp [isHighSurrogate, hhigh]
  have hislow : isLowSurrogate low = true := by simp [isLowSurrogate, hlow]
  rw [decode.eq_def]
  simp only [hnotlow, hishigh, hislow, Bool.false_eq_true, if_false, if_true]

theorem decode_of_denotes {pieces : List Piece} {s : List Char} (h : Denotes pieces s) :
    decode none pieces = .ok s := by
  induction h with
  | nil => rfl
  | char h ih => rw [decode, ih]; rfl
  | unit hu h ih => rw [decode_unit _ _ hu, ih]; rfl
  | pair hhigh hlow h ih => rw [decode_pair _ _ hhigh hlow, ih]; rfl

/-- What a literal denotes is what is read. -/
theorem read_of_denotes {pieces : List Piece} {s : String} (h : Denotes pieces s.toList) :
    read ⟨pieces, none⟩ = .ok s := by
  rw [read, value, decode_of_denotes h]
  simp [Except.map, String.ofList_toList]

end TextLiteral

/-! ### Writing a literal -/

/-- How a character stands in a literal: by number if it is a control character without a
short escape. -/
def Piece.of (c : Char) : Piece :=
  if c.toNat < 32 ∧ Json.shortEscape c = none then .unit c.toNat else .char c

/-- The literal of a text. -/
def TextLiteral.of (s : String) : TextLiteral := ⟨s.toList.map Piece.of, none⟩

/-- A short escape names its character. -/
theorem unescape?_shortEscape {c e : Char} (h : Json.shortEscape c = some e) :
    unescape? e = some c := by
  have hc : c = Char.ofNat c.toNat := (Char.ofNat_toNat c).symm
  unfold Json.shortEscape at h
  split at h
  all_goals
    first
    | next heq =>
      rw [heq] at hc
      cases h
      subst hc
      decide
    | cases h

theorem unitOf?_control {n : Nat} (h : n < 32) :
    unitOf? '0' '0' (Hex.digit (n / 16)) (Hex.digit (n % 16)) = some n := by
  have hzero : Hex.value? '0' = some 0 := by decide
  simp only [unitOf?, hzero, Hex.value?_digit (show n / 16 < 16 by omega),
    Hex.value?_digit (show n % 16 < 16 by omega), Option.bind_eq_bind, Option.bind_some,
    Option.pure_def]
  congr 1
  omega

/-- An escaped character spells its piece. -/
theorem Spelled.escapeChar (c : Char) {pieces : List Piece} {cs : List Char}
    (h : Spelled pieces cs) : Spelled (.of c :: pieces) (Json.escapeChar c ++ cs) := by
  unfold Json.escapeChar Piece.of
  by_cases hq : c = '"'
  · subst hq
    exact .short rfl h
  · rw [if_neg hq]
    by_cases hb : c = '\\'
    · subst hb
      exact .short rfl h
    · rw [if_neg hb]
      by_cases hc : c.toNat < 32
      · rw [if_pos hc]
        cases he : Json.shortEscape c with
        | some e =>
          rw [if_neg (by simp)]
          exact .short (unescape?_shortEscape he) h
        | none =>
          rw [if_pos ⟨hc, rfl⟩]
          exact .unit (unitOf?_control hc) h
      · rw [if_neg hc, if_neg (fun h => hc h.1)]
        exact .plain hq hb (Nat.le_of_not_lt hc) h

theorem spelled_escape (cs : List Char) : Spelled (cs.map Piece.of) (Json.escape cs) := by
  induction cs with
  | nil => exact .nil
  | cons c cs ih =>
    rw [Json.escape, List.flatMap_cons]
    exact ih.escapeChar c

theorem denotes_map_of (cs : List Char) : Denotes (cs.map Piece.of) cs := by
  induction cs with
  | nil => exact .nil
  | cons c cs ih =>
    rw [List.map_cons, Piece.of]
    split
    · have hunit := Denotes.unit (u := c.toNat) (by omega) ih
      rwa [Char.ofNat_toNat] at hunit
    · exact .char ih

/-- A written text is one word. -/
theorem tokens_stringChars (s : String) (rest : List Char) :
    tokens (Json.stringChars s ++ rest) = .text (.of s) :: tokens rest :=
  tokens_quote (spelled_escape s.toList) rest

namespace TextLiteral

/-- The text of a literal is the text it was made of. -/
@[simp] theorem read_of (s : String) : (TextLiteral.of s).read = .ok s :=
  read_of_denotes (denotes_map_of s.toList)

theorem of_injective {s t : String} (h : of s = of t) : s = t := by
  have hread := congrArg read h
  rw [read_of, read_of] at hread
  exact Except.ok.inj hread

end TextLiteral

end TraceBacklog
