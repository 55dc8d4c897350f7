/-
# The text of a value

The text of a value is cut into the words of its draft, whatever follows the value
(`Json.tokens_chars`), so a text that is one value reads as the draft of that value
(`Document.ofChars_chars`). Hence different values have different texts
(`Json.chars_injective`). No character of it is a control character
(`Json.noControl_chars`): line feeds in texts are escaped and the layout has none, which
is what lets values stand on lines of their own.

Key definitions: `Json.Integral`, `Json.draft`, `NoControl`.
Key theorems: `Json.tokens_chars`, `Document.ofChars_chars`, `Json.chars_injective`,
`Json.noControl_chars`.
-/
import TraceBacklog.Proofs.Json.Draft
import TraceBacklog.Proofs.Json.Literal

namespace TraceBacklog

/-! ### Values -/

namespace Json

mutual

/-- All numbers of a value are integers of 64 bits. -/
def Integral : Json → Prop
  | .null => True
  | .bool _ => True
  | .number (.int n) => -(signedBound : Int) ≤ n ∧ n < wordBound
  | .number (.float _) => False
  | .string _ => True
  | .array items => ItemsIntegral items
  | .object fields => FieldsIntegral fields

def ItemsIntegral : List Json → Prop
  | [] => True
  | v :: rest => v.Integral ∧ ItemsIntegral rest

def FieldsIntegral : List (String × Json) → Prop
  | [] => True
  | (_, v) :: rest => v.Integral ∧ FieldsIntegral rest

end

mutual

/-- The draft of a value's text. Binary64 numbers are left out. -/
def draft : Json → Draft
  | .null => .null
  | .bool b => .bool b
  | .number (.int n) => .number (.ofInt n)
  | .number (.float _) => .absent .malformed
  | .string s => .text (.of s)
  | .array items => .array (itemDrafts items) none
  | .object fields => .object (fieldDrafts fields) .closed

def itemDrafts : List Json → List Draft
  | [] => []
  | v :: rest => v.draft :: itemDrafts rest

def fieldDrafts : List (String × Json) → List (TextLiteral × Draft)
  | [] => []
  | (k, v) :: rest => (.of k, v.draft) :: fieldDrafts rest

end

mutual

theorem skip_draft : ∀ v : Json, v.Integral → v.draft.skip = none
  | .null, _ => by simp [draft, Draft.skip]
  | .bool _, _ => by simp [draft, Draft.skip]
  | .number (.int _), _ => by simp [draft, Draft.skip]
  | .number (.float _), h => by simp [Integral] at h
  | .string _, _ => by simp [draft, Draft.skip, TextLiteral.of]
  | .array items, h => by
    rw [Integral] at h
    simp [draft, Draft.skip, skip_itemDrafts items h]
  | .object fields, h => by
    rw [Integral] at h
    simp [draft, Draft.skip, FieldsEnd.fault?, skip_fieldDrafts fields h]

theorem skip_itemDrafts : ∀ items : List Json, ItemsIntegral items →
    Draft.skipItems (itemDrafts items) = none
  | [], _ => by simp [itemDrafts, Draft.skipItems]
  | v :: rest, h => by
    rw [ItemsIntegral] at h
    simp [itemDrafts, Draft.skipItems, skip_draft v h.1, skip_itemDrafts rest h.2]

theorem skip_fieldDrafts : ∀ fields : List (String × Json), FieldsIntegral fields →
    Draft.skipFields (fieldDrafts fields) = none
  | [], _ => by simp [fieldDrafts, Draft.skipFields]
  | (k, v) :: rest, h => by
    rw [FieldsIntegral] at h
    simp [fieldDrafts, Draft.skipFields, TextLiteral.of, skip_draft v h.1,
      skip_fieldDrafts rest h.2]

end

theorem apart_moreItemChars (items : List Json) (rest : List Char) :
    Apart (moreItemChars items ++ ']' :: rest) := by
  cases items with
  | nil => rw [moreItemChars]; exact apart_cons _ (by simp)
  | cons v items => rw [moreItemChars]; exact apart_cons _ (by simp)

theorem apart_moreFieldChars (fields : List (String × Json)) (rest : List Char) :
    Apart (moreFieldChars fields ++ '}' :: rest) := by
  cases fields with
  | nil => rw [moreFieldChars]; exact apart_cons _ (by simp)
  | cons e fields => rw [moreFieldChars]; exact apart_cons _ (by simp)

mutual

/-- **The text of a value is cut into its words**, whatever stands after it. -/
theorem tokens_chars : ∀ (v : Json) (rest : List Char), v.Integral → Apart rest →
    tokens (v.chars ++ rest) = v.draft.words ++ tokens rest
  | .null, rest, _, _ => by simp only [chars, tokens_null, draft, Draft.words]; rfl
  | .bool b, rest, _, _ => by simp only [chars, tokens_bool, draft, Draft.words]; rfl
  | .number (.int n), rest, _, hr => by
    simp only [chars, tokens_int n hr, draft, Draft.words]; rfl
  | .number (.float _), _, h, _ => by simp [Integral] at h
  | .string s, rest, _, _ => by simp only [chars, tokens_stringChars, draft, Draft.words]; rfl
  | .array items, rest, h, _ => by
    rw [Integral] at h
    simp only [chars, List.cons_append, List.append_assoc, List.nil_append, tokens_openArray,
      tokens_itemChars items rest h, draft, Draft.words]
  | .object fields, rest, h, _ => by
    rw [Integral] at h
    simp only [chars, List.cons_append, List.append_assoc, List.nil_append, tokens_openObject,
      tokens_fieldChars fields rest h, draft, Draft.words]

theorem tokens_itemChars : ∀ (items : List Json) (rest : List Char), ItemsIntegral items →
    tokens (itemChars items ++ ']' :: rest) =
      Draft.itemWords (itemDrafts items) ++ tokens rest
  | [], rest, _ => by
    simp only [itemChars, List.nil_append, tokens_closeArray, itemDrafts, Draft.itemWords]; rfl
  | v :: items, rest, h => by
    rw [ItemsIntegral] at h
    rw [itemChars, List.append_assoc, tokens_chars v _ h.1 (apart_moreItemChars items rest),
      tokens_moreItemChars items rest h.2, itemDrafts, Draft.itemWords, List.append_assoc]

theorem tokens_moreItemChars : ∀ (items : List Json) (rest : List Char), ItemsIntegral items →
    tokens (moreItemChars items ++ ']' :: rest) =
      Draft.moreItemWords (itemDrafts items) ++ tokens rest
  | [], rest, _ => by
    simp only [moreItemChars, List.nil_append, tokens_closeArray, itemDrafts,
      Draft.moreItemWords]; rfl
  | v :: items, rest, h => by
    rw [ItemsIntegral] at h
    rw [moreItemChars, List.cons_append, tokens_comma, List.append_assoc,
      tokens_chars v _ h.1 (apart_moreItemChars items rest), tokens_moreItemChars items rest h.2,
      itemDrafts, Draft.moreItemWords, List.cons_append, List.append_assoc]

theorem tokens_fieldChars : ∀ (fields : List (String × Json)) (rest : List Char),
    FieldsIntegral fields → tokens (fieldChars fields ++ '}' :: rest) =
      Draft.fieldWords (fieldDrafts fields) ++ tokens rest
  | [], rest, _ => by
    simp only [fieldChars, List.nil_append, tokens_closeObject, fieldDrafts,
      Draft.fieldWords]; rfl
  | (k, v) :: fields, rest, h => by
    rw [FieldsIntegral] at h
    rw [fieldChars, List.append_assoc, tokens_stringChars, List.cons_append, tokens_colon,
      List.append_assoc, tokens_chars v _ h.1 (apart_moreFieldChars fields rest),
      tokens_moreFieldChars fields rest h.2, fieldDrafts, Draft.fieldWords, List.cons_append,
      List.cons_append, List.append_assoc]

theorem tokens_moreFieldChars : ∀ (fields : List (String × Json)) (rest : List Char),
    FieldsIntegral fields → tokens (moreFieldChars fields ++ '}' :: rest) =
      Draft.moreFieldWords (fieldDrafts fields) ++ tokens rest
  | [], rest, _ => by
    simp only [moreFieldChars, List.nil_append, tokens_closeObject, fieldDrafts,
      Draft.moreFieldWords]; rfl
  | (k, v) :: fields, rest, h => by
    rw [FieldsIntegral] at h
    rw [moreFieldChars, List.cons_append, tokens_comma, List.append_assoc, tokens_stringChars,
      List.cons_append, tokens_colon, List.append_assoc,
      tokens_chars v _ h.1 (apart_moreFieldChars fields rest),
      tokens_moreFieldChars fields rest h.2, fieldDrafts, Draft.moreFieldWords,
      List.cons_append, List.cons_append, List.cons_append, List.append_assoc]

end

end Json

/-- A text that is one value reads as the draft of the value. -/
theorem Document.ofChars_chars {v : Json} (h : v.Integral) :
    Document.ofChars v.chars = ⟨v.draft, none⟩ := by
  have htokens := v.tokens_chars [] h apart_nil
  rw [List.append_nil, tokens_nil, List.append_nil] at htokens
  rw [Document.ofChars, htokens, Document.ofTokens_words (v.skip_draft h)]

/-! ### Different values, different texts -/

namespace Json

mutual

/-- Different values have different drafts. -/
theorem draft_injective : ∀ v w : Json, v.Integral → w.Integral → v.draft = w.draft → v = w
  | .null, w, _, hw, h => by
    cases w with
    | null => rfl
    | number n => cases n <;> simp [draft] at h
    | _ => simp [draft] at h
  | .bool a, w, _, hw, h => by
    cases w with
    | bool b => simpa [draft] using h
    | number n => cases n <;> simp [draft] at h
    | _ => simp [draft] at h
  | .number (.int m), w, hv, hw, h => by
    cases w with
    | number n =>
      cases n with
      | int n =>
        rw [Integral] at hv hw
        rw [draft, draft, Draft.number.injEq] at h
        rw [Literal.ofInt_injective hv hw h]
      | float x => simp [draft] at h
    | _ => simp [draft] at h
  | .number (.float _), _, hv, _, _ => by simp [Integral] at hv
  | .string s, w, _, _, h => by
    cases w with
    | string t =>
      rw [draft, draft, Draft.text.injEq] at h
      rw [TextLiteral.of_injective h]
    | number n => cases n <;> simp [draft] at h
    | _ => simp [draft] at h
  | .array items, w, hv, hw, h => by
    cases w with
    | array others =>
      rw [Integral] at hv hw
      rw [draft, draft, Draft.array.injEq] at h
      rw [itemDrafts_injective items others hv hw h.1]
    | number n => cases n <;> simp [draft] at h
    | _ => simp [draft] at h
  | .object fields, w, hv, hw, h => by
    cases w with
    | object others =>
      rw [Integral] at hv hw
      rw [draft, draft, Draft.object.injEq] at h
      rw [fieldDrafts_injective fields others hv hw h.1]
    | number n => cases n <;> simp [draft] at h
    | _ => simp [draft] at h

theorem itemDrafts_injective : ∀ items others : List Json, ItemsIntegral items →
    ItemsIntegral others → itemDrafts items = itemDrafts others → items = others
  | [], [], _, _, _ => rfl
  | [], _ :: _, _, _, h => by simp [itemDrafts] at h
  | _ :: _, [], _, _, h => by simp [itemDrafts] at h
  | v :: items, w :: others, hv, hw, h => by
    rw [ItemsIntegral] at hv hw
    rw [itemDrafts, itemDrafts, List.cons.injEq] at h
    rw [draft_injective v w hv.1 hw.1 h.1, itemDrafts_injective items others hv.2 hw.2 h.2]

theorem fieldDrafts_injective : ∀ fields others : List (String × Json), FieldsIntegral fields →
    FieldsIntegral others → fieldDrafts fields = fieldDrafts others → fields = others
  | [], [], _, _, _ => rfl
  | [], _ :: _, _, _, h => by simp [fieldDrafts] at h
  | _ :: _, [], _, _, h => by simp [fieldDrafts] at h
  | (k, v) :: fields, (l, w) :: others, hv, hw, h => by
    rw [FieldsIntegral] at hv hw
    rw [fieldDrafts, fieldDrafts, List.cons.injEq, Prod.mk.injEq] at h
    rw [TextLiteral.of_injective h.1.1, draft_injective v w hv.1 hw.1 h.1.2,
      fieldDrafts_injective fields others hv.2 hw.2 h.2]

end

/-- **The text of a value tells the value.** -/
theorem chars_injective {v w : Json} (hv : v.Integral) (hw : w.Integral)
    (h : v.chars = w.chars) : v = w := by
  have hdoc := congrArg Document.ofChars h
  rw [Document.ofChars_chars hv, Document.ofChars_chars hw, Document.mk.injEq] at hdoc
  exact draft_injective v w hv hw hdoc.1

end Json

/-! ### No control characters -/

/-- A text without characters below the space. -/
def NoControl (cs : List Char) : Prop := ∀ c ∈ cs, 32 ≤ c.toNat

@[simp] theorem noControl_nil : NoControl [] := by simp [NoControl]

@[simp] theorem noControl_cons {c : Char} {cs : List Char} :
    NoControl (c :: cs) ↔ 32 ≤ c.toNat ∧ NoControl cs := by
  simp [NoControl]

@[simp] theorem noControl_append {first rest : List Char} :
    NoControl (first ++ rest) ↔ NoControl first ∧ NoControl rest := by
  simp [NoControl, or_imp, forall_and]

theorem NoControl.newline_not_mem {cs : List Char} (h : NoControl cs) : '\n' ∉ cs := fun hmem =>
  absurd (h '\n' hmem) (by decide)

theorem noControl_of_isDigit {cs : List Char} (h : ∀ c ∈ cs, c.isDigit = true) :
    NoControl cs := by
  intro c hc
  have hdigit := h c hc
  simp only [Char.isDigit, Bool.and_eq_true, decide_eq_true_eq] at hdigit
  have : ('0' : Char).toNat ≤ c.toNat := hdigit.1
  exact Nat.le_trans (by decide) this

namespace Json

theorem noControl_hexDigit {n : Nat} (h : n < 16) : 32 ≤ (Hex.digit n).toNat := by
  have : ∀ m : Fin 16, 32 ≤ (Hex.digit m).toNat := by decide
  exact this ⟨n, h⟩

theorem noControl_escapeChar (c : Char) : NoControl (escapeChar c) := by
  unfold escapeChar
  split
  · simp
  · split
    · simp
    · split
      · next hc =>
        split
        · next letter hletter =>
          have : 32 ≤ letter.toNat := by
            unfold shortEscape at hletter
            split at hletter
            all_goals
              first
              | cases hletter; decide
              | cases hletter
          simp [this]
        · simp [noControl_hexDigit (show c.toNat / 16 < 16 by omega),
            noControl_hexDigit (show c.toNat % 16 < 16 by omega)]
      · next hc => simpa using hc

theorem noControl_stringChars (s : String) : NoControl (stringChars s) := by
  have hescape : NoControl (escape s.toList) := by
    intro c hc
    obtain ⟨d, -, hd⟩ := List.mem_flatMap.1 hc
    exact noControl_escapeChar d c hd
  simp [stringChars, hescape]

theorem noControl_int (n : Int) : NoControl (Number.int n).text.toList := by
  have hdigits : NoControl (Nat.toDigits 10 n.natAbs) :=
    noControl_of_isDigit fun _ hc => isDigit_of_mem_toDigits hc
  rw [Number.toList_text_int]
  split
  · simp [hdigits]
  · exact hdigits

mutual

/-- Escaped or not, no character of a value's text is a control character. -/
theorem noControl_chars : ∀ v : Json, v.Integral → NoControl v.chars
  | .null, _ => by simp [chars]
  | .bool b, _ => by cases b <;> simp [chars, boolChars]
  | .number (.int n), _ => by rw [chars]; exact noControl_int n
  | .number (.float _), h => by simp [Integral] at h
  | .string s, _ => by rw [chars]; exact noControl_stringChars s
  | .array items, h => by
    rw [Integral] at h
    simp [chars, noControl_itemChars items h]
  | .object fields, h => by
    rw [Integral] at h
    simp [chars, noControl_fieldChars fields h]

theorem noControl_itemChars : ∀ items : List Json, ItemsIntegral items →
    NoControl (itemChars items)
  | [], _ => by simp [itemChars]
  | v :: items, h => by
    rw [ItemsIntegral] at h
    simp [itemChars, noControl_chars v h.1, noControl_moreItemChars items h.2]

theorem noControl_moreItemChars : ∀ items : List Json, ItemsIntegral items →
    NoControl (moreItemChars items)
  | [], _ => by simp [moreItemChars]
  | v :: items, h => by
    rw [ItemsIntegral] at h
    simp [moreItemChars, noControl_chars v h.1, noControl_moreItemChars items h.2]

theorem noControl_fieldChars : ∀ fields : List (String × Json), FieldsIntegral fields →
    NoControl (fieldChars fields)
  | [], _ => by simp [fieldChars]
  | (k, v) :: fields, h => by
    rw [FieldsIntegral] at h
    simp [fieldChars, noControl_stringChars, noControl_chars v h.1,
      noControl_moreFieldChars fields h.2]

theorem noControl_moreFieldChars : ∀ fields : List (String × Json), FieldsIntegral fields →
    NoControl (moreFieldChars fields)
  | [], _ => by simp [moreFieldChars]
  | (k, v) :: fields, h => by
    rw [FieldsIntegral] at h
    simp [moreFieldChars, noControl_stringChars, noControl_chars v h.1,
      noControl_moreFieldChars fields h.2]

end

end Json

end TraceBacklog
