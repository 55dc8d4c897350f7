/-
# Texts of a draft

A draft without a fault has many texts, with white space between the words and with numbers
and literals written in any way that the grammar has. They are cut into the words of the draft
whatever follows them (`Draft.WrittenAs`), and so a whole text of a draft reads as the draft
(`Document.ofChars_of_writtenAs`) and a reader finds in it what it finds in the draft
(`decodeChars_of_writtenAs`). Every text that the grammar produces is a text of some draft
(`Produces.exists_writtenAs`).

Key definitions: `Draft.WrittenAs`, `Draft.ItemsWrittenAs`, `Draft.FieldWrittenAs`,
`Draft.FieldsWrittenAs`.
Key theorems: `Draft.WrittenAs.spaced`, `Produces.exists_writtenAs`,
`Document.ofChars_of_writtenAs`, `decodeChars_of_writtenAs`.
-/
import TraceBacklog.Proofs.Json.Chars
import TraceBacklog.Proofs.Json.Grammar

namespace TraceBacklog

theorem tokens_blank_append {ws : List Char} (h : Blank ws) (rest : List Char) :
    tokens (ws ++ rest) = tokens rest := by
  induction ws with
  | nil => rfl
  | cons c ws ih =>
    rw [List.cons_append, tokens_blank _ (h c List.mem_cons_self)]
    exact ih fun d hd => h d (List.mem_cons_of_mem c hd)

theorem Blank.apart_append {ws rest : List Char} (h : Blank ws) (hr : Apart rest) :
    Apart (ws ++ rest) := by
  cases ws with
  | nil => exact hr
  | cons c ws => exact apart_cons _ (.inl (h c List.mem_cons_self))

namespace Draft

/-- The characters are a text of the draft: they are cut into its words, whatever may follow. -/
structure WrittenAs (d : Draft) (cs : List Char) : Prop where
  whole : d.skip = none
  cut : ∀ rest, Apart rest → tokens (cs ++ rest) = d.words ++ tokens rest

/-- The characters stand between the brackets of an array of these items. -/
structure ItemsWrittenAs (items : List Draft) (cs : List Char) : Prop where
  ne_nil : items ≠ []
  whole : skipItems items = none
  cut : ∀ rest, tokens (cs ++ ']' :: rest) = itemWords items ++ tokens rest

/-- The characters are a key and its value. -/
structure FieldWrittenAs (key : TextLiteral) (d : Draft) (cs : List Char) : Prop where
  key_whole : key.fault = none
  whole : d.skip = none
  cut : ∀ rest, Apart rest →
    tokens (cs ++ rest) = .text key :: .colon :: (d.words ++ tokens rest)

/-- The characters stand between the braces of an object of these fields. -/
structure FieldsWrittenAs (fields : List (TextLiteral × Draft)) (cs : List Char) : Prop where
  ne_nil : fields ≠ []
  whole : skipFields fields = none
  cut : ∀ rest, tokens (cs ++ '}' :: rest) = fieldWords fields ++ tokens rest

variable {d : Draft} {cs before after : List Char}

/-- White space around a text does not count. -/
theorem WrittenAs.spaced (hbefore : Blank before) (h : d.WrittenAs cs) (hafter : Blank after) :
    d.WrittenAs (before ++ (cs ++ after)) where
  whole := h.whole
  cut rest hr := by
    rw [List.append_assoc, List.append_assoc, tokens_blank_append hbefore,
      h.cut _ (hafter.apart_append hr), tokens_blank_append hafter]

/-- The compact text of a value is one of its draft. -/
theorem writtenAs_chars {v : Json} (h : v.Integral) : v.draft.WrittenAs v.chars where
  whole := v.skip_draft h
  cut rest hr := v.tokens_chars rest h hr

theorem writtenAs_quote {pieces : List Piece} (h : Spelled pieces cs) :
    (Draft.text ⟨pieces, none⟩).WrittenAs (quote cs) where
  whole := by rw [skip]
  cut rest _ := by rw [tokens_quote h, words]; rfl

/-! ### Arrays -/

theorem ItemsWrittenAs.item (h : d.WrittenAs cs) : ItemsWrittenAs [d] cs where
  ne_nil := List.cons_ne_nil _ _
  whole := by rw [skipItems, h.whole, skipItems]; rfl
  cut rest := by
    rw [h.cut _ (apart_cons _ (by simp)), tokens_closeArray, itemWords, moreItemWords,
      List.append_assoc, List.singleton_append]

theorem ItemsWrittenAs.cons {items : List Draft} {cs' : List Char} (h : d.WrittenAs cs)
    (hrest : ItemsWrittenAs items cs') : ItemsWrittenAs (d :: items) (cs ++ ',' :: cs') where
  ne_nil := List.cons_ne_nil _ _
  whole := by rw [skipItems, h.whole, hrest.whole]; rfl
  cut rest := by
    obtain ⟨v, items, rfl⟩ := List.exists_cons_of_ne_nil hrest.ne_nil
    have hwords : itemWords (d :: v :: items) = d.words ++ .comma :: itemWords (v :: items) := by
      rw [itemWords, moreItemWords_cons]
    rw [List.append_assoc, List.cons_append, h.cut _ (apart_cons _ (by simp)), tokens_comma,
      hrest.cut, hwords, List.append_assoc, List.cons_append]

theorem writtenAs_emptyArray {ws : List Char} (h : Blank ws) :
    (Draft.array [] none).WrittenAs ('[' :: (ws ++ [']'])) where
  whole := by rw [skip, skipItems]; rfl
  cut rest _ := by
    rw [List.cons_append, List.append_assoc, List.singleton_append, tokens_openArray,
      tokens_blank_append h, tokens_closeArray, words, itemWords]
    rfl

theorem ItemsWrittenAs.array {items : List Draft} (h : ItemsWrittenAs items cs) :
    (Draft.array items none).WrittenAs ('[' :: (cs ++ [']'])) where
  whole := by rw [skip, h.whole]; rfl
  cut rest _ := by
    rw [List.cons_append, List.append_assoc, List.singleton_append, tokens_openArray, h.cut, words]
    rfl

/-! ### Objects -/

theorem fieldWrittenAs_keyed {pieces : List Piece} {key value : List Char}
    (hbefore : Blank before) (hkey : Spelled pieces key) (hafter : Blank after)
    (h : d.WrittenAs value) :
    FieldWrittenAs ⟨pieces, none⟩ d (before ++ (quote key ++ (after ++ ':' :: value))) where
  key_whole := rfl
  whole := h.whole
  cut rest hr := by
    simp only [List.append_assoc, List.cons_append]
    rw [tokens_blank_append hbefore, tokens_quote hkey, tokens_blank_append hafter, tokens_colon,
      h.cut rest hr]

variable {key : TextLiteral} {fields : List (TextLiteral × Draft)}

theorem FieldsWrittenAs.field (h : FieldWrittenAs key d cs) : FieldsWrittenAs [(key, d)] cs where
  ne_nil := List.cons_ne_nil _ _
  whole := by rw [skipFields, h.key_whole, h.whole, skipFields]; rfl
  cut rest := by
    rw [h.cut _ (apart_cons _ (by simp)), tokens_closeObject, fieldWords, moreFieldWords,
      List.cons_append, List.cons_append, List.append_assoc, List.singleton_append]

theorem FieldsWrittenAs.cons {cs' : List Char} (h : FieldWrittenAs key d cs)
    (hrest : FieldsWrittenAs fields cs') :
    FieldsWrittenAs ((key, d) :: fields) (cs ++ ',' :: cs') where
  ne_nil := List.cons_ne_nil _ _
  whole := by rw [skipFields, h.key_whole, h.whole, hrest.whole]; rfl
  cut rest := by
    obtain ⟨e, fields, rfl⟩ := List.exists_cons_of_ne_nil hrest.ne_nil
    have hwords : fieldWords ((key, d) :: e :: fields) =
        .text key :: .colon :: (d.words ++ .comma :: fieldWords (e :: fields)) := by
      rw [fieldWords, moreFieldWords_cons]
    rw [List.append_assoc, List.cons_append, h.cut _ (apart_cons _ (by simp)), tokens_comma,
      hrest.cut, hwords, List.cons_append, List.cons_append, List.append_assoc, List.cons_append]

theorem writtenAs_emptyObject {ws : List Char} (h : Blank ws) :
    (Draft.object [] .closed).WrittenAs ('{' :: (ws ++ ['}'])) where
  whole := by rw [skip, skipFields]; rfl
  cut rest _ := by
    rw [List.cons_append, List.append_assoc, List.singleton_append, tokens_openObject,
      tokens_blank_append h, tokens_closeObject, words, fieldWords]
    rfl

theorem FieldsWrittenAs.object (h : FieldsWrittenAs fields cs) :
    (Draft.object fields .closed).WrittenAs ('{' :: (cs ++ ['}'])) where
  whole := by rw [skip, h.whole]; rfl
  cut rest _ := by
    rw [List.cons_append, List.append_assoc, List.singleton_append, tokens_openObject, h.cut,
      words]
    rfl

end Draft

/-! ### Texts of the grammar -/

/-- What a text of a symbol is a text of. -/
def Symbol.Drafted : Symbol → List Char → Prop
  | .value, cs | .element, cs => ∃ d : Draft, d.WrittenAs cs
  | .items, cs => ∃ items, Draft.ItemsWrittenAs items cs
  | .member, cs => ∃ key d, Draft.FieldWrittenAs key d cs
  | .members, cs => ∃ fields, Draft.FieldsWrittenAs fields cs

theorem Produces.drafted {symbol : Symbol} {cs : List Char} (h : Produces symbol cs) :
    symbol.Drafted cs := by
  induction h with
  | null => exact ⟨_, Draft.writtenAs_chars (v := .null) trivial⟩
  | bool b => exact ⟨_, Draft.writtenAs_chars (v := .bool b) trivial⟩
  | number h =>
    obtain ⟨l, hl⟩ := tokens_number h
    exact ⟨.number l, by simp [Draft.skip], fun rest hr => by rw [hl rest hr, Draft.words]; rfl⟩
  | text h => exact ⟨_, Draft.writtenAs_quote h⟩
  | emptyArray h => exact ⟨_, Draft.writtenAs_emptyArray h⟩
  | array h ih =>
    obtain ⟨items, h⟩ := ih
    exact ⟨_, h.array⟩
  | emptyObject h => exact ⟨_, Draft.writtenAs_emptyObject h⟩
  | object h ih =>
    obtain ⟨fields, h⟩ := ih
    exact ⟨_, h.object⟩
  | element hbefore h hafter ih =>
    obtain ⟨d, h⟩ := ih
    exact ⟨d, h.spaced hbefore hafter⟩
  | item h ih =>
    obtain ⟨d, h⟩ := ih
    exact ⟨_, .item h⟩
  | items h hrest ih ihrest =>
    obtain ⟨d, h⟩ := ih
    obtain ⟨items, hrest⟩ := ihrest
    exact ⟨_, .cons h hrest⟩
  | keyed hbefore hkey hafter h ih =>
    obtain ⟨d, h⟩ := ih
    exact ⟨_, d, Draft.fieldWrittenAs_keyed hbefore hkey hafter h⟩
  | member h ih =>
    obtain ⟨key, d, h⟩ := ih
    exact ⟨_, .field h⟩
  | members h hrest ih ihrest =>
    obtain ⟨key, d, h⟩ := ih
    obtain ⟨fields, hrest⟩ := ihrest
    exact ⟨_, .cons h hrest⟩

/-- **Every element is a text of a draft.** -/
theorem Produces.exists_writtenAs {cs : List Char} (h : Produces .element cs) :
    ∃ d : Draft, d.WrittenAs cs := h.drafted

/-- A whole text of a draft reads as the draft. -/
theorem Document.ofChars_of_writtenAs {d : Draft} {cs : List Char} (h : d.WrittenAs cs) :
    Document.ofChars cs = ⟨d, none⟩ := by
  have hcut := h.cut [] apart_nil
  rw [List.append_nil, tokens_nil, List.append_nil] at hcut
  rw [Document.ofChars, hcut, Document.ofTokens_words h.whole]

/-- A reader finds in a whole text what it finds in the draft. -/
theorem decodeChars_of_writtenAs {α : Type} {r : Reader α} {d : Draft} {cs : List Char}
    (h : d.WrittenAs cs) : decodeChars r cs = r d := by
  rw [decodeChars, Document.ofChars_of_writtenAs h, Document.decode]
  cases r d <;> rfl

end TraceBacklog
