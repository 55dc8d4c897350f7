/-
# The words of a draft

A draft without a fault has words, and is read back from them whatever words follow
(`Draft.read_words`). The fuel of the reader is no limit: as many steps as there are words
are enough. So what is left to know about a text is its words.

Key definitions: `Draft.words`.
Key theorems: `Draft.read_words`, `Document.ofTokens_words`.
-/
import TraceBacklog.Json.Draft

namespace TraceBacklog

namespace Draft

mutual

/-- The words of a draft. -/
def words : Draft → List Token
  | .null => [.null]
  | .bool b => [.bool b]
  | .number n => [.number n]
  | .text t => [.text t]
  | .array items _ => .openArray :: itemWords items
  | .object fields _ => .openObject :: fieldWords fields
  | .absent _ => []
  | .broken r s => [.broken r s]

/-- The words of an array from its first item on. -/
def itemWords : List Draft → List Token
  | [] => [.closeArray]
  | v :: rest => v.words ++ moreItemWords rest

/-- The words of an array after an item. -/
def moreItemWords : List Draft → List Token
  | [] => [.closeArray]
  | v :: rest => .comma :: (v.words ++ moreItemWords rest)

/-- The words of an object from its first field on. -/
def fieldWords : List (TextLiteral × Draft) → List Token
  | [] => [.closeObject]
  | (key, v) :: rest => .text key :: .colon :: (v.words ++ moreFieldWords rest)

/-- The words of an object after a field. -/
def moreFieldWords : List (TextLiteral × Draft) → List Token
  | [] => [.closeObject]
  | (key, v) :: rest =>
    .comma :: .text key :: .colon :: (v.words ++ moreFieldWords rest)

end

theorem moreItemWords_cons (v : Draft) (rest : List Draft) :
    moreItemWords (v :: rest) = .comma :: itemWords (v :: rest) := by
  rw [moreItemWords, itemWords]

theorem moreFieldWords_cons (e : TextLiteral × Draft) (rest : List (TextLiteral × Draft)) :
    moreFieldWords (e :: rest) = .comma :: fieldWords (e :: rest) := by
  rw [moreFieldWords, fieldWords]

theorem fault_eq_none_of_fault? {ending : FieldsEnd} (h : ending.fault? = none) :
    ending = .closed := by
  cases ending with
  | closed => rfl
  | fault f => simp [FieldsEnd.fault?] at h
  | noKey f => simp [FieldsEnd.fault?] at h

/-- A value starts with a word that ends no array. -/
theorem words_eq_cons {d : Draft} (h : d.skip = none) :
    ∃ t ts, d.words = t :: ts ∧ t ≠ .closeArray := by
  cases d with
  | absent f => simp [skip] at h
  | broken r s => simp [skip] at h
  | _ => exact ⟨_, _, by rw [words], by simp⟩

theorem read_array (fuel : Nat) {t : Token} (ts : List Token) (h : t ≠ .closeArray) :
    read (fuel + 1) (.openArray :: t :: ts) = readItems fuel (t :: ts) := by
  rw [read]
  rintro rest ⟨⟩
  exact h rfl

mutual

/-- **A draft without a fault is read from its words.** -/
theorem read_words : ∀ (d : Draft) (fuel : Nat) (after : List Token), d.skip = none →
    d.words.length ≤ fuel → read fuel (d.words ++ after) = (d, some after)
  | d, 0, _, h, hf => by
    obtain ⟨t, ts, ht, -⟩ := words_eq_cons h
    simp [ht] at hf
  | .null, _ + 1, _, _, _ => by simp [words, read]
  | .bool _, _ + 1, _, _, _ => by simp [words, read]
  | .number _, _ + 1, _, _, _ => by simp [words, read]
  | .text t, _ + 1, _, h, _ => by
    have ht : t.fault = none := by simpa [skip] using h
    simp [words, read, ht]
  | .array items fault, fuel + 1, after, h, hf => by
    obtain ⟨hitems, rfl⟩ : skipItems items = none ∧ fault = none := by simpa [skip] using h
    cases items with
    | nil => simp [words, itemWords, read]
    | cons v rest =>
      have hv : v.skip = none := by
        rw [skipItems, Option.or_eq_none_iff] at hitems
        exact hitems.1
      -- the first item does not start with the closing bracket of an empty array
      obtain ⟨t, ts, ht, hne⟩ := words_eq_cons hv
      have hlen : (itemWords (v :: rest)).length ≤ fuel := by
        rw [words, List.length_cons] at hf
        omega
      have hread := readItems_words (v :: rest) fuel after (List.cons_ne_nil _ _) hitems hlen
      rw [itemWords, ht, List.cons_append, List.cons_append] at hread
      rw [words, itemWords, ht, List.cons_append, List.cons_append, List.cons_append,
        read_array _ _ hne, hread]
  | .object fields ending, fuel + 1, after, h, hf => by
    obtain ⟨hfields, hend⟩ : skipFields fields = none ∧ ending.fault? = none := by
      simpa [skip] using h
    rw [fault_eq_none_of_fault? hend]
    cases fields with
    | nil => simp [words, fieldWords, read]
    | cons e rest =>
      have hlen : (fieldWords (e :: rest)).length ≤ fuel := by
        rw [words, List.length_cons] at hf
        omega
      have hread := readFields_words (e :: rest) fuel after (List.cons_ne_nil _ _) hfields hlen
      rw [words, List.cons_append, ← hread, fieldWords]
      rfl
  | .absent _, _ + 1, _, h, _ => by simp [skip] at h
  | .broken _ _, _ + 1, _, h, _ => by simp [skip] at h

theorem readItems_words : ∀ (items : List Draft) (fuel : Nat) (after : List Token), items ≠ [] →
    skipItems items = none → (itemWords items).length ≤ fuel →
    readItems fuel (itemWords items ++ after) = (.array items none, some after)
  | [], _, _, hne, _, _ => absurd rfl hne
  | v :: rest, 0, _, _, h, hf => by
    rw [skipItems, Option.or_eq_none_iff] at h
    obtain ⟨t, ts, ht, -⟩ := words_eq_cons h.1
    simp [itemWords, ht] at hf
  | v :: rest, fuel + 1, after, _, h, hf => by
    rw [skipItems, Option.or_eq_none_iff] at h
    rw [itemWords, List.length_append] at hf
    cases rest with
    | nil =>
      have hv := read_words v fuel (.closeArray :: after) h.1 (by
        rw [moreItemWords, List.length_singleton] at hf; omega)
      rw [itemWords, moreItemWords, List.append_assoc, List.singleton_append, readItems, hv]
    | cons w rest =>
      rw [moreItemWords_cons, List.length_cons] at hf
      have hv := read_words v fuel (.comma :: (itemWords (w :: rest) ++ after)) h.1 (by omega)
      have hrest := readItems_words (w :: rest) fuel after (List.cons_ne_nil _ _) h.2 (by omega)
      rw [itemWords, moreItemWords_cons, List.append_assoc, List.cons_append, readItems, hv]
      simp only [hrest]

theorem readFields_words : ∀ (fields : List (TextLiteral × Draft)) (fuel : Nat)
    (after : List Token), fields ≠ [] → skipFields fields = none →
    (fieldWords fields).length ≤ fuel →
    readFields fuel (fieldWords fields ++ after) = (.object fields .closed, some after)
  | [], _, _, hne, _, _ => absurd rfl hne
  | (key, v) :: rest, 0, _, _, _, hf => by simp [fieldWords] at hf
  | (key, v) :: rest, fuel + 1, after, _, h, hf => by
    rw [skipFields, Option.or_eq_none_iff, Option.or_eq_none_iff] at h
    rw [fieldWords, List.length_cons, List.length_cons, List.length_append] at hf
    cases rest with
    | nil =>
      have hv := read_words v fuel (.closeObject :: after) h.1.2 (by omega)
      rw [fieldWords, moreFieldWords, List.cons_append, List.cons_append, List.append_assoc,
        List.singleton_append, readFields, hv]
    | cons w rest =>
      rw [moreFieldWords_cons, List.length_cons] at hf
      have hv := read_words v fuel (.comma :: (fieldWords (w :: rest) ++ after)) h.1.2 (by omega)
      have hrest := readFields_words (w :: rest) fuel after (List.cons_ne_nil _ _) h.2 (by omega)
      rw [fieldWords, moreFieldWords_cons, List.cons_append, List.cons_append, List.append_assoc,
        List.cons_append, readFields, hv]
      simp only [hrest]

end

end Draft

/-- The words of a value and no more are a document. -/
theorem Document.ofTokens_words {d : Draft} (h : d.skip = none) :
    Document.ofTokens d.words = ⟨d, none⟩ := by
  have hread := Draft.read_words d (2 * d.words.length + 1) [] h (by omega)
  rw [List.append_nil] at hread
  rw [Document.ofTokens, hread]

end TraceBacklog
