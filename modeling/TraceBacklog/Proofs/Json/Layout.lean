/-
# Layouts of a value

A value is written compactly or on several lines. The text on several lines is one of the texts
of the value's draft (`Json.writtenAs_prettyChars`), so it is read like the compact one
(`Reads.decodeChars_prettyChars`). What the layout adds is white space between words and nothing
else: without it the text on several lines is the compact text (`Json.condense_prettyChars`),
whatever stands in the literals of either. Where it adds it is told by the lines: every item and
every field begins one, two spaces deeper than the brackets around it
(`Json.splitOn_prettyChars`).

Key definitions: `condense`, `isSolid`, `Json.lines`.
Key theorems: `Json.writtenAs_prettyChars`, `Reads.decodeChars_prettyChars`,
`condense_condense`, `Json.condense_prettyChars`, `Json.condense_pretty_eq_condense_compact`,
`Json.flatMap_lines`, `Json.splitOn_prettyChars`.
-/
import Mathlib.Tactic.Common
import TraceBacklog.Proofs.Json.Read
import TraceBacklog.Proofs.Json.Written

namespace TraceBacklog

/-! ### Reading the text on several lines -/

theorem blank_newline (depth : ℕ) : Blank (Json.newline depth) := by
  intro c hc
  rcases List.mem_cons.1 hc with rfl | hc
  · rfl
  · rw [List.eq_of_mem_replicate hc]
    rfl

namespace Json

/-- After the first item the lines of the others follow. -/
theorem prettyItems_cons_cons (depth : ℕ) (v w : Json) (items : List Json) :
    prettyItems depth (v :: w :: items) =
      newline depth ++ v.prettyChars depth ++ ',' :: prettyItems depth (w :: items) := by
  rw [prettyItems, prettyMoreItems, prettyItems]

theorem prettyFields_cons_cons (depth : ℕ) (k : String) (v : Json) (e : String × Json)
    (fields : List (String × Json)) :
    prettyFields depth ((k, v) :: e :: fields) =
      newline depth ++ stringChars k ++ [':', ' '] ++ v.prettyChars depth ++
        ',' :: prettyFields depth (e :: fields) := by
  rw [prettyFields, prettyMoreFields, prettyFields]

mutual

/-- **The text on several lines is a text of the draft.** -/
theorem writtenAs_prettyChars : ∀ (v : Json) (depth : ℕ), v.Integral →
    v.draft.WrittenAs (v.prettyChars depth)
  | .null, _, h => by simpa only [prettyChars, chars] using Draft.writtenAs_chars h
  | .bool _, _, h => by simpa only [prettyChars, chars] using Draft.writtenAs_chars h
  | .number _, _, h => by simpa only [prettyChars, chars] using Draft.writtenAs_chars h
  | .string _, _, h => by simpa only [prettyChars, chars] using Draft.writtenAs_chars h
  | .array [], _, _ => by
    rw [prettyChars, draft, itemDrafts]
    exact Draft.writtenAs_emptyArray blank_nil
  | .array (v :: items), depth, h => by
    rw [Integral] at h
    rw [prettyChars, draft]
    · exact (itemsWrittenAs_prettyItems (v :: items) (depth + 1) (List.cons_ne_nil _ _) h
        (blank_newline depth)).array
    · exact List.cons_ne_nil _ _
  | .object [], _, _ => by
    rw [prettyChars, draft, fieldDrafts]
    exact Draft.writtenAs_emptyObject blank_nil
  | .object (e :: fields), depth, h => by
    rw [Integral] at h
    rw [prettyChars, draft]
    · exact (fieldsWrittenAs_prettyFields (e :: fields) (depth + 1) (List.cons_ne_nil _ _) h
        (blank_newline depth)).object
    · exact List.cons_ne_nil _ _

/-- White space after the last item belongs to it. -/
theorem itemsWrittenAs_prettyItems : ∀ (items : List Json) (depth : ℕ) {after : List Char},
    items ≠ [] → ItemsIntegral items → Blank after →
    Draft.ItemsWrittenAs (itemDrafts items) (prettyItems depth items ++ after)
  | [], _, _, hne, _, _ => absurd rfl hne
  | [v], depth, after, _, h, hafter => by
    rw [ItemsIntegral] at h
    have hitem := (writtenAs_prettyChars v depth h.1).spaced (blank_newline depth) hafter
    rw [prettyItems, prettyMoreItems, List.append_nil, List.append_assoc]
    exact .item hitem
  | v :: w :: items, depth, after, _, h, hafter => by
    rw [ItemsIntegral] at h
    have hitem := (writtenAs_prettyChars v depth h.1).spaced (blank_newline depth) blank_nil
    have hrest := itemsWrittenAs_prettyItems (w :: items) depth (List.cons_ne_nil _ _) h.2 hafter
    rw [List.append_nil] at hitem
    rw [prettyItems_cons_cons, List.append_assoc, List.cons_append]
    exact .cons hitem hrest

theorem fieldsWrittenAs_prettyFields : ∀ (fields : List (String × Json)) (depth : ℕ)
    {after : List Char}, fields ≠ [] → FieldsIntegral fields → Blank after →
    Draft.FieldsWrittenAs (fieldDrafts fields) (prettyFields depth fields ++ after)
  | [], _, _, hne, _, _ => absurd rfl hne
  | [(k, v)], depth, after, _, h, hafter => by
    rw [FieldsIntegral] at h
    have hvalue := (writtenAs_prettyChars v depth h.1).spaced blank_space hafter
    have hfield := Draft.fieldWrittenAs_keyed (blank_newline depth) (spelled_escape k.toList)
      blank_nil hvalue
    have hline : prettyFields depth [(k, v)] ++ after = newline depth ++
        (quote (escape k.toList) ++ ([] ++ ':' :: ([' '] ++ (v.prettyChars depth ++ after)))) := by
      simp [prettyFields, prettyMoreFields, stringChars, quote]
    rw [hline]
    exact .field hfield
  | (k, v) :: e :: fields, depth, after, _, h, hafter => by
    rw [FieldsIntegral] at h
    have hvalue := (writtenAs_prettyChars v depth h.1).spaced blank_space blank_nil
    have hfield := Draft.fieldWrittenAs_keyed (blank_newline depth) (spelled_escape k.toList)
      blank_nil hvalue
    have hrest := fieldsWrittenAs_prettyFields (e :: fields) depth (List.cons_ne_nil _ _) h.2
      hafter
    have hline : prettyFields depth ((k, v) :: e :: fields) ++ after = newline depth ++
        (quote (escape k.toList) ++ ([] ++ ':' :: ([' '] ++ (v.prettyChars depth ++ [])))) ++
          ',' :: (prettyFields depth (e :: fields) ++ after) := by
      simp [prettyFields_cons_cons, stringChars, quote]
    rw [hline]
    exact .cons hfield hrest

end

end Json

/-- **What is read back from drafts is read back from texts on several lines.** -/
theorem Reads.decodeChars_prettyChars {α : Type} {r : Reader α} {w : α → Json} (h : Reads r w)
    (a : α) (depth : ℕ) : decodeChars r ((w a).prettyChars depth) = .ok a := by
  rw [decodeChars_of_writtenAs ((w a).writtenAs_prettyChars depth (h.integral a)), h.read a]

/-! ### Texts without white space -/

mutual

/-- A text without the white space outside of its literals. -/
def condense : List Char → List Char
  | [] => []
  | c :: rest =>
    if c = '"' then '"' :: condenseLiteral rest
    else if isBlank c then condense rest
    else c :: condense rest

/-- The same from inside of a literal. The character after a backslash does not end it. -/
def condenseLiteral : List Char → List Char
  | [] => []
  | '"' :: rest => '"' :: condense rest
  | '\\' :: c :: rest => '\\' :: c :: condenseLiteral rest
  | c :: rest => c :: condenseLiteral rest

end

/-- Neither white space nor the begin of a literal. -/
def isSolid (c : Char) : Bool := !isBlank c && c != '"'

theorem isSolid_of_isDigit {c : Char} (h : c.isDigit = true) : isSolid c = true := by
  have hquote : c ≠ '"' := by
    rintro rfl
    exact absurd h (by decide)
  simp [isSolid, isBlank_of_isDigit h, hquote]

@[simp] theorem condense_nil : condense [] = [] := by rw [condense]

theorem condense_blank {c : Char} (h : isBlank c = true) (rest : List Char) :
    condense (c :: rest) = condense rest := by
  have hc : c ≠ '"' := by
    rintro rfl
    exact absurd h (by decide)
  rw [condense, if_neg hc, if_pos h]

theorem condense_solid {c : Char} (h : isSolid c = true) (rest : List Char) :
    condense (c :: rest) = c :: condense rest := by
  simp only [isSolid, Bool.and_eq_true, Bool.not_eq_true', bne_iff_ne] at h
  rw [condense, if_neg h.2, h.1, if_neg Bool.false_ne_true]

theorem condense_blank_append {ws : List Char} (h : Blank ws) (rest : List Char) :
    condense (ws ++ rest) = condense rest := by
  induction ws with
  | nil => rfl
  | cons c ws ih =>
    rw [List.cons_append, condense_blank (h c List.mem_cons_self)]
    exact ih fun d hd => h d (List.mem_cons_of_mem c hd)

theorem condense_solid_append {cs : List Char} (h : cs.all isSolid = true) (rest : List Char) :
    condense (cs ++ rest) = cs ++ condense rest := by
  induction cs with
  | nil => rfl
  | cons c cs ih =>
    rw [List.all_cons, Bool.and_eq_true] at h
    rw [List.cons_append, condense_solid h.1, ih h.2, List.cons_append]

theorem condenseLiteral_plain {c : Char} (hq : c ≠ '"') (hb : c ≠ '\\') (rest : List Char) :
    condenseLiteral (c :: rest) = c :: condenseLiteral rest := by
  rw [condenseLiteral]
  · exact hq
  · intro d rest hc
    exact absurd hc hb

/-- A digit is neither a quote nor a backslash. -/
theorem condenseLiteral_digit {c : Char} {n : ℕ} (h : Hex.value? c = some n)
    (rest : List Char) : condenseLiteral (c :: rest) = c :: condenseLiteral rest := by
  refine condenseLiteral_plain ?_ ?_ rest
  all_goals
    rintro rfl
    simp [Hex.value?] at h

/-- What is between quotes stays, and white space in it too. -/
theorem condenseLiteral_spelled {pieces : List Piece} {cs : List Char} (h : Spelled pieces cs)
    (rest : List Char) : condenseLiteral (cs ++ '"' :: rest) = cs ++ '"' :: condense rest := by
  induction h with
  | nil => rw [List.nil_append, condenseLiteral, List.nil_append]
  | plain hq hb hc h ih =>
    rw [List.cons_append, condenseLiteral_plain hq hb, ih, List.cons_append]
  | short he h ih =>
    rw [List.cons_append, List.cons_append, condenseLiteral, ih, List.cons_append,
      List.cons_append]
  | @unit a b c d u pieces cs hu h ih =>
    simp only [unitOf?, Option.bind_eq_bind, Option.bind_eq_some_iff] at hu
    obtain ⟨_, ha, _, hb, _, hc, _, hd, -⟩ := hu
    simp only [List.cons_append]
    rw [condenseLiteral, condenseLiteral_digit ha, condenseLiteral_digit hb,
      condenseLiteral_digit hc, condenseLiteral_digit hd, ih]

theorem condense_quote {pieces : List Piece} {cs : List Char} (h : Spelled pieces cs)
    (rest : List Char) : condense (quote cs ++ rest) = quote cs ++ condense rest := by
  rw [quote, List.cons_append, List.append_assoc, List.singleton_append, condense, if_pos rfl,
    condenseLiteral_spelled h, List.cons_append, List.append_assoc, List.singleton_append]

mutual

/-- White space is deleted once and for all. -/
theorem condense_condense : ∀ cs : List Char, condense (condense cs) = condense cs
  | [] => by rw [condense_nil, condense_nil]
  | c :: rest => by
    by_cases hq : c = '"'
    · subst hq
      rw [condense, if_pos rfl, condense, if_pos rfl, condenseLiteral_condenseLiteral rest]
    · cases hblank : isBlank c with
      | true => rw [condense_blank hblank, condense_condense rest]
      | false =>
        have hsolid : isSolid c = true := by simp [isSolid, hblank, hq]
        rw [condense_solid hsolid, condense_solid hsolid, condense_condense rest]

theorem condenseLiteral_condenseLiteral : ∀ cs : List Char,
    condenseLiteral (condenseLiteral cs) = condenseLiteral cs
  | [] => rfl
  | c :: rest => by
    by_cases hq : c = '"'
    · subst hq
      rw [condenseLiteral, condenseLiteral, condense_condense rest]
    · by_cases hb : c = '\\'
      · subst hb
        match rest with
        | [] => rfl
        | c :: rest => rw [condenseLiteral, condenseLiteral, condenseLiteral_condenseLiteral rest]
      · rw [condenseLiteral_plain hq hb, condenseLiteral_plain hq hb,
          condenseLiteral_condenseLiteral rest]

end

namespace Json

theorem condense_stringChars (s : String) (rest : List Char) :
    condense (stringChars s ++ rest) = stringChars s ++ condense rest :=
  condense_quote (spelled_escape s.toList) rest

theorem condense_int (n : Int) (rest : List Char) :
    condense ((Number.int n).text.toList ++ rest) =
      (Number.int n).text.toList ++ condense rest := by
  have hdigits : (Nat.toDigits 10 n.natAbs).all isSolid = true := by
    rw [List.all_eq_true]
    exact fun c hc => isSolid_of_isDigit (isDigit_of_mem_toDigits hc)
  refine condense_solid_append ?_ rest
  rw [Number.toList_text_int]
  split
  · rw [List.all_cons, hdigits]
    rfl
  · exact hdigits

mutual

/-- **Without white space the text on several lines is the compact one.** -/
theorem condense_prettyChars : ∀ (v : Json) (depth : ℕ) (rest : List Char), v.Integral →
    condense (v.prettyChars depth ++ rest) = v.chars ++ condense rest
  | .null, _, rest, _ => by
    rw [prettyChars, chars]
    exact condense_solid_append rfl rest
  | .bool b, _, rest, _ => by
    rw [prettyChars, chars]
    exact condense_solid_append (by cases b <;> rfl) rest
  | .number (.int n), _, rest, _ => by
    rw [prettyChars, chars]
    exact condense_int n rest
  | .number (.float _), _, _, h => by simp [Integral] at h
  | .string s, _, rest, _ => by
    rw [prettyChars, chars]
    exact condense_stringChars s rest
  | .array [], _, rest, _ => by
    rw [prettyChars, chars, itemChars]
    exact condense_solid_append rfl rest
  | .array (v :: items), depth, rest, h => by
    rw [Integral] at h
    rw [prettyChars, chars]
    · simp only [List.cons_append, List.append_assoc, List.nil_append]
      rw [condense_solid rfl,
        condense_prettyItems (v :: items) (depth + 1) _ h,
        condense_blank_append (blank_newline depth), condense_solid rfl]
    · exact List.cons_ne_nil _ _
  | .object [], _, rest, _ => by
    rw [prettyChars, chars, fieldChars]
    exact condense_solid_append rfl rest
  | .object (e :: fields), depth, rest, h => by
    rw [Integral] at h
    rw [prettyChars, chars]
    · simp only [List.cons_append, List.append_assoc, List.nil_append]
      rw [condense_solid rfl,
        condense_prettyFields (e :: fields) (depth + 1) _ h,
        condense_blank_append (blank_newline depth), condense_solid rfl]
    · exact List.cons_ne_nil _ _

theorem condense_prettyItems : ∀ (items : List Json) (depth : ℕ) (rest : List Char),
    ItemsIntegral items →
    condense (prettyItems depth items ++ rest) = itemChars items ++ condense rest
  | [], _, rest, _ => by rw [prettyItems, itemChars, List.nil_append, List.nil_append]
  | v :: items, depth, rest, h => by
    rw [ItemsIntegral] at h
    rw [prettyItems, itemChars, List.append_assoc, List.append_assoc, List.append_assoc,
      condense_blank_append (blank_newline depth), condense_prettyChars v depth _ h.1,
      condense_prettyMoreItems items depth rest h.2]

theorem condense_prettyMoreItems : ∀ (items : List Json) (depth : ℕ) (rest : List Char),
    ItemsIntegral items →
    condense (prettyMoreItems depth items ++ rest) = moreItemChars items ++ condense rest
  | [], _, rest, _ => by rw [prettyMoreItems, moreItemChars, List.nil_append, List.nil_append]
  | v :: items, depth, rest, h => by
    rw [ItemsIntegral] at h
    simp only [prettyMoreItems, moreItemChars, List.cons_append, List.append_assoc]
    rw [condense_solid rfl, condense_blank_append (blank_newline depth),
      condense_prettyChars v depth _ h.1, condense_prettyMoreItems items depth rest h.2]

theorem condense_prettyFields : ∀ (fields : List (String × Json)) (depth : ℕ)
    (rest : List Char), FieldsIntegral fields →
    condense (prettyFields depth fields ++ rest) = fieldChars fields ++ condense rest
  | [], _, rest, _ => by rw [prettyFields, fieldChars, List.nil_append, List.nil_append]
  | (k, v) :: fields, depth, rest, h => by
    rw [FieldsIntegral] at h
    simp only [prettyFields, fieldChars, List.cons_append, List.append_assoc, List.nil_append]
    rw [condense_blank_append (blank_newline depth), condense_stringChars,
      condense_solid rfl, condense_blank rfl, condense_prettyChars v depth _ h.1,
      condense_prettyMoreFields fields depth rest h.2]

theorem condense_prettyMoreFields : ∀ (fields : List (String × Json)) (depth : ℕ)
    (rest : List Char), FieldsIntegral fields →
    condense (prettyMoreFields depth fields ++ rest) = moreFieldChars fields ++ condense rest
  | [], _, rest, _ => by rw [prettyMoreFields, moreFieldChars, List.nil_append, List.nil_append]
  | (k, v) :: fields, depth, rest, h => by
    rw [FieldsIntegral] at h
    simp only [prettyMoreFields, moreFieldChars, List.cons_append, List.append_assoc,
      List.nil_append]
    rw [condense_solid rfl, condense_blank_append (blank_newline depth),
      condense_stringChars, condense_solid rfl, condense_blank rfl,
      condense_prettyChars v depth _ h.1, condense_prettyMoreFields fields depth rest h.2]

end

/-- **The two texts differ only in white space between words.** -/
theorem condense_pretty_eq_condense_compact {v : Json} (h : v.Integral) (depth : ℕ) :
    condense (v.prettyChars depth) = condense v.chars := by
  have hpretty : condense (v.prettyChars depth) = v.chars := by
    simpa using v.condense_prettyChars depth [] h
  rw [← hpretty, condense_condense]

end Json

/-! ### The lines -/

/-- Texts that begin with a separator are texts with the separator between them, after one. -/
theorem flatMap_cons_eq_intercalate {α : Type} (sep : α) {texts : List (List α)}
    (h : texts ≠ []) : texts.flatMap (sep :: ·) = sep :: [sep].intercalate texts := by
  induction texts with
  | nil => exact absurd rfl h
  | cons text rest ih =>
    cases rest with
    | nil => simp
    | cons next rest =>
      rw [List.flatMap_cons, ih (List.cons_ne_nil _ _)]
      simp [List.intercalate]

namespace Json

/-- The white space that a line begins with. -/
def indent (depth : ℕ) : List Char := List.replicate (2 * depth) ' '

mutual

/-- The lines of a value on several lines: `lead` stands in front of it on its first line, and
`trail` behind it on its last one. -/
def lines (depth : ℕ) (lead trail : List Char) : Json → List (List Char)
  | .array (v :: items) =>
    (indent depth ++ lead ++ ['[']) :: itemLines (depth + 1) (v :: items) ++
      [indent depth ++ ']' :: trail]
  | .object (e :: fields) =>
    (indent depth ++ lead ++ ['{']) :: fieldLines (depth + 1) (e :: fields) ++
      [indent depth ++ '}' :: trail]
  | v => [indent depth ++ lead ++ v.chars ++ trail]

/-- Every item begins a line of its own, and a comma ends its last one unless it is the last. -/
def itemLines (depth : ℕ) : List Json → List (List Char)
  | [] => []
  | [v] => v.lines depth [] []
  | v :: w :: rest => v.lines depth [] [','] ++ itemLines depth (w :: rest)

/-- So does every field, with its key in front. -/
def fieldLines (depth : ℕ) : List (String × Json) → List (List Char)
  | [] => []
  | [(k, v)] => v.lines depth (stringChars k ++ [':', ' ']) []
  | (k, v) :: e :: rest =>
    v.lines depth (stringChars k ++ [':', ' ']) [','] ++ fieldLines depth (e :: rest)

end

mutual

/-- Each after a line feed, the lines are the text. -/
theorem flatMap_lines : ∀ (v : Json) (depth : ℕ) (lead trail : List Char),
    (v.lines depth lead trail).flatMap ('\n' :: ·) =
      newline depth ++ lead ++ v.prettyChars depth ++ trail
  | .null, depth, lead, trail | .bool _, depth, lead, trail | .number _, depth, lead, trail
  | .string _, depth, lead, trail | .array [], depth, lead, trail
  | .object [], depth, lead, trail => by
    simp [lines, prettyChars, chars, itemChars, fieldChars, newline, indent]
  | .array (v :: items), depth, lead, trail => by
    have hitems := flatMap_itemLines (v :: items) (depth + 1)
    rw [lines, prettyChars]
    · simp [hitems, newline, indent]
    · exact List.cons_ne_nil _ _
  | .object (e :: fields), depth, lead, trail => by
    have hfields := flatMap_fieldLines (e :: fields) (depth + 1)
    rw [lines, prettyChars]
    · simp [hfields, newline, indent]
    · exact List.cons_ne_nil _ _

theorem flatMap_itemLines : ∀ (items : List Json) (depth : ℕ),
    (itemLines depth items).flatMap ('\n' :: ·) = prettyItems depth items
  | [], _ => by
    rw [itemLines, prettyItems]
    rfl
  | [v], depth => by
    rw [itemLines, flatMap_lines v, prettyItems, prettyMoreItems, List.append_nil, List.append_nil,
      List.append_nil]
  | v :: w :: items, depth => by
    rw [itemLines, List.flatMap_append, flatMap_lines v, flatMap_itemLines (w :: items),
      prettyItems_cons_cons]
    simp

theorem flatMap_fieldLines : ∀ (fields : List (String × Json)) (depth : ℕ),
    (fieldLines depth fields).flatMap ('\n' :: ·) = prettyFields depth fields
  | [], _ => by
    rw [fieldLines, prettyFields]
    rfl
  | [(k, v)], depth => by
    rw [fieldLines, flatMap_lines v, prettyFields, prettyMoreFields, List.append_nil,
      List.append_nil, ← List.append_assoc (newline depth)]
  | (k, v) :: e :: fields, depth => by
    rw [fieldLines, List.flatMap_append, flatMap_lines v, flatMap_fieldLines (e :: fields),
      prettyFields_cons_cons]
    simp

end

theorem noControl_indent (depth : ℕ) : NoControl (indent depth) := by
  intro c hc
  rw [List.eq_of_mem_replicate hc]
  decide

mutual

/-- No line has a line feed in it. -/
theorem noControl_lines : ∀ (v : Json) (depth : ℕ) {lead trail : List Char}, v.Integral →
    NoControl lead → NoControl trail → ∀ line ∈ v.lines depth lead trail, NoControl line
  | .array (v :: items), depth, lead, trail, h, hlead, htrail => by
    rw [Integral] at h
    have hitems := noControl_itemLines (v :: items) (depth + 1) h
    rw [lines, List.cons_append, List.forall_mem_cons, List.forall_mem_append]
    refine ⟨?_, hitems, ?_⟩
    · simp [noControl_indent, hlead]
    · simp [noControl_indent, htrail]
  | .object (e :: fields), depth, lead, trail, h, hlead, htrail => by
    rw [Integral] at h
    have hfields := noControl_fieldLines (e :: fields) (depth + 1) h
    rw [lines, List.cons_append, List.forall_mem_cons, List.forall_mem_append]
    refine ⟨?_, hfields, ?_⟩
    · simp [noControl_indent, hlead]
    · simp [noControl_indent, htrail]
  | .null, depth, lead, trail, h, hlead, htrail
  | .bool _, depth, lead, trail, h, hlead, htrail
  | .number _, depth, lead, trail, h, hlead, htrail
  | .string _, depth, lead, trail, h, hlead, htrail
  | .array [], depth, lead, trail, h, hlead, htrail
  | .object [], depth, lead, trail, h, hlead, htrail => by
    simp [lines, noControl_indent, hlead, htrail, noControl_chars _ h]

theorem noControl_itemLines : ∀ (items : List Json) (depth : ℕ), ItemsIntegral items →
    ∀ line ∈ itemLines depth items, NoControl line
  | [], _, _ => by
    rw [itemLines]
    exact List.forall_mem_nil _
  | [v], depth, h => by
    rw [ItemsIntegral] at h
    rw [itemLines]
    exact noControl_lines v depth h.1 noControl_nil noControl_nil
  | v :: w :: items, depth, h => by
    rw [ItemsIntegral] at h
    rw [itemLines, List.forall_mem_append]
    exact ⟨noControl_lines v depth h.1 noControl_nil (by simp),
      noControl_itemLines (w :: items) depth h.2⟩

theorem noControl_fieldLines : ∀ (fields : List (String × Json)) (depth : ℕ),
    FieldsIntegral fields → ∀ line ∈ fieldLines depth fields, NoControl line
  | [], _, _ => by
    rw [fieldLines]
    exact List.forall_mem_nil _
  | [(k, v)], depth, h => by
    rw [FieldsIntegral] at h
    have hkey : NoControl (stringChars k ++ [':', ' ']) := by simp [noControl_stringChars]
    rw [fieldLines]
    exact noControl_lines v depth h.1 hkey noControl_nil
  | (k, v) :: e :: fields, depth, h => by
    rw [FieldsIntegral] at h
    have hkey : NoControl (stringChars k ++ [':', ' ']) := by simp [noControl_stringChars]
    rw [fieldLines, List.forall_mem_append]
    exact ⟨noControl_lines v depth h.1 hkey (by simp),
      noControl_fieldLines (e :: fields) depth h.2⟩

end

theorem lines_ne_nil (v : Json) (depth : ℕ) (lead trail : List Char) :
    v.lines depth lead trail ≠ [] := by
  unfold lines
  split <;> simp

/-- **The lines of the text on several lines.** A value that is cut at its line feeds has a line
for each bracket, item and field, two spaces deeper for every bracket around it. -/
theorem splitOn_prettyChars {v : Json} (h : v.Integral) :
    (v.prettyChars 0).splitOn '\n' = v.lines 0 [] [] := by
  have hlines : ∀ line ∈ v.lines 0 [] [], '\n' ∉ line := fun line hline =>
    (noControl_lines v 0 h noControl_nil noControl_nil line hline).newline_not_mem
  have hjoined : '\n' :: v.prettyChars 0 = '\n' :: ['\n'].intercalate (v.lines 0 [] []) := by
    rw [← flatMap_cons_eq_intercalate '\n' (v.lines_ne_nil 0 [] []), flatMap_lines,
      List.append_nil, List.append_nil]
    rfl
  rw [List.cons_eq_cons] at hjoined
  rw [hjoined.2]
  exact List.splitOn_intercalate '\n' hlines (v.lines_ne_nil 0 [] [])

example : (object [("a", .array [.null, .array []]), ("b", .bool true)]).lines 0 [] [] =
    ["\x7b", "  \"a\": [", "    null,", "    []", "  ],", "  \"b\": true", "\x7d"].map
      String.toList := by
  decide

end Json

end TraceBacklog
