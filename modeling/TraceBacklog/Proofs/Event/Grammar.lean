/-
# Tags, text and what they nest into

The part of the grammar of XML that a document of events needs: names of letters, text with the
five entities that need no declaration, attributes with different names, and elements whose
closing tag has the name of the opening one (`Xml.Text`, `Xml.Attributes`, `Xml.Content`,
`Xml.IsElement`). An element has its ampersands in entities and its opening brackets in tags
(`Xml.IsElement.entities_begin`, `Xml.IsElement.tags_begin`). Escaped text is text, and marks
between an opening tag and its closing tag are an element if what they enclose is content
(`Xml.content_nest`).

Which characters may stand in a document at all is another matter (`Xml.IsChar`): escaping
changes none of those that may not (`Xml.legal_escape`).

Key definitions: `Xml.Text`, `Xml.Content`, `Xml.IsElement`, `Xml.EachBegins`, `Xml.IsChar`,
`Xml.Legal`.
Key theorems: `Xml.text_escape`, `Xml.content_nest`, `Xml.IsElement.entities_begin`,
`Xml.IsElement.tags_begin`, `Xml.legal_escape`.
-/
import TraceBacklog.Proofs.Event.Markup

namespace TraceBacklog

namespace Xml

/-! ### The grammar -/

/-- The entities that need no declaration. -/
def entityNames : List (List Char) :=
  ["amp".toList, "lt".toList, "gt".toList, "quot".toList, "apos".toList]

def entity (name : List Char) : List Char := '&' :: name ++ [';']

/-- Characters that are written as entities. -/
def special : List Char := ['&', '<', '>', '"', '\'']

/-- Text between tags or quotation marks. -/
inductive Text : List Char → Prop
  | nil : Text []
  | char {c : Char} {rest : List Char} (hc : c ∉ special) (hrest : Text rest) : Text (c :: rest)
  | entity {name rest : List Char} (hname : name ∈ entityNames) (hrest : Text rest) :
      Text (entity name ++ rest)

def IsName (name : List Char) : Prop := name ≠ [] ∧ ∀ c ∈ name, c.isAlpha = true

instance (name : List Char) : Decidable (IsName name) :=
  decidable_of_iff (name ≠ [] ∧ name.all Char.isAlpha = true) (and_congr_right' List.all_eq_true)

def attrChars (name value : List Char) : List Char :=
  ' ' :: name ++ ['=', '"'] ++ value ++ ['"']

/-- Attributes with these names, none of them twice. -/
inductive Attributes : List (List Char) → List Char → Prop
  | nil : Attributes [] []
  | cons {name value : List Char} {names : List (List Char)} {rest : List Char}
      (hname : IsName name) (hnew : name ∉ names) (hvalue : Text value)
      (hrest : Attributes names rest) : Attributes (name :: names) (attrChars name value ++ rest)

def openTag (name attributes : List Char) : List Char := '<' :: name ++ attributes ++ ['>']

def closeTag (name : List Char) : List Char := '<' :: '/' :: name ++ ['>']

/-- What stands in an element: text and elements in any order. -/
inductive Content : List Char → Prop
  | text {t : List Char} (ht : Text t) : Content t
  | element {before name attributes inner after : List Char} {names : List (List Char)}
      (hbefore : Text before) (hname : IsName name) (hattributes : Attributes names attributes)
      (hinner : Content inner) (hafter : Content after) :
      Content (before ++ openTag name attributes ++ inner ++ closeTag name ++ after)

/-- An element with this name. -/
def IsElement (name s : List Char) : Prop :=
  IsName name ∧ ∃ names attributes inner, Attributes names attributes ∧ Content inner ∧
    s = openTag name attributes ++ inner ++ closeTag name

def IsEntity (w : List Char) : Prop := ∃ name ∈ entityNames, w = entity name

def IsTag (w : List Char) : Prop :=
  ∃ name, IsName name ∧
    (w = closeTag name ∨ ∃ names attributes, Attributes names attributes ∧
      w = openTag name attributes)

/-! ### What begins with a character -/

/-- Wherever the character stands such a word begins. -/
def EachBegins (c : Char) (word : List Char → Prop) (s : List Char) : Prop :=
  ∀ before after, s = before ++ c :: after → ∃ w, word w ∧ w <+: c :: after

namespace EachBegins

variable {c : Char} {word : List Char → Prop} {s t : List Char}

theorem of_not_mem (h : c ∉ s) : EachBegins c word s := by
  rintro before after rfl
  exact absurd (List.mem_append_right before List.mem_cons_self) h

/-- A word begins with its first character and nowhere else. -/
theorem of_word (hword : word (c :: s)) (h : c ∉ s) : EachBegins c word (c :: s) := by
  intro before after hs
  cases before with
  | nil => exact ⟨c :: s, hword, hs ▸ List.prefix_rfl⟩
  | cons d before =>
    obtain ⟨-, rfl⟩ := List.cons.inj hs
    exact absurd (List.mem_append_right before List.mem_cons_self) h

theorem append (hs : EachBegins c word s) (ht : EachBegins c word t) :
    EachBegins c word (s ++ t) := by
  intro before after h
  rcases List.append_eq_append_iff.mp h with ⟨more, -, hmore⟩ | ⟨more, hmore, hrest⟩
  · exact ht more after hmore
  · cases more with
    | nil => exact ht [] after (by simpa using hrest.symm)
    | cons d more =>
      obtain ⟨rfl, rfl⟩ := List.cons.inj hrest
      obtain ⟨w, hw, hbegins⟩ := hs before more hmore
      exact ⟨w, hw, hbegins.trans (List.cons_prefix_cons.mpr ⟨rfl, List.prefix_append more t⟩)⟩

end EachBegins

/-! ### Entities and tags in the grammar -/

theorem IsName.not_mem {name : List Char} (h : IsName name) {c : Char} (hc : c.isAlpha = false) :
    c ∉ name := by
  intro hmem
  rw [h.2 c hmem] at hc
  cases hc

theorem special_not_mem_entity {name : List Char} (h : name ∈ entityNames) :
    '&' ∉ name ++ [';'] ∧ '<' ∉ entity name := by
  revert name
  decide

theorem Text.entities_begin {t : List Char} (h : Text t) : EachBegins '&' IsEntity t := by
  induction h with
  | nil => exact .of_not_mem List.not_mem_nil
  | @char c rest hc _ ih =>
    have hne : '&' ∉ [c] := fun hmem => hc (List.mem_singleton.mp hmem ▸ List.mem_cons_self)
    exact (EachBegins.of_not_mem hne).append ih
  | @entity name rest hname _ ih =>
    have hword : IsEntity (Xml.entity name) := ⟨name, hname, rfl⟩
    exact (EachBegins.of_word hword (special_not_mem_entity hname).1).append ih

theorem Text.lt_not_mem {t : List Char} (h : Text t) : '<' ∉ t := by
  induction h with
  | nil => exact List.not_mem_nil
  | char hc _ ih =>
    intro hmem
    rcases List.mem_cons.mp hmem with rfl | hmem
    · exact hc (by decide)
    · exact ih hmem
  | entity hname _ ih =>
    intro hmem
    rcases List.mem_append.mp hmem with hmem | hmem
    · exact (special_not_mem_entity hname).2 hmem
    · exact ih hmem

theorem Attributes.entities_begin {names : List (List Char)} {s : List Char}
    (h : Attributes names s) : EachBegins '&' IsEntity s := by
  induction h with
  | nil => exact .of_not_mem List.not_mem_nil
  | @cons name value names rest hname _ hvalue _ ih =>
    have hfront : '&' ∉ ' ' :: name ++ ['=', '"'] := by
      have hamp := hname.not_mem (c := '&') (by decide)
      simp [hamp]
    have hquot : '&' ∉ ['"'] := by decide
    exact (((EachBegins.of_not_mem hfront).append hvalue.entities_begin).append
      (.of_not_mem hquot)).append ih

theorem Attributes.lt_not_mem {names : List (List Char)} {s : List Char}
    (h : Attributes names s) : '<' ∉ s := by
  induction h with
  | nil => exact List.not_mem_nil
  | @cons name value names rest hname _ hvalue _ ih =>
    have hlt := hname.not_mem (c := '<') (by decide)
    simp [attrChars, hlt, hvalue.lt_not_mem, ih]

theorem entities_begin_openTag {name attributes : List Char} {names : List (List Char)}
    (hname : IsName name) (hattributes : Attributes names attributes) :
    EachBegins '&' IsEntity (openTag name attributes) := by
  have hfront : '&' ∉ '<' :: name := by
    have hamp := hname.not_mem (c := '&') (by decide)
    simp [hamp]
  have hgt : '&' ∉ ['>'] := by decide
  exact ((EachBegins.of_not_mem hfront).append hattributes.entities_begin).append
    (.of_not_mem hgt)

theorem entities_begin_closeTag {name : List Char} (hname : IsName name) :
    EachBegins '&' IsEntity (closeTag name) := by
  have hamp := hname.not_mem (c := '&') (by decide)
  exact .of_not_mem (by simp [closeTag, hamp])

theorem tags_begin_openTag {name attributes : List Char} {names : List (List Char)}
    (hname : IsName name) (hattributes : Attributes names attributes) :
    EachBegins '<' IsTag (openTag name attributes) := by
  have hlt := hname.not_mem (c := '<') (by decide)
  have hword : IsTag (openTag name attributes) :=
    ⟨name, hname, .inr ⟨names, attributes, hattributes, rfl⟩⟩
  exact .of_word hword (by simp [hlt, hattributes.lt_not_mem])

theorem tags_begin_closeTag {name : List Char} (hname : IsName name) :
    EachBegins '<' IsTag (closeTag name) := by
  have hlt := hname.not_mem (c := '<') (by decide)
  have hword : IsTag (closeTag name) := ⟨name, hname, .inl rfl⟩
  exact .of_word hword (by simp [hlt])

section Begins

variable {c : Char} {word : List Char → Prop}
  (htext : ∀ t, Text t → EachBegins c word t)
  (hopen : ∀ name names attributes, IsName name → Attributes names attributes →
    EachBegins c word (openTag name attributes))
  (hclose : ∀ name, IsName name → EachBegins c word (closeTag name))

include htext hopen hclose

theorem Content.eachBegins {s : List Char} (h : Content s) : EachBegins c word s := by
  induction h with
  | text ht => exact htext _ ht
  | @element before name attributes inner after names hbefore hname hattributes _ _ ihinner
      ihafter =>
    have hfront := (htext before hbefore).append (hopen name names attributes hname hattributes)
    exact ((hfront.append ihinner).append (hclose name hname)).append ihafter

/-- What holds of text and tags holds of elements. -/
theorem IsElement.eachBegins {name s : List Char} (h : IsElement name s) :
    EachBegins c word s := by
  obtain ⟨hname, names, attributes, inner, hattributes, hinner, rfl⟩ := h
  have hfront := hopen name names attributes hname hattributes
  exact (hfront.append (hinner.eachBegins htext hopen hclose)).append (hclose name hname)

end Begins

/-- Every ampersand of an element begins an entity. -/
theorem IsElement.entities_begin {name s : List Char} (h : IsElement name s) :
    EachBegins '&' IsEntity s :=
  h.eachBegins (fun _ ht => ht.entities_begin) (fun _ _ _ => entities_begin_openTag)
    fun _ => entities_begin_closeTag

/-- Every opening bracket of an element begins a tag. -/
theorem IsElement.tags_begin {name s : List Char} (h : IsElement name s) :
    EachBegins '<' IsTag s :=
  h.eachBegins (fun _ ht => .of_not_mem ht.lt_not_mem) (fun _ _ _ => tags_begin_openTag)
    fun _ => tags_begin_closeTag

/-! ### Texts of the grammar -/

theorem Text.append {s t : List Char} (hs : Text s) (ht : Text t) : Text (s ++ t) := by
  induction hs with
  | nil => exact ht
  | char hc _ ih => exact .char hc ih
  | @entity name rest hname _ ih =>
    rw [List.append_assoc]
    exact .entity hname ih

theorem text_of_plain {t : List Char} (h : ∀ c ∈ t, c ∉ special) : Text t := by
  induction t with
  | nil => exact .nil
  | cons c rest ih =>
    exact .char (h c List.mem_cons_self) (ih fun d hd => h d (List.mem_cons_of_mem _ hd))

theorem text_of_all {t : List Char} (h : t.all (fun c => !special.contains c) = true) :
    Text t := by
  refine text_of_plain fun c hc => ?_
  have hplain := List.all_eq_true.mp h c hc
  simpa using hplain

theorem text_entity {name : List Char} (h : name ∈ entityNames) : Text (entity name) := by
  rw [← List.append_nil (entity name)]
  exact .entity h .nil

theorem text_escapeChar (c : Char) : Text (escapeChar c) := by
  unfold escapeChar
  split
  case h_6 hamp hlt hgt hquot hapos =>
    refine text_of_plain fun d hd => ?_
    obtain rfl := List.mem_singleton.mp hd
    simp only [special, List.mem_cons, List.not_mem_nil, or_false, not_or]
    exact ⟨hamp, hlt, hgt, hquot, hapos⟩
  case h_1 => exact text_entity (show "amp".toList ∈ entityNames by decide)
  case h_2 => exact text_entity (show "lt".toList ∈ entityNames by decide)
  case h_3 => exact text_entity (show "gt".toList ∈ entityNames by decide)
  case h_4 => exact text_entity (show "quot".toList ∈ entityNames by decide)
  case h_5 => exact text_entity (show "apos".toList ∈ entityNames by decide)

/-- Escaped text is text. -/
theorem text_escape (s : String) : Text (escape s) := by
  rw [escape]
  induction s.toList with
  | nil => exact .nil
  | cons c cs ih =>
    rw [List.flatMap_cons]
    exact (text_escapeChar c).append ih

theorem text_line (depth : Nat) : Text (line depth) := by
  refine text_of_plain fun c hc => ?_
  have hblank : c = '\n' ∨ c = ' ' := by
    rcases List.mem_cons.mp hc with h | h
    · exact .inl h
    · exact .inr (List.eq_of_mem_replicate h)
  rcases hblank with rfl | rfl <;> decide

theorem attr_eq_attrChars (name value : String) :
    attr name value = attrChars name.toList (escape value) := by
  simp [attr, attrChars]

theorem Content.append {s t : List Char} (hs : Content s) (ht : Content t) :
    Content (s ++ t) := by
  induction hs with
  | @text u hu =>
    cases ht with
    | text ht => exact .text (hu.append ht)
    | element hbefore hname hattributes hinner hafter =>
      have hjoined := Content.element (hu.append hbefore) hname hattributes hinner hafter
      simpa only [List.append_assoc] using hjoined
  | element hbefore hname hattributes hinner _ _ ihafter =>
    have hjoined := Content.element hbefore hname hattributes hinner ihafter
    simpa only [List.append_assoc] using hjoined

/-! ### Marks of the grammar -/

/-- The text of a mark, an element around other marks. -/
theorem render_nest (before name attributes gap : List Char) (marks : List Mark) :
    render (⟨before, name ++ attributes⟩ :: marks ++ [⟨gap, '/' :: name⟩]) =
      before ++ openTag name attributes ++ (render marks ++ gap) ++ closeTag name := by
  simp [render, Mark.chars, openTag, closeTag]

/-- Marks that are content are an element between an opening tag and its closing tag. -/
theorem content_nest {before name attributes gap : List Char} {names : List (List Char)}
    {marks : List Mark} (hbefore : Text before) (hname : IsName name)
    (hattributes : Attributes names attributes) (hmarks : Content (render marks))
    (hgap : Text gap) :
    Content (render (⟨before, name ++ attributes⟩ :: marks ++ [⟨gap, '/' :: name⟩])) := by
  rw [render_nest, ← List.append_nil (_ ++ closeTag name)]
  exact .element hbefore hname hattributes (hmarks.append (.text hgap)) (.text .nil)

theorem content_elementMarks (depth : Nat) {name attributes content : List Char}
    {names : List (List Char)} (hname : IsName name) (hattributes : Attributes names attributes)
    (hcontent : Text content) :
    Content (render (elementMarks depth name (name ++ attributes) content)) :=
  have hmarks : Content (render []) := .text .nil
  content_nest (text_line depth) hname hattributes hmarks hcontent

theorem content_flatMap {α : Type} {f : α → List Mark} {l : List α}
    (h : ∀ a ∈ l, Content (render (f a))) : Content (render (l.flatMap f)) := by
  induction l with
  | nil => exact .text .nil
  | cons a rest ih =>
    rw [List.flatMap_cons, render_append]
    exact (h a List.mem_cons_self).append (ih fun b hb => h b (List.mem_cons_of_mem _ hb))

/-! ### Characters -/

/-- A character that may stand in a document. -/
def IsChar (c : Char) : Prop :=
  c = '\t' ∨ c = '\n' ∨ c = '\r' ∨ (0x20 ≤ c.toNat ∧ c.toNat ≤ 0xD7FF) ∨
    (0xE000 ≤ c.toNat ∧ c.toNat ≤ 0xFFFD) ∨ 0x10000 ≤ c.toNat

instance : DecidablePred IsChar := fun _ => inferInstanceAs (Decidable (_ ∨ _))

def Legal (s : List Char) : Prop := ∀ c ∈ s, IsChar c

instance (s : List Char) : Decidable (Legal s) :=
  decidable_of_iff (s.all (fun c => decide (IsChar c)) = true) <|
    List.all_eq_true.trans (forall₂_congr fun _ _ => decide_eq_true_iff)

@[simp] theorem legal_append {s t : List Char} : Legal (s ++ t) ↔ Legal s ∧ Legal t :=
  List.forall_mem_append

@[simp] theorem legal_cons {c : Char} {s : List Char} : Legal (c :: s) ↔ IsChar c ∧ Legal s :=
  List.forall_mem_cons

theorem legal_escapeChar (c : Char) : Legal (escapeChar c) ↔ IsChar c := by
  unfold escapeChar
  split
  case h_6 => exact List.forall_mem_singleton
  all_goals decide

/-- Escaping leaves in what may not stand in a document. -/
theorem legal_escape (s : String) : Legal (escape s) ↔ Legal s.toList := by
  rw [escape]
  induction s.toList with
  | nil => rfl
  | cons c cs ih => rw [List.flatMap_cons, legal_append, legal_escapeChar, ih, legal_cons]

theorem legal_render {marks : List Mark} :
    Legal (render marks) ↔ ∀ m ∈ marks, Legal m.text ∧ Legal m.tag := by
  induction marks with
  | nil => simp [render, Legal]
  | cons m rest ih =>
    have hlt : IsChar '<' := by decide
    have hgt : Legal ['>'] := by decide
    rw [render, List.flatMap_cons, legal_append, List.forall_mem_cons]
    refine and_congr ?_ ih
    simp [Mark.chars, hlt, hgt]

theorem legal_line (depth : Nat) : Legal (line depth) := by
  intro c hc
  rcases List.mem_cons.mp hc with rfl | hc
  · decide
  · rw [List.eq_of_mem_replicate hc]
    decide

theorem legal_elementMarks {depth : Nat} {name opening content : List Char}
    (hname : Legal name) : (∀ m ∈ elementMarks depth name opening content,
      Legal m.text ∧ Legal m.tag) ↔ Legal opening ∧ Legal content := by
  have hslash : IsChar '/' := by decide
  simp [elementMarks, legal_line, hname, hslash]

theorem legal_attr {name value : String} (hname : Legal name.toList) :
    Legal (attr name value) ↔ Legal value.toList := by
  have hspace : IsChar ' ' := by decide
  have hequals : Legal "=\"".toList := by decide
  have hquot : Legal ['"'] := by decide
  rw [attr, legal_append, legal_append, List.cons_append, legal_cons, legal_append, legal_escape]
  exact ⟨fun h => h.1.2, fun h => ⟨⟨⟨hspace, hname, hequals⟩, h⟩, hquot⟩⟩

theorem isChar_of_isDigit {c : Char} (h : c.isDigit = true) : IsChar c := by
  have hrange : 48 ≤ c.toNat ∧ c.toNat ≤ 57 := by
    simpa [Char.isDigit, UInt32.le_iff_toNat_le] using h
  unfold IsChar
  omega

theorem special_not_isDigit {c : Char} (h : c.isDigit = true) : c ∉ special := by
  intro hmem
  have hall : special.all (fun d => !d.isDigit) = true := by decide
  have hnot := List.all_eq_true.mp hall c hmem
  rw [h] at hnot
  cases hnot

end Xml

end TraceBacklog
