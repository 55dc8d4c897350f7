/-
# Escaped text and the tags around it

Escaped text has no bracket and no quotation mark, and can be unescaped. So a text that is
put together from tags and escaped text is cut at its brackets into marks, tags with the
text in front of them, in one way only (`Xml.render_inj`), and an attribute ends at its
quotation mark (`Xml.attr_append_inj`).

Key definitions: `Xml.unescape`, `Xml.Mark`, `Xml.render`.
Key theorems: `Xml.unescape_escape`, `Xml.attr_append_inj`, `Xml.render_inj`.
-/
import TraceBacklog.Event.Xml

namespace TraceBacklog

namespace Xml

/-! ### Escaped text -/

/-- Puts characters in place of their entities. -/
def unescape : List Char → List Char
  | '&' :: 'a' :: 'm' :: 'p' :: ';' :: rest => '&' :: unescape rest
  | '&' :: 'l' :: 't' :: ';' :: rest => '<' :: unescape rest
  | '&' :: 'g' :: 't' :: ';' :: rest => '>' :: unescape rest
  | '&' :: 'q' :: 'u' :: 'o' :: 't' :: ';' :: rest => '"' :: unescape rest
  | '&' :: 'a' :: 'p' :: 'o' :: 's' :: ';' :: rest => '\'' :: unescape rest
  | c :: rest => c :: unescape rest
  | [] => []

theorem unescape_cons {c : Char} (rest : List Char) (h : c ≠ '&') :
    unescape (c :: rest) = c :: unescape rest := by
  rw [unescape]
  all_goals
    intros
    contradiction

theorem unescape_escapeChar (c : Char) (rest : List Char) :
    unescape (escapeChar c ++ rest) = c :: unescape rest := by
  unfold escapeChar
  split
  case h_6 hamp _ _ _ _ => exact unescape_cons rest hamp
  all_goals simp [unescape]

/-- Escaping loses nothing. -/
theorem unescape_escape (s : String) : unescape (escape s) = s.toList := by
  rw [escape]
  induction s.toList with
  | nil => rw [List.flatMap_nil, unescape]
  | cons c cs ih => rw [List.flatMap_cons, unescape_escapeChar, ih]

theorem escape_inj {s t : String} : escape s = escape t ↔ s = t := by
  constructor
  · intro h
    have hread := unescape_escape s
    rw [h, unescape_escape] at hread
    exact (String.toList_inj.1 hread).symm
  · rintro rfl
    rfl

theorem plain_of_mem_escapeChar {c d : Char} (h : c ∈ escapeChar d) :
    c ≠ '<' ∧ c ≠ '>' ∧ c ≠ '"' := by
  have hall : (escapeChar d).all (fun c => c ≠ '<' && c ≠ '>' && c ≠ '"') = true := by
    unfold escapeChar
    split
    case h_6 hamp hlt hgt hquot hapos =>
      simp only [List.all_cons, List.all_nil, Bool.and_true, Bool.and_eq_true,
        decide_eq_true_eq]
      exact ⟨⟨hlt, hgt⟩, hquot⟩
    all_goals decide
  simpa [and_assoc] using List.all_eq_true.1 hall c h

/-- Escaped text has no brackets and no quotation marks. -/
theorem plain_of_mem_escape {s : String} {c : Char} (h : c ∈ escape s) :
    c ≠ '<' ∧ c ≠ '>' ∧ c ≠ '"' := by
  obtain ⟨d, -, hd⟩ := List.mem_flatMap.1 h
  exact plain_of_mem_escapeChar hd

theorem lt_not_mem_escape (s : String) : '<' ∉ escape s := fun h => (plain_of_mem_escape h).1 rfl

theorem gt_not_mem_escape (s : String) : '>' ∉ escape s := fun h =>
  (plain_of_mem_escape h).2.1 rfl

theorem quot_not_mem_escape (s : String) : '"' ∉ escape s := fun h =>
  (plain_of_mem_escape h).2.2 rfl

/-- Texts are the same up to the first place of a character and after it. -/
theorem append_cons_inj {c : Char} {x y s t : List Char} (hx : c ∉ x) (hy : c ∉ y)
    (h : x ++ c :: s = y ++ c :: t) : x = y ∧ s = t := by
  induction x generalizing y with
  | nil =>
    cases y with
    | nil => exact ⟨rfl, (List.cons.inj h).2⟩
    | cons d y => exact absurd ((List.cons.inj h).1 ▸ List.mem_cons_self) hy
  | cons d x ih =>
    cases y with
    | nil => exact absurd ((List.cons.inj h).1 ▸ List.mem_cons_self) hx
    | cons e y =>
      obtain ⟨rfl, hrest⟩ := List.cons.inj h
      obtain ⟨rfl, hst⟩ := ih (fun hc => hx (List.mem_cons_of_mem _ hc))
        (fun hc => hy (List.mem_cons_of_mem _ hc)) hrest
      exact ⟨rfl, hst⟩

/-- The value of an attribute ends at its quotation mark. -/
theorem attr_append_inj {name value other : String} {s t : List Char}
    (h : attr name value ++ s = attr name other ++ t) : value = other ∧ s = t := by
  simp only [attr, List.append_assoc, List.cons_append, List.nil_append, List.cons.injEq,
    List.append_cancel_left_eq, true_and] at h
  obtain ⟨hvalue, hrest⟩ :=
    append_cons_inj (quot_not_mem_escape value) (quot_not_mem_escape other) h
  exact ⟨escape_inj.1 hvalue, hrest⟩

theorem attr_inj {name value other : String} (h : attr name value = attr name other) :
    value = other :=
  (attr_append_inj (congrArg (· ++ []) h)).1

/-! ### Marks -/

/-- A tag, without its brackets, and the text in front of it. -/
@[ext] structure Mark where
  text : List Char
  tag : List Char

namespace Mark

def chars (m : Mark) : List Char := m.text ++ '<' :: m.tag ++ ['>']

/-- The brackets of a mark are those of its tag. -/
def Clean (m : Mark) : Prop := '<' ∉ m.text ∧ '>' ∉ m.tag

instance (m : Mark) : Decidable m.Clean := inferInstanceAs (Decidable (_ ∧ _))

end Mark

def render (marks : List Mark) : List Char := marks.flatMap Mark.chars

theorem render_append (first rest : List Mark) :
    render (first ++ rest) = render first ++ render rest := List.flatMap_append

theorem Mark.chars_append_inj {m n : Mark} {s t : List Char} (hm : m.Clean) (hn : n.Clean)
    (h : m.chars ++ s = n.chars ++ t) : m = n ∧ s = t := by
  simp only [chars, List.append_assoc, List.cons_append, List.nil_append] at h
  obtain ⟨htext, hafter⟩ := append_cons_inj hm.1 hn.1 h
  obtain ⟨htag, hrest⟩ := append_cons_inj hm.2 hn.2 hafter
  exact ⟨Mark.ext htext htag, hrest⟩

/-- **A text has the marks it was made of and no others.** -/
theorem render_inj : ∀ {marks others : List Mark}, (∀ m ∈ marks, m.Clean) →
    (∀ m ∈ others, m.Clean) → render marks = render others → marks = others
  | [], [], _, _, _ => rfl
  | [], n :: others, _, _, h => by simp [render, Mark.chars] at h
  | m :: marks, [], _, _, h => by simp [render, Mark.chars] at h
  | m :: marks, n :: others, hm, hn, h => by
    rw [List.forall_mem_cons] at hm hn
    rw [render, render, List.flatMap_cons, List.flatMap_cons] at h
    obtain ⟨rfl, hrest⟩ := Mark.chars_append_inj hm.1 hn.1 h
    rw [render_inj hm.2 hn.2 hrest]

/-- The start of a line. -/
def line (depth : Nat) : List Char := '\n' :: indent depth

/-- The marks of an element on a line of its own. -/
def elementMarks (depth : Nat) (name opening content : List Char) : List Mark :=
  [⟨line depth, opening⟩, ⟨content, '/' :: name⟩]

theorem render_elementMarks (depth : Nat) (name opening content : List Char) :
    render (elementMarks depth name opening content) =
      '\n' :: (indent depth ++ '<' :: opening ++ '>' :: content ++ "</".toList ++ name ++
        ['>']) := by
  simp [render, elementMarks, Mark.chars, line]

theorem lt_not_mem_line (depth : Nat) : '<' ∉ line depth := by
  simp [line, indent, List.mem_replicate]

theorem clean_elementMarks {depth : Nat} {name opening content : List Char}
    (hname : '>' ∉ name) (hopening : '>' ∉ opening) (hcontent : '<' ∉ content) :
    ∀ m ∈ elementMarks depth name opening content, m.Clean := by
  simp [elementMarks, Mark.Clean, lt_not_mem_line, hname, hopening, hcontent]

end Xml

end TraceBacklog
