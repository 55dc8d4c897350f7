/-
# The XML document is unambiguous

Whatever the texts of a message are, a document has the marks that its events prescribe
(`Event.xmlDocument_eq_render`) and no others, since no text of an event has a bracket
(`Event.clean_documentMarks`). Read from the front, the marks of an event give what the
document shows of it (`Event.Shown`) and the place where the next event starts
(`Event.marks_append_inj`); an absent route, the absence of headers and an absent body are
told from the next tag. So documents are equal exactly when they show the same
(`Event.xmlDocument_eq_iff`).

Key definitions: `Event.Shown`, `Event.Shown.marks`, `Event.documentMarks`.
Key theorems: `Event.xmlDocument_eq_render`, `Event.clean_documentMarks`,
`Event.marks_append_inj`, `Event.xmlDocument_eq_iff`.
-/
import TraceBacklog.Proofs.Event.Markup
import TraceBacklog.Proofs.Timestamp

namespace TraceBacklog

/-- A list whose members say where they end is told from the same list, up to what the
members say, if none of them starts as what follows the list. -/
theorem flatMap_append_cons_inj {α β γ : Type} {f : α → List β} {g : α → γ} {stop : β}
    (hf : ∀ {a b s t}, f a ++ s = f b ++ t → g a = g b ∧ s = t)
    (hstop : ∀ a s t, f a ++ s ≠ stop :: t) {s t : List β} :
    ∀ {xs ys : List α}, xs.flatMap f ++ stop :: s = ys.flatMap f ++ stop :: t →
      xs.map g = ys.map g ∧ s = t
  | [], [], h => ⟨rfl, (List.cons.inj h).2⟩
  | [], y :: ys, h => by
    rw [List.flatMap_cons, List.append_assoc] at h
    exact absurd h.symm (hstop y _ _)
  | x :: xs, [], h => by
    rw [List.flatMap_cons, List.append_assoc] at h
    exact absurd h (hstop x _ _)
  | x :: xs, y :: ys, h => by
    rw [List.flatMap_cons, List.flatMap_cons, List.append_assoc, List.append_assoc] at h
    obtain ⟨hxy, hrest⟩ := hf h
    obtain ⟨hmap, hst⟩ := flatMap_append_cons_inj hf hstop hrest
    exact ⟨by rw [List.map_cons, List.map_cons, hxy, hmap], hst⟩

namespace Event

open Xml (Mark elementMarks)

/-- What a document shows of an event: the time to the millisecond, and the type of the
body if there is a body. -/
@[ext] structure Shown where
  traceId : UInt64
  timestamp : Timestamp
  routeId : Option String
  toNode : String
  firstInRoute : Bool
  exchangeId : String
  headers : KeyMap String HeaderSnapshot
  body : Option (String × String)

def shown (e : Event) : Shown where
  traceId := e.traceId
  timestamp := e.timestamp.toMillis
  routeId := e.routeId
  toNode := e.toNode
  firstInRoute := e.firstInRoute
  exchangeId := e.message.exchangeId
  headers := e.message.headers
  body := e.message.body.map fun text => (e.message.bodyType, text)

/-! ### The marks of an event -/

/-- A field of an event. -/
def fieldMarks (name : String) (content : List Char) : List Mark :=
  elementMarks 4 name.toList name.toList content

def routeMarks : Option String → List Mark
  | none => []
  | some id => fieldMarks "routeId" (Xml.escape id)

def headerMarks (key : String) (h : HeaderSnapshot) : List Mark :=
  elementMarks 8 "header".toList
    ("header".toList ++ Xml.attr "key" key ++ Xml.attr "type" h.kind) (Xml.escape h.value)

def headersMarks (headers : KeyMap String HeaderSnapshot) : List Mark :=
  if headers.isEmpty then []
  else
    ⟨Xml.line 6, "headers".toList⟩ :: headers.entries.flatMap (fun e => headerMarks e.1 e.2) ++
      [⟨Xml.line 6, "/headers".toList⟩]

def bodyMarks : Option (String × String) → List Mark
  | none => elementMarks 6 "body".toList "body".toList "[Body is null]".toList
  | some (kind, text) =>
    elementMarks 6 "body".toList ("body".toList ++ Xml.attr "type" kind) (Xml.escape text)

/-- The fields before the message. -/
def Shown.fieldsMarks (v : Shown) : List Mark :=
  fieldMarks "uid" (toString v.traceId.toNat).toList ++
    fieldMarks "timestamp" v.timestamp.millisChars ++
    routeMarks v.routeId ++
    fieldMarks "toNode" (Xml.escape v.toNode) ++
    fieldMarks "firstInRoute" (Json.boolChars v.firstInRoute) ++
    fieldMarks "exchangeId" (Xml.escape v.exchangeId)

/-- The marks of an event. -/
def Shown.marks (v : Shown) : List Mark :=
  [⟨Xml.line 2, tag.toList⟩] ++ v.fieldsMarks ++
    [⟨Xml.line 4, "message".toList ++ Xml.attr "exchangeId" v.exchangeId⟩] ++
    headersMarks v.headers ++
    bodyMarks v.body ++
    [⟨Xml.line 4, "/message".toList⟩, ⟨Xml.line 2, '/' :: tag.toList⟩]

/-- The marks of a document. -/
def documentMarks (views : List Shown) : List Mark :=
  ⟨[], tag.toList ++ ['s']⟩ :: views.flatMap Shown.marks ++
    [⟨['\n'], '/' :: tag.toList ++ ['s']⟩]

/-! ### The text of the marks -/

/-- Lines that each start with a line feed. -/
def feedLines (lines : List (List Char)) : List Char := lines.flatMap ('\n' :: ·)

theorem feedLines_append (first rest : List (List Char)) :
    feedLines (first ++ rest) = feedLines first ++ feedLines rest := List.flatMap_append

theorem cons_joinLines (l : List Char) (lines : List (List Char)) :
    '\n' :: joinLines (l :: lines) = feedLines (l :: lines) := by
  induction lines generalizing l with
  | nil => simp [joinLines, feedLines]
  | cons k lines ih =>
    have hrest := ih k
    simp only [joinLines, feedLines, List.intercalate_cons_cons, List.flatMap_cons] at hrest ⊢
    simp [hrest]

theorem render_fieldMarks (name : String) (content : List Char) :
    Xml.render (fieldMarks name content) =
      feedLines [Xml.indent 4 ++ Xml.element name content] := by
  rw [fieldMarks, Xml.render_elementMarks]
  simp [feedLines, Xml.element]

theorem render_headerMarks (key : String) (h : HeaderSnapshot) :
    Xml.render (headerMarks key h) =
      feedLines [Xml.indent 6 ++ ' ' :: ' ' :: headerXml key h] := by
  have hpad : Xml.indent 8 = Xml.indent 6 ++ [' ', ' '] := by decide
  unfold headerXml
  rw [headerMarks, Xml.render_elementMarks, hpad]
  simp [feedLines]

theorem render_headersMarks (headers : KeyMap String HeaderSnapshot) :
    Xml.render (headersMarks headers) = feedLines (headersXml (Xml.indent 6) headers) := by
  unfold headersMarks headersXml
  split
  · rfl
  · have hentries : ∀ entries : List (String × HeaderSnapshot),
        Xml.render (entries.flatMap fun e => headerMarks e.1 e.2) =
          feedLines (entries.map fun h => Xml.indent 6 ++ ' ' :: ' ' :: headerXml h.1 h.2) := by
      intro entries
      induction entries with
      | nil => rfl
      | cons e entries ih =>
        rw [List.flatMap_cons, Xml.render_append, ih, render_headerMarks, List.map_cons]
        simp [feedLines]
    rw [List.cons_append, feedLines_append, feedLines_append, ← hentries]
    simp [Xml.render, feedLines, Mark.chars, Xml.line]

theorem render_bodyMarks (m : Snapshot) :
    Xml.render (bodyMarks (m.body.map fun text => (m.bodyType, text))) =
      feedLines [Xml.indent 6 ++ bodyXml m] := by
  unfold bodyXml
  cases m.body with
  | none =>
    rw [Option.map_none, bodyMarks, Xml.render_elementMarks]
    simp [feedLines]
  | some text =>
    rw [Option.map_some, bodyMarks, Xml.render_elementMarks]
    simp [feedLines]

theorem render_fieldsMarks (e : Event) :
    Xml.render e.shown.fieldsMarks =
      feedLines ((e.fieldsXml Timestamp.millisChars).map (Xml.indent 4 ++ ·)) := by
  simp only [Shown.fieldsMarks, Xml.render_append, render_fieldMarks, shown, fieldsXml,
    Timestamp.millisChars_toMillis, List.map_append, feedLines_append]
  cases e.routeId with
  | none => simp [feedLines, Xml.render, routeMarks, exchangeId]
  | some id => simp [feedLines, render_fieldMarks, routeMarks, exchangeId]

/-- The lines of an event are its marks. -/
theorem render_marks (e : Event) :
    Xml.render e.shown.marks = '\n' :: e.xml 2 := by
  obtain ⟨l, lines, hlines⟩ : ∃ l lines, e.xmlLines Timestamp.millisChars 2 = l :: lines :=
    ⟨_, _, rfl⟩
  rw [xml, xmlWith, hlines, cons_joinLines, ← hlines]
  simp only [Shown.marks, Xml.render_append, render_fieldsMarks, xmlLines, feedLines_append]
  simp only [shown, render_headersMarks, render_bodyMarks]
  simp [Xml.render, feedLines, Mark.chars, Xml.line, exchangeId]

/-- **A document is made of the marks of what it shows.** -/
theorem xmlDocument_eq_render (events : List Event) :
    xmlDocument events = Xml.render (documentMarks (events.map shown)) := by
  have hevents : Xml.render ((events.map shown).flatMap Shown.marks) =
      events.flatMap fun e => '\n' :: e.xmlWith Timestamp.millisChars 2 := by
    induction events with
    | nil => rfl
    | cons e events ih =>
      rw [List.map_cons, List.flatMap_cons, Xml.render_append, ih, render_marks, List.flatMap_cons]
      rfl
  rw [documentMarks, List.cons_append, ← List.singleton_append, Xml.render_append,
    Xml.render_append, hevents]
  simp [xmlDocument, xmlDocumentWith, Xml.render, Mark.chars]

/-! ### Brackets belong to tags -/

theorem lt_not_mem_of_isDigit {cs : List Char} (h : ∀ c ∈ cs, c.isDigit = true) : '<' ∉ cs :=
  fun hmem => absurd (h '<' hmem) (by decide)

theorem lt_not_mem_toString (n : Nat) : '<' ∉ (toString n).toList := by
  rw [toList_toString]
  exact lt_not_mem_of_isDigit fun _ hc => isDigit_of_mem_toDigits hc

theorem lt_not_mem_millisChars (t : Timestamp) : '<' ∉ t.millisChars := by
  have hpadded : ∀ width n, '<' ∉ padded width n := fun width n =>
    lt_not_mem_of_isDigit fun _ hc => isDigit_of_mem_padded hc
  have hyear : '<' ∉ Timestamp.yearChars t.date.year := by
    unfold Timestamp.yearChars
    split
    · exact hpadded _ _
    · split <;> simp [hpadded]
  simp [Timestamp.millisChars, Timestamp.secondsChars, hyear, hpadded]

theorem gt_not_mem_attr {name value : String} (h : '>' ∉ name.toList) :
    '>' ∉ Xml.attr name value := by
  simp [Xml.attr, h, Xml.gt_not_mem_escape]

theorem clean_fieldMarks {name : String} {content : List Char} (hname : '>' ∉ name.toList)
    (hcontent : '<' ∉ content) : ∀ m ∈ fieldMarks name content, m.Clean :=
  Xml.clean_elementMarks hname hname hcontent

theorem clean_headersMarks (headers : KeyMap String HeaderSnapshot) :
    ∀ m ∈ headersMarks headers, m.Clean := by
  have hkey : ∀ value, '>' ∉ Xml.attr "key" value := fun _ => gt_not_mem_attr (by decide)
  have hkind : ∀ value, '>' ∉ Xml.attr "type" value := fun _ => gt_not_mem_attr (by decide)
  have hheader : ∀ e : String × HeaderSnapshot, ∀ m ∈ headerMarks e.1 e.2, m.Clean := fun e =>
    Xml.clean_elementMarks (by decide) (by simp [hkey, hkind]) (Xml.lt_not_mem_escape _)
  unfold headersMarks
  split
  · simp
  · simp only [List.cons_append, List.forall_mem_cons, List.forall_mem_append,
      List.mem_flatMap, forall_exists_index, and_imp]
    refine ⟨⟨Xml.lt_not_mem_line 6, by decide⟩, fun m e _ hm => hheader e m hm,
      ⟨Xml.lt_not_mem_line 6, by decide⟩, by simp⟩

theorem clean_bodyMarks (body : Option (String × String)) : ∀ m ∈ bodyMarks body, m.Clean := by
  cases body with
  | none => exact Xml.clean_elementMarks (by decide) (by decide) (by decide)
  | some b =>
    have hkind : '>' ∉ Xml.attr "type" b.1 := gt_not_mem_attr (by decide)
    exact Xml.clean_elementMarks (by decide) (by simp [hkind]) (Xml.lt_not_mem_escape _)

theorem clean_fieldsMarks (v : Shown) : ∀ m ∈ v.fieldsMarks, m.Clean := by
  have hroute : ∀ m ∈ routeMarks v.routeId, m.Clean := by
    cases v.routeId with
    | none => simp [routeMarks]
    | some id => exact clean_fieldMarks (by decide) (Xml.lt_not_mem_escape id)
  have hfirst : '<' ∉ Json.boolChars v.firstInRoute := by
    cases v.firstInRoute <;> decide
  simp only [Shown.fieldsMarks, List.forall_mem_append]
  exact ⟨⟨⟨⟨⟨clean_fieldMarks (by decide) (lt_not_mem_toString _),
    clean_fieldMarks (by decide) (lt_not_mem_millisChars _)⟩, hroute⟩,
    clean_fieldMarks (by decide) (Xml.lt_not_mem_escape _)⟩,
    clean_fieldMarks (by decide) hfirst⟩,
    clean_fieldMarks (by decide) (Xml.lt_not_mem_escape _)⟩

theorem clean_marks (v : Shown) : ∀ m ∈ v.marks, m.Clean := by
  have hid : '>' ∉ Xml.attr "exchangeId" v.exchangeId := gt_not_mem_attr (by decide)
  have hopen : ∀ m ∈ [(⟨Xml.line 2, tag.toList⟩ : Mark)], m.Clean := by decide
  have hmessage : ∀ m ∈ [(⟨Xml.line 4, "message".toList ++ Xml.attr "exchangeId" v.exchangeId⟩ :
      Mark)], m.Clean := by
    simp [Mark.Clean, Xml.lt_not_mem_line, hid]
  have hclose : ∀ m ∈ [(⟨Xml.line 4, "/message".toList⟩ : Mark),
      ⟨Xml.line 2, '/' :: tag.toList⟩], m.Clean := by decide
  simp only [Shown.marks, List.forall_mem_append]
  exact ⟨⟨⟨⟨⟨hopen, clean_fieldsMarks v⟩, hmessage⟩, clean_headersMarks v.headers⟩,
    clean_bodyMarks v.body⟩, hclose⟩

/-- No content of an event has a bracket that could be taken for one of a tag. -/
theorem clean_documentMarks (views : List Shown) : ∀ m ∈ documentMarks views, m.Clean := by
  simp only [documentMarks, List.cons_append, List.forall_mem_cons, List.forall_mem_append,
    List.mem_flatMap, forall_exists_index, and_imp]
  exact ⟨by decide, fun m v _ hm => clean_marks v m hm, by decide, by simp⟩

/-! ### Reading the marks of an event -/

theorem fieldMarks_append_inj {name : String} {content other : List Char} {s t : List Mark}
    (h : fieldMarks name content ++ s = fieldMarks name other ++ t) :
    content = other ∧ s = t := by
  simpa [fieldMarks, elementMarks] using h

/-- The tag after the time tells whether there is a route. -/
theorem routeMarks_append_inj {routeId other : Option String} {content content' : List Char}
    {s t : List Mark}
    (h : routeMarks routeId ++ (fieldMarks "toNode" content ++ s) =
      routeMarks other ++ (fieldMarks "toNode" content' ++ t)) :
    routeId = other ∧ fieldMarks "toNode" content ++ s = fieldMarks "toNode" content' ++ t := by
  cases routeId with
  | none =>
    cases other with
    | none => exact ⟨rfl, h⟩
    | some id => simp [routeMarks, fieldMarks, elementMarks] at h
  | some id =>
    cases other with
    | none => simp [routeMarks, fieldMarks, elementMarks] at h
    | some id' =>
      obtain ⟨hid, hrest⟩ := fieldMarks_append_inj h
      exact ⟨congrArg some (Xml.escape_inj.1 hid), hrest⟩

theorem headerMarks_append_inj {e e' : String × HeaderSnapshot} {s t : List Mark}
    (h : headerMarks e.1 e.2 ++ s = headerMarks e'.1 e'.2 ++ t) : e = e' ∧ s = t := by
  simp only [headerMarks, elementMarks, List.cons_append, List.nil_append, List.cons.injEq,
    Mark.mk.injEq, true_and, List.append_assoc, List.append_cancel_left_eq, and_true] at h
  obtain ⟨hattrs, hvalue, hrest⟩ := h
  obtain ⟨hkey, hkind⟩ := Xml.attr_append_inj hattrs
  obtain ⟨key, kind, value⟩ := e
  obtain ⟨key', kind', value'⟩ := e'
  obtain rfl : key = key' := hkey
  obtain rfl : kind = kind' := Xml.attr_inj hkind
  obtain rfl : value = value' := Xml.escape_inj.1 hvalue
  exact ⟨rfl, hrest⟩

theorem bodyMarks_append_inj {body other : Option (String × String)} {s t : List Mark}
    (h : bodyMarks body ++ s = bodyMarks other ++ t) : body = other ∧ s = t := by
  cases body with
  | none =>
    cases other with
    | none => exact ⟨rfl, List.append_cancel_left h⟩
    | some b => simp [bodyMarks, elementMarks, Xml.attr] at h
  | some b =>
    cases other with
    | none => simp [bodyMarks, elementMarks, Xml.attr] at h
    | some b' =>
      simp only [bodyMarks, elementMarks, List.cons_append, List.nil_append, List.cons.injEq,
        Mark.mk.injEq, true_and, List.append_cancel_left_eq, and_true] at h
      obtain ⟨hkind, htext, hrest⟩ := h
      obtain ⟨kind, text⟩ := b
      obtain ⟨kind', text'⟩ := b'
      obtain rfl : kind = kind' := Xml.attr_inj hkind
      obtain rfl : text = text' := Xml.escape_inj.1 htext
      exact ⟨rfl, hrest⟩

/-- The tag after the one of the message tells whether there are headers, and the tag
after a header whether there are more. -/
theorem headersMarks_append_inj {headers others : KeyMap String HeaderSnapshot}
    {body body' : Option (String × String)} {s t : List Mark}
    (h : headersMarks headers ++ (bodyMarks body ++ s) =
      headersMarks others ++ (bodyMarks body' ++ t)) :
    headers = others ∧ bodyMarks body ++ s = bodyMarks body' ++ t := by
  have hbody : ∀ (b : Option (String × String)) (u v : List Mark),
      bodyMarks b ++ u ≠ ⟨Xml.line 6, "headers".toList⟩ :: v := by
    intro b u v
    cases b <;> simp [bodyMarks, elementMarks]
  have hclose : ∀ (e : String × HeaderSnapshot) (u v : List Mark),
      headerMarks e.1 e.2 ++ u ≠ ⟨Xml.line 6, "/headers".toList⟩ :: v := by
    intro e u v
    simp [headerMarks, elementMarks]
  unfold headersMarks at h
  by_cases hm : headers.isEmpty = true
  · by_cases ho : others.isEmpty = true
    · rw [if_pos hm, if_pos ho] at h
      have hempty : headers.entries = others.entries :=
        (List.isEmpty_iff.1 hm).trans (List.isEmpty_iff.1 ho).symm
      exact ⟨KeyMap.eq_of_entries hempty, h⟩
    · rw [if_pos hm, if_neg ho] at h
      exact absurd h (hbody _ _ _)
  · by_cases ho : others.isEmpty = true
    · rw [if_neg hm, if_pos ho] at h
      exact absurd h.symm (hbody _ _ _)
    · rw [if_neg hm, if_neg ho] at h
      simp only [List.cons_append, List.append_assoc, List.nil_append, List.cons.injEq,
        true_and] at h
      obtain ⟨hentries, hrest⟩ :=
        flatMap_append_cons_inj (g := id) headerMarks_append_inj hclose h
      rw [List.map_id, List.map_id] at hentries
      exact ⟨KeyMap.eq_of_entries hentries, hrest⟩

theorem uid_inj {n m : UInt64}
    (h : (toString n.toNat).toList = (toString m.toNat).toList) : n = m := by
  rw [toList_toString, toList_toString] at h
  have hdenote := congrArg (fun cs => denote (cs.map digitValue)) h
  exact UInt64.toNat_inj.1 ((denote_digits _).symm.trans (hdenote.trans (denote_digits _)))

theorem boolChars_inj {b c : Bool} (h : Json.boolChars b = Json.boolChars c) : b = c := by
  revert b c
  decide

/-- **The marks of an event give what is shown of it** and the place where they end. -/
theorem marks_append_inj {e e' : Event} {s t : List Mark}
    (h : e.shown.marks ++ s = e'.shown.marks ++ t) : e.shown = e'.shown ∧ s = t := by
  simp only [Shown.marks, Shown.fieldsMarks, List.append_assoc] at h
  obtain ⟨huid, h⟩ := fieldMarks_append_inj (List.append_cancel_left h)
  obtain ⟨hstamp, h⟩ := fieldMarks_append_inj h
  obtain ⟨hroute, h⟩ := routeMarks_append_inj h
  obtain ⟨hnode, h⟩ := fieldMarks_append_inj h
  obtain ⟨hfirst, h⟩ := fieldMarks_append_inj h
  obtain ⟨hexchange, h⟩ := fieldMarks_append_inj h
  -- the tag of the message repeats the exchange
  obtain ⟨-, h⟩ := List.cons.inj h
  obtain ⟨hheaders, h⟩ := headersMarks_append_inj h
  obtain ⟨hbody, h⟩ := bodyMarks_append_inj h
  have htime : e.timestamp.toMillis.millisChars = e'.timestamp.toMillis.millisChars := hstamp
  rw [Timestamp.millisChars_toMillis, Timestamp.millisChars_toMillis,
    Timestamp.millisChars_inj] at htime
  have hshown : e.shown = e'.shown :=
    Shown.ext (uid_inj huid) htime hroute (Xml.escape_inj.1 hnode) (boolChars_inj hfirst)
      (Xml.escape_inj.1 hexchange) hheaders hbody
  exact ⟨hshown, List.append_cancel_left h⟩

/-- **A document is unambiguous.** Two lists of events have the same document exactly when
they have the same length and the document shows the same of their members, one by one: no
text of a message can be taken for markup, for another event or for an absent body. -/
theorem xmlDocument_eq_iff (events others : List Event) :
    xmlDocument events = xmlDocument others ↔ events.map shown = others.map shown := by
  rw [xmlDocument_eq_render, xmlDocument_eq_render]
  constructor
  · intro h
    have hmarks := Xml.render_inj (clean_documentMarks _) (clean_documentMarks _) h
    simp only [documentMarks, List.cons_append, List.cons.injEq, true_and,
      List.flatMap_map] at hmarks
    -- the line of an event is indented, the end of the document is not
    have hstop : ∀ (e : Event) (s t : List Mark),
        e.shown.marks ++ s ≠ ⟨['\n'], '/' :: tag.toList ++ ['s']⟩ :: t := by
      intro e s t
      simp [Shown.marks, Xml.line, Xml.indent, List.replicate]
    exact (flatMap_append_cons_inj marks_append_inj hstop hmarks).1
  · intro h
    rw [h]

end Event

end TraceBacklog
