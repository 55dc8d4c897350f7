/-
# Documents are well formed, up to characters

Whatever the events are, their document is one element in which all tags nest, with its
ampersands in entities and its brackets in tags (`Event.isElement_xmlDocument`): the texts of
an event come into it escaped, and everything else in it was made for it.

Which characters it has is decided by the texts alone. Of those that may not stand in a
document none is escaped or replaced, so a document is legal exactly when all texts of its
events are (`Event.xmlDocument_wellFormed`), and a message with a control character in its body
makes one that is not (`Event.illegal_document`).

Key definitions: `Event.Shown.texts`, `Event.Shown.Legible`.
Key theorems: `Event.isElement_xmlDocument`, `Event.legal_xmlDocument`,
`Event.xmlDocument_wellFormed`, `Event.illegal_document`.
-/
import TraceBacklog.Proofs.Event.Grammar
import TraceBacklog.Proofs.Event.Xml
import TraceBacklog.Route

namespace TraceBacklog

namespace Event

open Xml (Mark Content Text Legal IsName Attributes)

/-! ### Elements -/

theorem content_fieldMarks (name : String) {content : List Char} (hname : IsName name.toList)
    (hcontent : Text content) : Content (Xml.render (fieldMarks name content)) := by
  have helement := Xml.content_elementMarks 4 hname .nil hcontent
  rwa [List.append_nil] at helement

theorem content_routeMarks (routeId : Option String) :
    Content (Xml.render (routeMarks routeId)) := by
  cases routeId with
  | none => exact .text .nil
  | some id => exact content_fieldMarks _ (by decide) (Xml.text_escape id)

theorem attributes_attr (name : String) (hname : IsName name.toList) (value : String) :
    Attributes [name.toList] (Xml.attr name value) := by
  rw [Xml.attr_eq_attrChars, ← List.append_nil (Xml.attrChars _ _)]
  exact .cons hname List.not_mem_nil (Xml.text_escape value) .nil

theorem content_headerMarks (key : String) (h : HeaderSnapshot) :
    Content (Xml.render (headerMarks key h)) := by
  have hkind := attributes_attr "type" (by decide) h.kind
  have hattributes : Attributes ["key".toList, "type".toList]
      (Xml.attr "key" key ++ Xml.attr "type" h.kind) := by
    rw [Xml.attr_eq_attrChars "key"]
    exact .cons (by decide) (by decide) (Xml.text_escape key) hkind
  rw [headerMarks, List.append_assoc]
  exact Xml.content_elementMarks 8 (by decide) hattributes (Xml.text_escape h.value)

theorem content_headersMarks (headers : KeyMap String HeaderSnapshot) :
    Content (Xml.render (headersMarks headers)) := by
  unfold headersMarks
  split
  · exact .text .nil
  · have hheaders : Content (Xml.render (headers.entries.flatMap fun e => headerMarks e.1 e.2)) :=
      Xml.content_flatMap fun e _ => content_headerMarks e.1 e.2
    have hname : IsName "headers".toList := by decide
    have hclose : "/headers".toList = '/' :: "headers".toList := by decide
    have helement := Xml.content_nest (Xml.text_line 6) hname .nil hheaders (Xml.text_line 6)
    rwa [List.append_nil, ← hclose] at helement

theorem content_bodyMarks (body : Option (String × String)) :
    Content (Xml.render (bodyMarks body)) := by
  have hname : IsName "body".toList := by decide
  cases body with
  | none =>
    have htext : Text "[Body is null]".toList := Xml.text_of_all (by decide)
    have helement := Xml.content_elementMarks 6 hname .nil htext
    rwa [List.append_nil] at helement
  | some b =>
    have hattributes := attributes_attr "type" (by decide) b.1
    exact Xml.content_elementMarks 6 hname hattributes (Xml.text_escape b.2)

/-- A character in the text of an instant. -/
def isStampChar (c : Char) : Bool := c.isDigit || "-+T:.".toList.contains c

theorem all_isStampChar (t : Timestamp) : t.millisChars.all isStampChar = true := by
  have hpadded : ∀ width n, (padded width n).all isStampChar = true := fun width n =>
    List.all_eq_true.mpr fun c hc => by rw [isStampChar, isDigit_of_mem_padded hc, Bool.true_or]
  have hmarks : isStampChar '-' = true ∧ isStampChar '+' = true ∧ isStampChar 'T' = true ∧
      isStampChar ':' = true ∧ isStampChar '.' = true ∧ "+0000".toList.all isStampChar = true := by
    decide
  obtain ⟨hminus, hplus, hT, hcolon, hdot, hzone⟩ := hmarks
  have hyear : (Timestamp.yearChars t.date.year).all isStampChar = true := by
    unfold Timestamp.yearChars
    split
    · exact hpadded _ _
    · rw [List.all_cons, hpadded, Bool.and_true]
      split
      · exact hminus
      · exact hplus
  simp only [Timestamp.millisChars, Timestamp.secondsChars, List.all_append, List.all_cons, hpadded,
    hyear, hzone, hminus, hT, hcolon, hdot, Bool.and_self]

theorem not_special_of_isStampChar {c : Char} (h : isStampChar c = true) : c ∉ Xml.special := by
  intro hmem
  have hall : Xml.special.all (fun d => !isStampChar d) = true := by decide
  have hnot := List.all_eq_true.mp hall c hmem
  rw [h] at hnot
  cases hnot

theorem isChar_of_isStampChar {c : Char} (h : isStampChar c = true) : Xml.IsChar c := by
  rcases Bool.or_eq_true_iff.mp h with hdigit | hmark
  · exact Xml.isChar_of_isDigit hdigit
  · have hall : Legal "-+T:.".toList := by decide
    exact hall c (List.contains_iff_mem.mp hmark)

theorem text_toString (n : Nat) : Text (toString n).toList := by
  rw [toList_toString]
  exact Xml.text_of_plain fun c hc => Xml.special_not_isDigit (isDigit_of_mem_toDigits hc)

theorem content_fieldsMarks (v : Shown) : Content (Xml.render v.fieldsMarks) := by
  have hstamp : Text v.timestamp.millisChars := Xml.text_of_plain fun c hc =>
    not_special_of_isStampChar (List.all_eq_true.mp (all_isStampChar v.timestamp) c hc)
  have hfirst : Text (Json.boolChars v.firstInRoute) := by
    cases v.firstInRoute <;> exact Xml.text_of_all (by decide)
  simp only [Shown.fieldsMarks, Xml.render_append]
  exact (((((content_fieldMarks _ (by decide) (text_toString _)).append
    (content_fieldMarks _ (by decide) hstamp)).append
    (content_routeMarks v.routeId)).append
    (content_fieldMarks _ (by decide) (Xml.text_escape v.toNode))).append
    (content_fieldMarks _ (by decide) hfirst)).append
    (content_fieldMarks _ (by decide) (Xml.text_escape v.exchangeId))

/-- An event is an element around its fields and an element of the message. -/
theorem content_marks (v : Shown) : Content (Xml.render v.marks) := by
  have hmessage : IsName "message".toList := by decide
  have hinside : Content (Xml.render (headersMarks v.headers ++ bodyMarks v.body)) := by
    rw [Xml.render_append]
    exact (content_headersMarks v.headers).append (content_bodyMarks v.body)
  have hclose : "/message".toList = '/' :: "message".toList := by decide
  have hnested := Xml.content_nest (Xml.text_line 4) hmessage
    (attributes_attr "exchangeId" (by decide) v.exchangeId) hinside (Xml.text_line 4)
  have htag : IsName tag.toList := by decide
  have hwhole := (content_fieldsMarks v).append hnested
  rw [← Xml.render_append] at hwhole
  have helement := Xml.content_nest (Xml.text_line 2) htag .nil hwhole (Xml.text_line 2)
  have hmarks : v.marks = ⟨Xml.line 2, tag.toList ++ []⟩ :: (v.fieldsMarks ++
      (⟨Xml.line 4, "message".toList ++ Xml.attr "exchangeId" v.exchangeId⟩ ::
        (headersMarks v.headers ++ bodyMarks v.body) ++
        [⟨Xml.line 4, '/' :: "message".toList⟩])) ++ [⟨Xml.line 2, '/' :: tag.toList⟩] := by
    rw [← hclose, List.append_nil]
    simp only [Shown.marks, List.append_assoc, List.cons_append, List.nil_append]
  rwa [hmarks]

/-- **A document is one element.** -/
theorem isElement_xmlDocument (events : List Event) :
    Xml.IsElement (tag.toList ++ ['s']) (xmlDocument events) := by
  have hname : IsName (tag.toList ++ ['s']) := by decide
  have hbreak : Text ['\n'] := Xml.text_of_all (by decide)
  have hevents : Content (Xml.render ((events.map shown).flatMap Shown.marks)) :=
    Xml.content_flatMap fun v _ => content_marks v
  refine ⟨hname, [], [], _, .nil, hevents.append (.text hbreak), ?_⟩
  rw [xmlDocument_eq_render]
  have hnest := Xml.render_nest [] (tag.toList ++ ['s']) [] ['\n']
    ((events.map shown).flatMap Shown.marks)
  rw [List.append_nil] at hnest
  exact hnest

/-! ### Characters -/

/-- The texts of an event that a document shows. -/
def Shown.texts (v : Shown) : List String :=
  v.routeId.toList ++ [v.toNode, v.exchangeId] ++
    v.headers.entries.flatMap (fun e => [e.1, e.2.kind, e.2.value]) ++
    (v.body.map fun b => [b.1, b.2]).getD []

/-- All characters in its texts may stand in a document. -/
def Shown.Legible (v : Shown) : Prop := ∀ s ∈ v.texts, Legal s.toList

theorem legal_fieldMarks {name : String} {content : List Char} (hname : Legal name.toList) :
    (∀ m ∈ fieldMarks name content, Legal m.text ∧ Legal m.tag) ↔ Legal content :=
  (Xml.legal_elementMarks hname).trans (and_iff_right hname)

theorem legal_routeMarks (routeId : Option String) :
    (∀ m ∈ routeMarks routeId, Legal m.text ∧ Legal m.tag) ↔
      ∀ s ∈ routeId.toList, Legal s.toList := by
  cases routeId with
  | none => simp [routeMarks]
  | some id =>
    rw [routeMarks, legal_fieldMarks (by decide), Xml.legal_escape, Option.toList_some,
      List.forall_mem_singleton]

theorem legal_headerMarks (key : String) (h : HeaderSnapshot) :
    (∀ m ∈ headerMarks key h, Legal m.text ∧ Legal m.tag) ↔
      ∀ s ∈ [key, h.kind, h.value], Legal s.toList := by
  have hname : Legal "header".toList := by decide
  rw [headerMarks, Xml.legal_elementMarks hname, Xml.legal_append, Xml.legal_append,
    Xml.legal_attr (by decide), Xml.legal_attr (by decide), Xml.legal_escape,
    List.forall_mem_cons, List.forall_mem_cons, List.forall_mem_singleton, and_iff_right hname,
    and_assoc]

theorem legal_headersMarks (headers : KeyMap String HeaderSnapshot) :
    (∀ m ∈ headersMarks headers, Legal m.text ∧ Legal m.tag) ↔
      ∀ s ∈ headers.entries.flatMap (fun e => [e.1, e.2.kind, e.2.value]), Legal s.toList := by
  have hopen : Legal "headers".toList := by decide
  have hclose : Legal "/headers".toList := by decide
  unfold headersMarks
  split
  · next hempty =>
    rw [List.isEmpty_iff.mp hempty]
    exact iff_of_true (fun m hm => absurd hm List.not_mem_nil) fun s hs =>
      absurd hs List.not_mem_nil
  · have hentries : (∀ m ∈ headers.entries.flatMap (fun e => headerMarks e.1 e.2),
        Legal m.text ∧ Legal m.tag) ↔
        ∀ s ∈ headers.entries.flatMap (fun e => [e.1, e.2.kind, e.2.value]), Legal s.toList := by
      rw [List.forall_mem_flatMap, List.forall_mem_flatMap]
      exact forall₂_congr fun e _ => legal_headerMarks e.1 e.2
    rw [List.cons_append, List.forall_mem_cons, List.forall_mem_append, List.forall_mem_singleton,
      hentries]
    exact ⟨fun h => h.2.1, fun h => ⟨⟨Xml.legal_line 6, hopen⟩, h, ⟨Xml.legal_line 6, hclose⟩⟩⟩

theorem legal_bodyMarks (body : Option (String × String)) :
    (∀ m ∈ bodyMarks body, Legal m.text ∧ Legal m.tag) ↔
      ∀ s ∈ (body.map fun b => [b.1, b.2]).getD [], Legal s.toList := by
  have hname : Legal "body".toList := by decide
  cases body with
  | none =>
    have hnull : Legal "[Body is null]".toList := by decide
    rw [bodyMarks, Xml.legal_elementMarks hname]
    exact iff_of_true ⟨hname, hnull⟩ fun s hs => absurd hs List.not_mem_nil
  | some b =>
    rw [bodyMarks, Xml.legal_elementMarks hname, Xml.legal_append, Xml.legal_attr (by decide),
      Xml.legal_escape, Option.map_some, Option.getD_some, List.forall_mem_cons,
      List.forall_mem_singleton, and_iff_right hname]

theorem legal_fieldsMarks (v : Shown) :
    (∀ m ∈ v.fieldsMarks, Legal m.text ∧ Legal m.tag) ↔
      ∀ s ∈ v.routeId.toList ++ [v.toNode, v.exchangeId], Legal s.toList := by
  have huid : Legal (toString v.traceId.toNat).toList := by
    rw [toList_toString]
    exact fun c hc => Xml.isChar_of_isDigit (isDigit_of_mem_toDigits hc)
  have hstamp : Legal v.timestamp.millisChars := fun c hc =>
    isChar_of_isStampChar (List.all_eq_true.mp (all_isStampChar v.timestamp) c hc)
  have hfirst : Legal (Json.boolChars v.firstInRoute) := by
    cases v.firstInRoute <;> decide
  simp only [Shown.fieldsMarks, List.forall_mem_append]
  rw [legal_fieldMarks (by decide), legal_fieldMarks (by decide), legal_routeMarks,
    legal_fieldMarks (by decide), legal_fieldMarks (by decide), legal_fieldMarks (by decide),
    Xml.legal_escape, Xml.legal_escape, List.forall_mem_cons, List.forall_mem_singleton]
  exact ⟨fun h => ⟨h.1.1.1.2, h.1.1.2, h.2⟩,
    fun h => ⟨⟨⟨⟨⟨huid, hstamp⟩, h.1⟩, h.2.1⟩, hfirst⟩, h.2.2⟩⟩

/-- What may not stand in a document comes from the texts of an event. -/
theorem legal_marks (v : Shown) : (∀ m ∈ v.marks, Legal m.text ∧ Legal m.tag) ↔ v.Legible := by
  have hopen : Legal tag.toList := by decide
  have hname : Legal "message".toList := by decide
  have hclose : Legal "/message".toList := by decide
  have hend : Legal ('/' :: tag.toList) := by decide
  have hmessage : Legal ("message".toList ++ Xml.attr "exchangeId" v.exchangeId) ↔
      Legal v.exchangeId.toList := by
    rw [Xml.legal_append, Xml.legal_attr (by decide), and_iff_right hname]
  rw [Shown.Legible, Shown.texts, List.forall_mem_append, List.forall_mem_append,
    ← legal_fieldsMarks, ← legal_headersMarks, ← legal_bodyMarks, Shown.marks]
  simp only [List.forall_mem_append, List.forall_mem_singleton, hmessage]
  refine ⟨fun h => ⟨⟨h.1.1.1.1.2, h.1.1.2⟩, h.1.2⟩, fun h => ?_⟩
  -- The exchange stands twice in an event.
  have hexchange : Legal v.exchangeId.toList :=
    (legal_fieldsMarks v).mp h.1.1 _
      (List.mem_append_right _ (List.mem_cons_of_mem _ List.mem_cons_self))
  exact ⟨⟨⟨⟨⟨⟨Xml.legal_line 2, hopen⟩, h.1.1⟩, ⟨Xml.legal_line 4, hexchange⟩⟩, h.1.2⟩, h.2⟩,
    List.forall_mem_cons.mpr ⟨⟨Xml.legal_line 4, hclose⟩,
      List.forall_mem_singleton.mpr ⟨Xml.legal_line 2, hend⟩⟩⟩

/-- **A document has illegal characters exactly if its texts have.** -/
theorem legal_xmlDocument (events : List Event) :
    Legal (xmlDocument events) ↔ ∀ e ∈ events, e.shown.Legible := by
  have hopen : Legal (tag.toList ++ ['s']) := by decide
  have hclose : Legal ('/' :: tag.toList ++ ['s']) := by decide
  have hbreak : Legal ['\n'] := by decide
  have hnothing : Legal [] := fun c hc => absurd hc List.not_mem_nil
  have hevents : (∀ m ∈ (events.map shown).flatMap Shown.marks, Legal m.text ∧ Legal m.tag) ↔
      ∀ e ∈ events, e.shown.Legible := by
    rw [List.forall_mem_flatMap, List.forall_mem_map]
    exact forall₂_congr fun e _ => legal_marks e.shown
  rw [xmlDocument_eq_render, Xml.legal_render, documentMarks, List.cons_append,
    List.forall_mem_cons, List.forall_mem_append, List.forall_mem_singleton, hevents]
  exact ⟨fun h => h.2.1, fun h => ⟨⟨hnothing, hopen⟩, h, ⟨hbreak, hclose⟩⟩⟩

/-- **Documents are well formed, up to characters.** The document of any events is one element
in which the tags nest; every ampersand in it begins an entity that needs no declaration, and
every opening bracket begins a tag; and its characters are such as may stand in a document
exactly if those of all texts that it shows are. -/
theorem xmlDocument_wellFormed (events : List Event) :
    Xml.IsElement (tag.toList ++ ['s']) (xmlDocument events) ∧
    Xml.EachBegins '&' Xml.IsEntity (xmlDocument events) ∧
    Xml.EachBegins '<' Xml.IsTag (xmlDocument events) ∧
    (Legal (xmlDocument events) ↔ ∀ e ∈ events, e.shown.Legible) := by
  have helement := isElement_xmlDocument events
  exact ⟨helement, helement.entities_begin, helement.tags_begin, legal_xmlDocument events⟩

/-- A message with a control character in its body is captured, and the document of what the
tracer holds then has a character that may not stand in a document. -/
theorem illegal_document :
    let made := ((Engine.initial .epoch).newTracer
      { Config.default with enabled := true } none).1
    let p := Processor.traced (Engine.interceptor ⟨0⟩ none ⟨⟨0⟩, "to", some "a", []⟩)
      (.leaf none [])
    let now := (p.process made (.new "X1" (.text "\x01"))).engine
    (now.tracer ⟨0⟩).backlog.events.map (·.message.body) = [some "\x01"] ∧
    '\x01' ∈ xmlDocument (now.tracer ⟨0⟩).backlog.events ∧
    ¬ Legal (xmlDocument (now.tracer ⟨0⟩).backlog.events) := by
  decide +kernel

end Event

end TraceBacklog
