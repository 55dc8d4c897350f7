/-
# Events come back from their lines

Headers, snapshots and events are records of texts, words, truth values and instants, and
each is read back from what it is written as: texts may have any characters, optional
fields may be left out. A line has no control characters, so line feeds stand between
lines only. Hence a file of events is cut at its line feeds into one line for each event
and the lines read as the events (`Event.jsonLines_lossless`).

Key theorems: `HeaderSnapshot.reads_record`, `Snapshot.reads_reader`, `Event.reads_reader`,
`Event.jsonLines_lossless`.
-/
import TraceBacklog.Event
import TraceBacklog.Proofs.Timestamp
import TraceBacklog.Proofs.Json.Read

namespace TraceBacklog

theorem HeaderSnapshot.reads_record : Reads record.read toJson where
  integral h := by simp [toJson, Json.Integral, Json.FieldsIntegral]
  read h := by
    rw [toJson, Json.draft, Json.fieldDrafts, Json.fieldDrafts, Json.fieldDrafts]
    refine record.read_object ⟨some h.kind, some h.value⟩ ?_
    rw [record.fillFields_slot _ rfl rfl (reads_readText.read h.kind),
      record.fillFields_slot _ rfl rfl (reads_readText.read h.value)]
    rfl

/-- A snapshot with or without a body is read back. -/
theorem Snapshot.reads_reader : Reads reader toJson where
  integral s := by
    have hheaders := HeaderSnapshot.reads_record.readMap.integral s.headers
    cases hbody : s.body <;>
      simp [toJson, hbody, Json.Integral, Json.FieldsIntegral, hheaders]
  read s := by
    have hheaders := HeaderSnapshot.reads_record.readMap.read s.headers
    obtain ⟨exchangeId, headers, bodyType, body⟩ := s
    cases body with
    | none =>
      refine record.read_object ⟨some exchangeId, some headers, some bodyType, none⟩ ?_
      simp only [List.append_nil, Json.fieldDrafts]
      rw [record.fillFields_slot _ rfl rfl (reads_readText.read exchangeId),
        record.fillFields_slot _ rfl rfl hheaders,
        record.fillFields_slot _ rfl rfl (reads_readText.read bodyType)]
      rfl
    | some text =>
      have hbody : readOption readText (Json.string text).draft = .ok (some text) :=
        reads_readText.readOption text (by simp [Json.draft])
      refine record.read_object
        ⟨some exchangeId, some headers, some bodyType, some (some text)⟩ ?_
      simp only [List.cons_append, List.nil_append, Json.fieldDrafts]
      rw [record.fillFields_slot _ rfl rfl (reads_readText.read exchangeId),
        record.fillFields_slot _ rfl rfl hheaders,
        record.fillFields_slot _ rfl rfl (reads_readText.read bodyType),
        record.fillFields_slot _ rfl rfl hbody]
      rfl

namespace Event

/-- An event with or without a route is read back. -/
theorem reads_reader : Reads reader toJson where
  integral e := by
    have hid := integral_nat e.traceId
    have hmessage := Snapshot.reads_reader.integral e.message
    cases hroute : e.routeId <;>
      simp [toJson, toJsonWith, hroute, Json.Integral, Json.FieldsIntegral, hid, hmessage]
  read e := by
    have hid := (reads_readWord "u64").read e.traceId
    have hstamp := Timestamp.reads_reader.read e.timestamp
    have hmessage := Snapshot.reads_reader.read e.message
    obtain ⟨traceId, timestamp, routeId, toNode, firstInRoute, message⟩ := e
    cases routeId with
    | none =>
      refine record.read_object
        ⟨some traceId, some timestamp, none, some toNode, some firstInRoute, some message⟩ ?_
      simp only [List.cons_append, List.nil_append, Json.fieldDrafts]
      rw [record.fillFields_slot _ rfl rfl hid, record.fillFields_slot _ rfl rfl hstamp,
        record.fillFields_slot _ rfl rfl (reads_readText.read toNode),
        record.fillFields_slot _ rfl rfl (reads_readBool.read firstInRoute),
        record.fillFields_slot _ rfl rfl hmessage]
      rfl
    | some route =>
      have hroute : readOption readText (Json.string route).draft = .ok (some route) :=
        reads_readText.readOption route (by simp [Json.draft])
      refine record.read_object
        ⟨some traceId, some timestamp, some (some route), some toNode, some firstInRoute,
          some message⟩ ?_
      simp only [List.cons_append, List.nil_append, Json.fieldDrafts]
      rw [record.fillFields_slot _ rfl rfl hid, record.fillFields_slot _ rfl rfl hstamp,
        record.fillFields_slot _ rfl rfl hroute,
        record.fillFields_slot _ rfl rfl (reads_readText.read toNode),
        record.fillFields_slot _ rfl rfl (reads_readBool.read firstInRoute),
        record.fillFields_slot _ rfl rfl hmessage]
      rfl

/-- The line of an event is read as the event. -/
theorem ofChars_chars (e : Event) : ofChars e.toJson.chars = .ok e :=
  reads_reader.decodeChars_chars e

/-- A line feed in a text of an event is no line feed in its line. -/
theorem newline_not_mem_chars (e : Event) : '\n' ∉ e.toJson.chars :=
  (Json.noControl_chars _ (reads_reader.integral e)).newline_not_mem

/-- The lines of a text of events are their texts. -/
theorem splitOn_jsonLines {events : List Event} (h : events ≠ []) :
    (jsonLines events).splitOn '\n' = events.map (·.toJson.chars) := by
  have hlines : ∀ line ∈ events.map (·.toJson.chars), '\n' ∉ line := by
    intro line hline
    obtain ⟨e, -, rfl⟩ := List.mem_map.1 hline
    exact e.newline_not_mem_chars
  exact List.splitOn_intercalate '\n' hlines (by simpa using h)

/-- **The text of events loses nothing.** No events are no text. Otherwise the line feeds of
the text cut it into one line for each event, and every line is read as its event. -/
theorem jsonLines_lossless (events : List Event) :
    jsonLines [] = [] ∧
    (events ≠ [] →
      ((jsonLines events).splitOn '\n').length = events.length ∧
      ((jsonLines events).splitOn '\n').map ofChars = events.map .ok) := by
  refine ⟨rfl, fun hne => ?_⟩
  have hread : ∀ e ∈ events, (ofChars ∘ fun e => e.toJson.chars) e = .ok e := fun e _ =>
    e.ofChars_chars
  rw [splitOn_jsonLines hne, List.length_map, List.map_map, List.map_congr_left hread]
  exact ⟨rfl, rfl⟩

namespace Awkward

/-- An event without a route and a body. -/
def bare : Event := ⟨0, .epoch, none, "", false, ⟨"", .empty, "empty", none⟩⟩

/-- An event whose texts look like the text around them. -/
def quoting : Event where
  traceId := .ofNat (wordBound - 1)
  timestamp := ⟨⟨2024, 2, 29⟩, 23, 59, 60, 1, by decide⟩
  routeId := some "\",\n\x7b"
  toNode := "\\u0041\\"
  firstInRoute := true
  message :=
    ⟨"é\r", .ofList [("\n", ⟨"string", "\"\x7d"⟩), ("", ⟨"null", ""⟩)], "text", some "\x00\t"⟩

end Awkward

theorem jsonLines_lossless_awkward :
    [Awkward.bare, Awkward.quoting] ≠ [] ∧
    ((jsonLines [Awkward.bare, Awkward.quoting]).splitOn '\n').map ofChars =
      [.ok Awkward.bare, .ok Awkward.quoting] :=
  ⟨List.cons_ne_nil _ _, ((jsonLines_lossless _).2 (List.cons_ne_nil _ _)).2⟩

end Event

end TraceBacklog
