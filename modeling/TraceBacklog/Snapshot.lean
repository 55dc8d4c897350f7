/-
# Snapshots of messages

A snapshot is a textual copy of an exchange, detached from it. Header values keep their
kind beside their text, so the text `1` and the number 1 stay different. Bodies may be
clipped to a number of characters; a body that has no text has no snapshot.

Key definitions: `HeaderSnapshot`, `Snapshot`, `Snapshot.capture`, `clip`,
`Snapshot.toJson`, `Snapshot.reader`.
-/
import TraceBacklog.Exchange
import TraceBacklog.Failure
import TraceBacklog.Json.Decode

namespace TraceBacklog

/-- The kind and the text of a header value. -/
structure HeaderSnapshot where
  kind : String
  value : String
deriving DecidableEq, Repr, Inhabited

namespace HeaderSnapshot

/-- Texts stand for themselves, everything else for its compact JSON; null is empty. -/
def ofJson (v : Json) : HeaderSnapshot :=
  match v with
  | .null => ⟨"null", ""⟩
  | .bool b => ⟨"boolean", String.ofList (Json.boolChars b)⟩
  | .number n => ⟨"number", n.text⟩
  | .string s => ⟨"string", s⟩
  | .array _ => ⟨"array", v.compact⟩
  | .object _ => ⟨"object", v.compact⟩

def toJson (h : HeaderSnapshot) : Json :=
  .object [("type", .string h.kind), ("value", .string h.value)]

/-- A header that is being filled. -/
structure Slots where
  kind : Option String
  value : Option String

def record : Record Slots HeaderSnapshot where
  name := "HeaderSnapshot"
  fields := [
    .slot "type" readText (·.kind) (fun s v => { s with kind := v }),
    .slot "value" readText (·.value) (fun s v => { s with value := v })]
  start := ⟨none, none⟩
  finish s := do
    let kind ← required "type" s.kind
    let value ← required "value" s.value
    return ⟨kind, value⟩
  hasDefaults := false

end HeaderSnapshot

/-- The text that a body has in a snapshot; an empty body has none. -/
def Body.text? : Body → Except String (Option String)
  | .empty => .ok none
  | .text s => .ok (some s)
  | .json v => .ok (some v.compact)
  | .bytes data => .ok (some (String.ofList (Hex.encode data)))
  | .opaqueValue => .error "message body has no textual representation"

/-- What stands after the kept characters of a clipped body. -/
def clipNote (limit total : Nat) : List Char :=
  ("... [Body clipped after " ++ toString limit ++ " chars, total length is " ++ toString total
    ++ "]").toList

/-- Keeps the first `limit` characters of a longer text and notes what was cut; zero
keeps everything. -/
def clip (limit : Nat) (text : String) : String :=
  let total := text.toList.length
  if limit = 0 || total ≤ limit then text
  else String.ofList (text.toList.take limit ++ clipNote limit total)

theorem clip_zero (text : String) : clip 0 text = text := by simp [clip]

/-- A text that fits is kept. -/
theorem clip_of_length_le {limit : Nat} {text : String} (h : text.toList.length ≤ limit) :
    clip limit text = text := by
  unfold clip
  simp only
  rw [if_pos]
  simp only [Bool.or_eq_true, decide_eq_true_eq]
  exact .inr h

/-- A textual copy of an exchange. -/
structure Snapshot where
  exchangeId : String
  headers : KeyMap String HeaderSnapshot
  bodyType : String
  body : Option String
deriving DecidableEq, Repr

namespace Snapshot

/-- The snapshot of an exchange as the node `node` sees it, or that there is none. -/
def capture (e : Exchange) (node : String) (limit : Nat) : Except Failure Snapshot :=
  match e.body.text? with
  | .error reason => .error (.captureFailed node reason)
  | .ok text =>
    .ok ⟨e.id, e.headers.map HeaderSnapshot.ofJson, e.body.typeName, text.map (clip limit)⟩

/-- Whether there is one hangs on the body alone. -/
theorem isOk_capture (e : Exchange) (node : String) (limit : Nat) :
    (capture e node limit).isOk = e.body.text?.isOk := by
  rw [capture]
  cases e.body.text? <;> rfl

/-- There is no snapshot exactly when the body is a value of the running program. -/
theorem capture_isOk_iff (e : Exchange) (node : String) (limit : Nat) :
    (capture e node limit).isOk ↔ e.body ≠ .opaqueValue := by
  cases hb : e.body <;> simp [capture, hb, Body.text?, Except.isOk, Except.toBool]

def toJson (s : Snapshot) : Json :=
  .object ([("exchangeId", .string s.exchangeId), ("headers", .ofMap (s.headers.map (·.toJson))),
      ("bodyType", .string s.bodyType)] ++
    match s.body with
    | none => []
    | some text => [("body", .string text)])

/-- A snapshot that is being filled. -/
structure Slots where
  exchangeId : Option String
  headers : Option (KeyMap String HeaderSnapshot)
  bodyType : Option String
  body : Option (Option String)

def record : Record Slots Snapshot where
  name := "MessageSnapshot"
  fields := [
    .slot "exchangeId" readText (·.exchangeId) (fun s v => { s with exchangeId := v }),
    .slot "headers" (readMap HeaderSnapshot.record.read) (·.headers)
      (fun s v => { s with headers := v }),
    .slot "bodyType" readText (·.bodyType) (fun s v => { s with bodyType := v }),
    .slot "body" (readOption readText) (·.body) (fun s v => { s with body := v })]
  start := ⟨none, none, none, none⟩
  finish s := do
    let exchangeId ← required "exchangeId" s.exchangeId
    let headers ← required "headers" s.headers
    let bodyType ← required "bodyType" s.bodyType
    return ⟨exchangeId, headers, bodyType, s.body.getD none⟩
  hasDefaults := false

/-- Reads a snapshot. -/
def reader : Reader Snapshot := record.read

def ofChars (cs : List Char) : Except ReadError Snapshot := decodeChars reader cs

end Snapshot

end TraceBacklog
