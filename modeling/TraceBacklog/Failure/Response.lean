/-
# Failures as documents

A failure is reported to operators as a JSON object under the key `error`, compactly
or on several lines. The document can be read back.

Key definitions: `Response`, `Failure.response`, `Response.toJson`, `Response.reader`,
`Response.ofChars`.
-/
import TraceBacklog.Failure
import TraceBacklog.Json.Decode

namespace TraceBacklog

/-- What a report of a failure says. -/
structure Response where
  code : String
  message : String
  category : Category
  recoverable : Bool
deriving DecidableEq, Repr

/-- The report of a failure. -/
def Failure.response (f : Failure) : Response :=
  ⟨f.code, f.message, f.category, f.isRecoverable⟩

namespace Response

/-- The inner object. -/
def detail (r : Response) : Json :=
  .object [("code", .string r.code), ("message", .string r.message),
    ("category", .string r.category.name), ("recoverable", .bool r.recoverable)]

def toJson (r : Response) : Json := .object [("error", r.detail)]

/-- A report that is being filled. -/
structure Slots where
  code : Option String
  message : Option String
  category : Option Category
  recoverable : Option Bool

def detailRecord : Record Slots Response where
  name := "ErrorDetail"
  fields := [
    .slot "code" readText (·.code) (fun s v => { s with code := v }),
    .slot "message" readText (·.message) (fun s v => { s with message := v }),
    .slot "category" (Variants.mk Category.all).read (·.category)
      (fun s v => { s with category := v }),
    .slot "recoverable" readBool (·.recoverable) (fun s v => { s with recoverable := v })]
  start := ⟨none, none, none, none⟩
  finish s := do
    let code ← required "code" s.code
    let message ← required "message" s.message
    let category ← required "category" s.category
    let recoverable ← required "recoverable" s.recoverable
    return ⟨code, message, category, recoverable⟩
  hasDefaults := false

def record : Record (Option Response) Response where
  name := "ErrorResponse"
  fields := [.slot "error" detailRecord.read id (fun _ v => v)]
  start := none
  finish s := required "error" s
  hasDefaults := false

/-- Reads a report. -/
def reader : Reader Response := record.read

def ofChars (cs : List Char) : Except ReadError Response := decodeChars reader cs

end Response

end TraceBacklog
