/-
# Backlog events

An event says that an exchange was about to enter a node: the number of the capture,
its time, the route if there is one, the node, whether the node is the first of its
route, and the snapshot of the message. Events are written as JSON, one to a line, and
read back.

Key definitions: `Event`, `Event.toJson`, `Event.jsonLines`, `Event.reader`.
-/
import TraceBacklog.Snapshot
import TraceBacklog.Timestamp

namespace TraceBacklog

/-- One captured event. -/
structure Event where
  traceId : UInt64
  timestamp : Timestamp
  routeId : Option String
  toNode : String
  firstInRoute : Bool
  message : Snapshot
deriving DecidableEq, Repr

namespace Event

/-- The exchange that was captured. -/
def exchangeId (e : Event) : String := e.message.exchangeId

/-- How the time of an event is written. -/
abbrev Stamp := Timestamp → List Char

def toJsonWith (stamp : Stamp) (e : Event) : Json :=
  .object ([("traceId", .nat e.traceId.toNat),
      ("timestamp", .string (String.ofList (stamp e.timestamp)))] ++
    (match e.routeId with
      | none => []
      | some id => [("routeId", .string id)]) ++
    [("toNode", .string e.toNode), ("firstInRoute", .bool e.firstInRoute),
      ("message", e.message.toJson)])

def toJson (e : Event) : Json := e.toJsonWith Timestamp.chars

/-- Lines with a line feed between them. -/
def joinLines (lines : List (List Char)) : List Char := List.intercalate ['\n'] lines

def jsonLinesWith (stamp : Stamp) (events : List Event) : List Char :=
  joinLines (events.map fun e => (e.toJsonWith stamp).chars)

/-- One event a line, as compact JSON. -/
def jsonLines (events : List Event) : List Char := jsonLinesWith Timestamp.chars events

/-- An event that is being filled. -/
structure Slots where
  traceId : Option UInt64
  timestamp : Option Timestamp
  routeId : Option (Option String)
  toNode : Option String
  firstInRoute : Option Bool
  message : Option Snapshot

def record : Record Slots Event where
  name := "BacklogEvent"
  fields := [
    .slot "traceId" (readWord "u64") (·.traceId) (fun s v => { s with traceId := v }),
    .slot "timestamp" Timestamp.reader (·.timestamp) (fun s v => { s with timestamp := v }),
    .slot "routeId" (readOption readText) (·.routeId) (fun s v => { s with routeId := v }),
    .slot "toNode" readText (·.toNode) (fun s v => { s with toNode := v }),
    .slot "firstInRoute" readBool (·.firstInRoute) (fun s v => { s with firstInRoute := v }),
    .slot "message" Snapshot.reader (·.message) (fun s v => { s with message := v })]
  start := ⟨none, none, none, none, none, none⟩
  finish s := do
    let traceId ← required "traceId" s.traceId
    let timestamp ← required "timestamp" s.timestamp
    let toNode ← required "toNode" s.toNode
    let firstInRoute ← required "firstInRoute" s.firstInRoute
    let message ← required "message" s.message
    return ⟨traceId, timestamp, s.routeId.getD none, toNode, firstInRoute, message⟩
  hasDefaults := false

/-- Reads an event. -/
def reader : Reader Event := record.read

def ofChars (cs : List Char) : Except ReadError Event := decodeChars reader cs

end Event

end TraceBacklog
