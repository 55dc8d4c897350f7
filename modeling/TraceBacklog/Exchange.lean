/-
# Exchanges

A message on its way through a route: an identity that never changes, headers by key,
and a body. Stages of a route edit headers and body.

Key definitions: `Body`, `Exchange`, `Exchange.setHeader`, `Exchange.removeHeader`,
`Exchange.setBody`.
-/
import TraceBacklog.Json.Value

namespace TraceBacklog

/-- What a message carries. -/
inductive Body where
  | empty
  | text (s : String)
  | json (v : Json)
  | bytes (data : List UInt8)
  /-- A value of the running program that has no text: a stream, a connection. -/
  | opaqueValue
deriving Repr, Inhabited

namespace Body

/-- The name of the kind of body. -/
def typeName : Body → String
  | .empty => "empty"
  | .text _ => "text"
  | .json _ => "json"
  | .bytes _ => "bytes"
  | .opaqueValue => "opaque"

def isEmpty : Body → Bool
  | .empty => true
  | _ => false

end Body

/-- A message and its identity. -/
structure Exchange where
  id : String
  headers : KeyMap String Json
  body : Body
deriving Repr, Inhabited

namespace Exchange

/-- A fresh exchange. -/
def new (id : String) (body : Body) : Exchange := ⟨id, .empty, body⟩

def header? (e : Exchange) (key : String) : Option Json := e.headers.get? key

def setHeader (e : Exchange) (key : String) (value : Json) : Exchange :=
  { e with headers := e.headers.insert key value }

def removeHeader (e : Exchange) (key : String) : Exchange :=
  { e with headers := e.headers.erase key }

def setBody (e : Exchange) (body : Body) : Exchange := { e with body := body }

end Exchange

end TraceBacklog
