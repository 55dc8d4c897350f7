/-
# Interceptors

An interceptor stands in front of a node. While its tracer is enabled it records every
exchange that enters the node; the exchange itself goes on untouched, whatever becomes
of the record. A capture is made of elementary steps: it takes a number, makes sure
that the node has an id, and then either reads the clock and stores an event or counts a loss.

Key definitions: `Interceptor`, `Engine.takeTraceId`, `Engine.storeEvent`, `Engine.lose`,
`Engine.capture`, `Engine.enter`, `Interceptor.display`.
-/
import TraceBacklog.Engine.Control

namespace TraceBacklog

/-- What stands in front of a node. -/
structure Interceptor where
  tracer : TracerRef
  /-- The tracer in whose backlog the events are stored. -/
  store : TracerRef
  node : Node
  routeId : Option String
  firstInRoute : Bool
deriving Repr, Inhabited

namespace Interceptor

def display (i : Interceptor) (ids : IdTable) : String :=
  "BacklogTracer[" ++ i.node.display ids ++ "]"

/-- A summary for people. -/
def describe (i : Interceptor) (ids : IdTable) : String :=
  "BacklogTracerInterceptor \x7b node: " ++ quoted (i.node.display ids) ++
    ", route_id: " ++ quotedOption i.routeId ++ ", first: " ++ toString i.firstInRoute ++ " \x7d"

/-- The event of a capture. -/
def event (i : Interceptor) (traceId : UInt64) (time : Timestamp) (toNode : String)
    (message : Snapshot) : Event where
  traceId := traceId
  timestamp := time
  routeId := i.routeId
  toNode := toNode
  firstInRoute := i.firstInRoute
  message := message

end Interceptor

namespace Engine

/-- Takes the number of the next capture. -/
def takeTraceId (e : Engine) (r : TracerRef) : Engine × UInt64 :=
  (e.modifyTracer r (·.nextCapture), (e.tracer r).nextCapture.traceCounter)

/-- Stores an event; the oldest one may make room for it. -/
def storeEvent (e : Engine) (r : TracerRef) (event : Event) : Engine :=
  e.modifyTracer r fun t => { t with backlog := (t.backlog.push event).1 }

/-- Treats a message without a snapshot as the policy of the tracer says. -/
def lose (e : Engine) (r : TracerRef) (failure : Failure) : Engine :=
  let policy := (e.tracer r).lossPolicy
  let e := e.modifyTracer r (·.lose)
  if policy = .log then e.log (.dropped failure) else e

/-- Stores the event of a capture, made at this moment, or treats its loss. -/
def record (e : Engine) (i : Interceptor) (traceId : UInt64) (toNode : String) (x : Exchange) :
    Engine :=
  match Snapshot.capture x toNode (e.tracer i.tracer).bodyMaxChars.toNat with
  | .ok message =>
    let (e, time) := e.readClock
    e.storeEvent i.store (i.event traceId time toNode message)
  | .error failure => e.lose i.tracer failure

/-- Records an exchange as it enters the node. -/
def capture (e : Engine) (i : Interceptor) (x : Exchange) : Engine :=
  let (e, traceId) := e.takeTraceId i.tracer
  let (e, toNode) := e.nodeId (e.tracer i.tracer).factory i.node
  e.record i traceId toNode x

/-- An exchange reaches an interceptor; it is captured while the tracer is enabled. -/
def enter (e : Engine) (i : Interceptor) (x : Exchange) : Engine :=
  if e.shouldTrace i.tracer then e.capture i x else e

end Engine

end TraceBacklog
