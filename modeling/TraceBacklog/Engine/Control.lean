/-
# Controlling a tracer

Settings, counters, queries and lifecycle of one tracer of the engine. Whatever needs a
live tracer aborts after its shutdown, before anything else is looked at.

While a tracer is enabled its nodes can be looked up by id: enabling it gives ids to
all tracked nodes and the nodes below them, and so does tracking a node while it is
enabled.

Key definitions: `Engine.track`, `Engine.untrack`, `Engine.setEnabled`,
`Engine.setBacklogSize`, `Engine.dump`, `Engine.latest`, `Engine.dumpAll`,
`Engine.start`, `Engine.stop`, `Engine.shutDown`, `Engine.commandBacklog`.
-/
import TraceBacklog.Backlog.Command
import TraceBacklog.Engine

namespace TraceBacklog

namespace Engine

/-! ### Nodes -/

/-- Remembers a node that gets an interceptor. -/
def track (e : Engine) (r : TracerRef) (n : Node) : Engine × Except Stop Unit :=
  e.useTracer r fun t =>
    let e := e.modifyTracer r (·.track n)
    if t.enabled then e.nameNode t.factory n else e

/-- Forgets a node whose route is torn down. -/
def untrack (e : Engine) (r : TracerRef) (n : Node) : Engine := e.modifyTracer r (·.untrack n)

/-- Are exchanges captured right now? A tracer that was shut down captures none. -/
def shouldTrace (e : Engine) (r : TracerRef) : Bool := (e.tracer r).enabled

/-! ### Settings -/

/-- Gives ids to all tracked nodes, in the order of their keys, and below them. -/
def nameTracked (e : Engine) (r : TracerRef) : Engine :=
  let t := e.tracer r
  (e.nameNodes t.factory t.trackedNodes).log (.idsAssigned t.trackedNodes.length)

/-- Turns capture on or off. -/
def setEnabled (e : Engine) (r : TracerRef) (enabled : Bool) : Engine × Except Stop Unit :=
  e.useTracer r fun t =>
    let e := if enabled then e.nameTracked r else e
    let e := e.modifyTracer r fun t => { t with enabled := enabled }
    if t.enabled = enabled then e else e.log (.toggled enabled)

/-- Sets how many of the latest events of a node are current. -/
def setBacklogSize (e : Engine) (r : TracerRef) (size : Int64) : Engine × Except Stop Unit :=
  e.withUsable r fun _ =>
    if 0 < size.toInt then
      let size := UInt64.ofNat size.toInt.toNat
      let e := e.modifyTracer r fun t => { t with backlogSize := size }
      (e.log (.backlogSizeChanged size), .ok ())
    else (e, .error (.failed (.invalidBacklogSize size)))

def setLossPolicy (e : Engine) (r : TracerRef) (policy : LossPolicy) :
    Engine × Except Stop Unit :=
  e.useTracer r fun _ => e.modifyTracer r fun t => { t with lossPolicy := policy }

/-- Counts captures from zero again; events that were captured keep their numbers. -/
def resetTraceCounter (e : Engine) (r : TracerRef) : Engine × Except Stop Unit :=
  e.useTracer r fun _ => e.modifyTracer r fun t => { t with traceCounter := 0 }

def isEnabled (e : Engine) (r : TracerRef) : Engine × Except Stop Bool :=
  e.askTracer r (·.enabled)

def backlogSize (e : Engine) (r : TracerRef) : Engine × Except Stop UInt64 :=
  e.askTracer r (·.backlogSize)

def traceCounter (e : Engine) (r : TracerRef) : Engine × Except Stop UInt64 :=
  e.askTracer r (·.traceCounter)

/-! ### Queries -/

/-- The held events of a node, oldest first; the backlog is kept. -/
def dump (e : Engine) (r : TracerRef) (id : String) : Engine × Except Stop (List Event) :=
  e.askTracer r (·.dump id)

/-- The current events of a node, oldest first; the backlog is kept. -/
def latest (e : Engine) (r : TracerRef) (id : String) : Engine × Except Stop (List Event) :=
  e.askTracer r (·.latest id)

/-- Takes all events out of the backlog, oldest first. -/
def dumpAll (e : Engine) (r : TracerRef) : Engine × Except Stop (List Event) :=
  e.withUsable r fun t =>
    (e.modifyTracer r fun t => { t with backlog := t.backlog.drain.1 }, .ok t.backlog.events)

/-- Asks the backlog of a tracer directly, at any time. -/
def commandBacklog (e : Engine) (r : TracerRef) (c : Backlog.Command) : Engine × Backlog.Reply :=
  (e.modifyTracer r fun t => { t with backlog := (t.backlog.perform c).1 },
    ((e.tracer r).backlog.perform c).2)

/-! ### Lifecycle -/

def start (e : Engine) (r : TracerRef) : Engine × Except Stop Unit :=
  e.useTracer r fun _ =>
    (e.modifyTracer r fun t => { t with state := .started }).log .started

/-- Clears the backlog; tracked nodes are kept. -/
def stop (e : Engine) (r : TracerRef) : Engine × Except Stop Unit :=
  e.useTracer r fun _ => (e.modifyTracer r (·.stop)).log .stopped

/-- Clears the backlog and the tracked nodes, for good. -/
def shutDown (e : Engine) (r : TracerRef) : Engine × Except Stop Unit :=
  e.useTracer r fun _ => (e.modifyTracer r (·.shutDown)).log .shutDown

end Engine

end TraceBacklog
