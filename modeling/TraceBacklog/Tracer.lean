/-
# The state of a tracer

A tracer keeps a backlog, remembers the nodes that it intercepts, and has a few
settings and counters. A capture that yields no snapshot is treated as its policy says.

Key definitions: `Tracked`, `Tracer`, `Tracer.ofConfig`, `ServiceState`, `Tracer.track`,
`Tracer.untrack`, `Tracer.lose`, `Tracer.latest`, `Tracer.describe`.
-/
import TraceBacklog.Backlog
import TraceBacklog.Config
import TraceBacklog.Node

namespace TraceBacklog

/-- Where a tracer is in its life. It can be stopped and started again; a shutdown is
final. -/
inductive ServiceState where
  | started
  | stopped
  | shutdown
deriving DecidableEq, Repr, Inhabited

namespace ServiceState

def name : ServiceState → String
  | .started => "started"
  | .stopped => "stopped"
  | .shutdown => "shutdown"

/-- The name in a description. -/
def title : ServiceState → String
  | .started => "Started"
  | .stopped => "Stopped"
  | .shutdown => "Shutdown"

end ServiceState

/-- Names a factory of ids by its number. -/
structure FactoryRef where
  index : Nat
deriving DecidableEq, Repr, Inhabited

/-- The intercepted nodes. Each stands where the number of its key does. -/
structure Tracked where
  byIndex : KeyMap Nat Node
  keyed : ∀ entry ∈ byIndex.entries, entry.1 = entry.2.key.index

namespace Tracked

def empty : Tracked := ⟨.empty, fun _ h => absurd h List.not_mem_nil⟩

instance : Inhabited Tracked := ⟨empty⟩

/-- Puts a node at its key, in place of the node that stood there. -/
def insert (m : Tracked) (n : Node) : Tracked where
  byIndex := m.byIndex.insert n.key.index n
  keyed entry h := by
    rcases mem_insertEntry h with rfl | h
    · rfl
    · exact m.keyed entry h

/-- Drops what stands at the key of a node. -/
def erase (m : Tracked) (n : Node) : Tracked where
  byIndex := m.byIndex.erase n.key.index
  keyed entry h := m.keyed entry (List.mem_filter.mp h).1

def get? (m : Tracked) (k : NodeKey) : Option Node := m.byIndex.get? k.index

def contains (m : Tracked) (k : NodeKey) : Bool := (m.get? k).isSome

def size (m : Tracked) : Nat := m.byIndex.size

/-- The nodes in the order of their keys. -/
def nodes (m : Tracked) : List Node := m.byIndex.values

@[simp] theorem get?_empty (k : NodeKey) : empty.get? k = none := rfl

theorem index_eq_iff {k other : NodeKey} : k.index = other.index ↔ k = other :=
  ⟨fun h => congrArg NodeKey.mk h, fun h => congrArg NodeKey.index h⟩

theorem get?_insert (m : Tracked) (n : Node) (k : NodeKey) :
    (m.insert n).get? k = if n.key = k then some n else m.get? k := by
  simp only [get?, insert, KeyMap.get?_insert, index_eq_iff]

theorem get?_erase (m : Tracked) (n : Node) (k : NodeKey) :
    (m.erase n).get? k = if n.key = k then none else m.get? k := by
  simp only [get?, erase, KeyMap.get?_erase, index_eq_iff]

end Tracked

/-- What a tracer keeps. -/
structure Tracer where
  state : ServiceState
  enabled : Bool
  /-- How many of the latest events of a node are current. -/
  backlogSize : UInt64
  /-- The number of the latest capture. -/
  traceCounter : UInt64
  captureFailures : UInt64
  lossPolicy : LossPolicy
  bodyMaxChars : UInt64
  backlog : Backlog
  tracked : Tracked
  factory : FactoryRef

namespace Tracer

/-- A tracer that has traced nothing. -/
def fresh (c : Config) (backlog : Backlog) (factory : FactoryRef) : Tracer where
  state := .started
  enabled := c.enabled
  backlogSize := c.backlogSize
  traceCounter := 0
  captureFailures := 0
  lossPolicy := c.lossPolicy
  bodyMaxChars := c.bodyMaxChars
  backlog := backlog
  tracked := .empty
  factory := factory

instance : Inhabited Tracer := ⟨fresh .default default default⟩

/-- A tracer as configured. A configuration that is refused is a failure; one that asks
for more room than can be had is a mistake. -/
def ofConfig (c : Config) (factory : FactoryRef) : Except Stop Tracer :=
  match c.validate with
  | .error f => .error (.failed f)
  | .ok () =>
    match Backlog.new c.capacity.toNat with
    | .error a => .error (.aborted a)
    | .ok backlog => .ok (fresh c backlog factory)

def isShutDown (t : Tracer) : Bool := t.state = .shutdown

/-- Remembers a node. -/
def track (t : Tracer) (n : Node) : Tracer :=
  { t with tracked := t.tracked.insert n }

/-- Forgets a node; after a shutdown none is remembered any more. -/
def untrack (t : Tracer) (n : Node) : Tracer :=
  if t.isShutDown then t else { t with tracked := t.tracked.erase n }

def trackedNodes (t : Tracer) : List Node := t.tracked.nodes

/-- Counts the next capture. -/
def nextCapture (t : Tracer) : Tracer := { t with traceCounter := t.traceCounter + 1 }

/-- Counts a message without a snapshot unless losses are ignored. -/
def lose (t : Tracer) : Tracer :=
  match t.lossPolicy with
  | .ignore => t
  | .count => { t with captureFailures := t.captureFailures + 1 }
  | .log => { t with captureFailures := t.captureFailures + 1 }

/-- The held events of the node with this id, oldest first. -/
def dump (t : Tracer) (id : String) : List Event := t.backlog.filter fun e => e.toNode = id

/-- The current ones of them. -/
def latest (t : Tracer) (id : String) : List Event :=
  let events := t.dump id
  events.drop (events.length - t.backlogSize.toNat)

/-- Stops the service and discards the events. -/
def stop (t : Tracer) : Tracer := { t with backlog := t.backlog.clear, state := .stopped }

/-- Ends the service for good. -/
def shutDown (t : Tracer) : Tracer :=
  { t with enabled := false, backlog := t.backlog.clear, tracked := .empty, state := .shutdown }

end Tracer

/-- The counts between braces. -/
def Stats.describe (s : Stats) : String :=
  "StoreStats \x7b len: " ++ toString s.len ++ ", capacity: " ++ toString s.capacity ++
    ", pushed: " ++ toString s.pushed.toNat ++ ", evicted: " ++ toString s.evicted.toNat ++
    ", drained: " ++ toString s.drained.toNat ++ " \x7d"

/-- A summary for people. -/
def Tracer.describe (t : Tracer) : String :=
  "BacklogTracer \x7b state: " ++ t.state.title ++ ", enabled: " ++ toString t.enabled ++
    ", backlog_size: " ++ toString t.backlogSize.toNat ++
    ", trace_counter: " ++ toString t.traceCounter.toNat ++
    ", store: " ++ t.backlog.stats.describe ++ " \x7d"

end TraceBacklog
