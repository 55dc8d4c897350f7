/-
# Commands on a backlog

Everything that can be asked of a backlog, as data, so that whole histories are lists
of commands. Only pushes, drains and clears change the backlog.

Key definitions: `Backlog.Command`, `Backlog.Reply`, `Backlog.perform`, `Backlog.run`,
`Selection`.
-/
import TraceBacklog.Backlog

namespace TraceBacklog

/-- Which events are wanted: those of a node, and those whose number lies in a range. -/
structure Selection where
  node : Option String
  least : Option UInt64
  greatest : Option UInt64
deriving DecidableEq, Repr, Inhabited

/-- Is the event wanted? Bounds that are not given do not bound. -/
def Selection.holds (s : Selection) (e : Event) : Bool :=
  s.node.all (· = e.toNode) && s.least.all (· ≤ e.traceId) && s.greatest.all (e.traceId ≤ ·)

namespace Backlog

/-- Adds events one after the other; gives back the ones that made room for them. -/
def pushAll (b : Backlog) : List Event → Backlog × List Event
  | [] => (b, [])
  | e :: rest =>
    let (b, evicted) := b.push e
    let (b, more) := b.pushAll rest
    (b, evicted.toList ++ more)

/-- A request to a backlog. -/
inductive Command where
  | push (e : Event)
  | pushAll (events : List Event)
  | contents
  | drain
  | filter (s : Selection)
  | clear
  | capacity
  | isEmpty
  | len

/-- What a backlog answers. -/
inductive Reply where
  | done
  | evicted (e : Option Event)
  | events (events : List Event)
  | number (n : Nat)
  | flag (b : Bool)

/-- Does what is asked. -/
def perform (b : Backlog) : Command → Backlog × Reply
  | .push e =>
    let (b, evicted) := b.push e
    (b, .evicted evicted)
  | .pushAll events =>
    let (b, evicted) := b.pushAll events
    (b, .number evicted.length)
  | .contents => (b, .events b.events)
  | .drain =>
    let (b, events) := b.drain
    (b, .events events)
  | .filter s => (b, .events (b.filter s.holds))
  | .clear => (b.clear, .done)
  | .capacity => (b, .number b.capacity)
  | .isEmpty => (b, .flag b.isEmpty)
  | .len => (b, .number b.len)

/-- Does one thing after the other. -/
def run (b : Backlog) : List Command → Backlog × List Reply
  | [] => (b, [])
  | c :: rest =>
    let (b, reply) := b.perform c
    let (b, replies) := b.run rest
    (b, reply :: replies)

end Backlog

end TraceBacklog
