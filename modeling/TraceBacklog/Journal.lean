/-
# The journal

Tracers and routes report what changed: settings, lifecycle, nodes that were wrapped,
events that were lost. An entry is the cause of a report; its level, its message and
its fields are read off it.

Key definitions: `Entry`, `Level`, `Entry.level`, `Entry.message`, `Entry.fields`.
-/
import TraceBacklog.Failure
import TraceBacklog.Text.Quoted

namespace TraceBacklog

/-- How much attention a report asks for. -/
inductive Level where
  | debug
  | info
  | warn
deriving DecidableEq, Repr, Inhabited

namespace Level

def name : Level → String
  | .debug => "DEBUG"
  | .info => "INFO"
  | .warn => "WARN"

end Level

/-- Something that was reported. -/
inductive Entry where
  /-- A tracer was turned on or off and had not been so before. -/
  | toggled (enabled : Bool)
  | backlogSizeChanged (size : UInt64)
  /-- All tracked nodes have ids. -/
  | idsAssigned (nodes : Nat)
  /-- A node gets an interceptor. -/
  | wrapping (node : String) (first : Bool)
  | started
  | stopped
  | shutDown
  /-- A message had no snapshot. -/
  | dropped (failure : Failure)
  | routeBuilt (routeId : Option String) (nodes : Nat)
deriving DecidableEq, Repr

namespace Entry

def level : Entry → Level
  | .toggled _ => .info
  | .backlogSizeChanged _ => .info
  | .dropped _ => .warn
  | _ => .debug

def message : Entry → String
  | .toggled _ => "backlog tracer toggled"
  | .backlogSizeChanged _ => "backlog size changed"
  | .idsAssigned _ => "assigned ids to tracked nodes"
  | .wrapping _ _ => "wrapping node with backlog tracer"
  | .started => "backlog tracer started"
  | .stopped => "backlog tracer stopped"
  | .shutDown => "backlog tracer shut down"
  | .dropped _ => "dropped backlog trace event"
  | .routeBuilt _ _ => "built route"

/-- The fields by name. Of all texts only the id of a route stands between quotes. -/
def fields : Entry → List (String × String)
  | .toggled enabled => [("enabled", toString enabled)]
  | .backlogSizeChanged size => [("backlog_size", toString size.toNat)]
  | .idsAssigned nodes => [("nodes", toString nodes)]
  | .wrapping node first => [("node", node), ("first", toString first)]
  | .started => []
  | .stopped => []
  | .shutDown => []
  | .dropped failure => [("error", failure.message)]
  | .routeBuilt routeId nodes =>
    [("route_id", quoted (routeId.getD "<none>")), ("nodes", toString nodes)]

/-- The entry on one line. -/
def line (e : Entry) : String :=
  e.level.name ++ " " ++ e.message ++
    String.join (e.fields.map fun f => " " ++ f.1 ++ "=" ++ f.2)

end Entry

end TraceBacklog
