/-
# Commands on a tracer

Everything that can be asked of a tracer, as data, so that runs are lists of commands
and a stage of a route can carry them.

Key definitions: `Command`, `Reply`, `Engine.perform`.
-/
import TraceBacklog.Engine.Control

namespace TraceBacklog

/-- A request to a tracer. -/
inductive Command where
  | isEnabled
  | setEnabled (enabled : Bool)
  | backlogSize
  | setBacklogSize (size : Int64)
  | lossPolicy
  | setLossPolicy (policy : LossPolicy)
  | traceCounter
  | resetTraceCounter
  | captureFailures
  | trackedNodeCount
  | stats
  | state
  | describe
  | start
  | stop
  | shutDown
  | dump (id : String)
  | latest (id : String)
  | dumpAll
  | backlog (c : Backlog.Command)

/-- What a tracer answers. -/
inductive Reply where
  | done
  | flag (b : Bool)
  | number (n : UInt64)
  | count (n : Nat)
  | policy (p : LossPolicy)
  | stats (s : Stats)
  | state (s : ServiceState)
  | text (s : String)
  | events (events : List Event)
  | backlog (r : Backlog.Reply)

namespace Engine

/-- An answer in the form of a reply. -/
def answer {α : Type} (f : α → Reply) (result : Engine × Except Stop α) :
    Engine × Except Stop Reply :=
  (result.1, result.2.map f)

/-- Does what is asked. Policy, counts and descriptions can be read at any time, and the
backlog answers at any time; everything else needs a tracer that was not shut down. -/
def perform (e : Engine) (r : TracerRef) : Command → Engine × Except Stop Reply
  | .isEnabled => answer .flag (e.isEnabled r)
  | .setEnabled enabled => answer (fun _ => .done) (e.setEnabled r enabled)
  | .backlogSize => answer .number (e.backlogSize r)
  | .setBacklogSize size => answer (fun _ => .done) (e.setBacklogSize r size)
  | .lossPolicy => (e, .ok (.policy (e.tracer r).lossPolicy))
  | .setLossPolicy policy => answer (fun _ => .done) (e.setLossPolicy r policy)
  | .traceCounter => answer .number (e.traceCounter r)
  | .resetTraceCounter => answer (fun _ => .done) (e.resetTraceCounter r)
  | .captureFailures => (e, .ok (.number (e.tracer r).captureFailures))
  | .trackedNodeCount => (e, .ok (.count (e.tracer r).tracked.size))
  | .stats => (e, .ok (.stats (e.tracer r).backlog.stats))
  | .state => (e, .ok (.state (e.tracer r).state))
  | .describe => (e, .ok (.text (e.tracer r).describe))
  | .start => answer (fun _ => .done) (e.start r)
  | .stop => answer (fun _ => .done) (e.stop r)
  | .shutDown => answer (fun _ => .done) (e.shutDown r)
  | .dump id => answer .events (e.dump r id)
  | .latest id => answer .events (e.latest r id)
  | .dumpAll => answer .events (e.dumpAll r)
  | .backlog c =>
    let (e, reply) := e.commandBacklog r c
    (e, .ok (.backlog reply))

end Engine

end TraceBacklog
