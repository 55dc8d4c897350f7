/-
# The demo route

A small route for orders, run with its tracer enabled: every order is checked, gets a
priority, and is accepted. Afterwards the backlog is dumped, all of it or the current
events of one node. Workers share the orders evenly, and each sends its own in turn.

Key definitions: `Demo`, `Demo.route`, `Demo.order`, `Demo.schedule`, `Demo.prepare`,
`Demo.send`, `Demo.dump`, `Demo.close`, `Demo.runAt`, `Demo.command`,
`Options.tracerConfig`.
-/
import TraceBacklog.CommandLine
import TraceBacklog.Event.Xml
import TraceBacklog.Failure.Response
import TraceBacklog.Route

namespace TraceBacklog

/-- The configuration that a run asks for; `read` looks into files. -/
def Options.tracerConfig (o : Options) (read : String → Config.FileContent) :
    Except Failure Config :=
  let base : Except Failure Config := match o.config with
    | none => .ok Config.default
    | some path => Config.ofFile path (read path)
  base.map fun c => { c with capacity := o.capacity.getD c.capacity }

/-- A route that is built and its tracer. -/
structure Demo where
  engine : Engine
  tracer : TracerRef
  pipeline : List Processor

namespace Demo

/-! ### The route -/

/-- What the nodes do. -/
def stages : List (NodeSpec × Step) := [
  (⟨"validate", some "validate", []⟩,
    .requireHeader "orderId" (.processingFailed "validate" "missing orderId header")),
  (⟨"enrich", none, []⟩, .setHeader "priority" (.string "normal")),
  (⟨"to", none, []⟩, .setBody (.json (.object [("status", .string "accepted")])))]

def route : Route where
  id := some "orders"
  outputs := ((NodeSpec.defineAll 1 (stages.map (·.1))).1.zip (stages.map (·.2))).map
    fun (node, step) => ⟨node, .leaf none [step]⟩

/-! ### The orders -/

/-- The exchange for order number `n`, sent by a worker. -/
def order (id : String) (worker n : Nat) : Exchange :=
  ((Exchange.new id (.json (.object [("order", .nat n), ("qty", .nat (n % 5 + 1))]))).setHeader
    "orderId" (.string (String.ofList ("ORD-".toList ++ padded 4 n)))).setHeader
    "worker" (.nat worker)

/-- The orders of worker `w`: every one of `workers` takes its turn. -/
def shareOf (workers orders w : Nat) : List Nat :=
  List.range' w ((orders - w + workers - 1) / workers) workers

/-- All orders with their workers, one worker after the other. -/
def schedule (workers orders : Nat) : List (Nat × Nat) :=
  (List.range (min workers orders)).flatMap fun w =>
    (shareOf workers orders w).map fun n => (w, n)

/-- What a run sends; there is at least one worker. -/
def scheduleFor (o : Options) : List (Nat × Nat) :=
  schedule (max o.threads.toNat 1) o.exchanges.toNat

/-! ### The run -/

/-- Sets the backlog size if one is given. -/
def resize (e : Engine) (r : TracerRef) (size : Option Int64) : Engine × Except Stop Unit :=
  match size with
  | none => (e, .ok ())
  | some size => e.setBacklogSize r size

/-- Makes the tracer, builds the route and enables the tracer. -/
def prepare (o : Options) (c : Config) (clock : Clock) : Except Stop Demo := do
  let (e, tracer) := (Engine.initial clock).newTracer c none
  let tracer ← tracer
  let (e, sized) := resize e tracer o.backlogSize
  sized
  let (e, pipeline) := e.build [.trace tracer] route
  let pipeline ← pipeline
  let (e, enabled) := e.setEnabled tracer true
  enabled
  return ⟨e, tracer, pipeline⟩

/-- Sends an exchange through the route. What becomes of it is not looked at. -/
def send (d : Demo) (x : Exchange) : Demo :=
  { d with engine := (Processor.processAll d.engine x d.pipeline).engine }

/-- The events that a run shows. -/
def dump (d : Demo) (node : Option String) : Demo × Except Stop (List Event) :=
  let (e, events) := match node with
    | none => d.engine.dumpAll d.tracer
    | some id => d.engine.latest d.tracer id
  ({ d with engine := e }, events)

/-- Tears the route down and ends the tracer. -/
def close (d : Demo) : Demo × Except Stop Unit :=
  let (e, result) := (Processor.stopAll d.engine d.pipeline).shutDown d.tracer
  ({ d with engine := e }, result)

/-- Sends all orders; `id` names the exchange of an order. -/
def sendAll (d : Demo) (id : Nat → String) (orders : List (Nat × Nat)) : Demo :=
  orders.foldl (fun d w => d.send (order (id w.2) w.1 w.2)) d

/-- A whole run, with the events that it shows. -/
def runAt (o : Options) (c : Config) (clock : Clock) (id : Nat → String) :
    Except Stop (List Event) := do
  let d ← prepare o c clock
  let (d, events) := (d.sendAll id (scheduleFor o)).dump o.node
  let events ← events
  d.close.2
  return events

/-- A run that takes no time. -/
def run (o : Options) (c : Config) (time : Timestamp) (id : Nat → String) :
    Except Stop (List Event) := runAt o c (.still time) id

/-- The text of the events in the form that was asked for. -/
def outputWith (o : Options) (jsonStamp xmlStamp : Event.Stamp) (events : List Event) : List Char :=
  if o.json then Event.jsonLinesWith jsonStamp events
  else Event.xmlDocumentWith xmlStamp events

def output (o : Options) (events : List Event) : List Char :=
  outputWith o Timestamp.chars Timestamp.millisChars events

end Demo

/-! ### The command -/

namespace Stop

/-- The exit code of a run that did not come to its end. -/
def exitCode : Stop → UInt32
  | .failed _ => 1
  | .aborted _ => 101

/-- What is said of it on the error stream. -/
def report : Stop → String
  | .failed f => f.response.toJson.pretty
  | .aborted a => a.message

end Stop

/-- How the command ends. -/
structure Demo.Result where
  exitCode : UInt32
  output : String
  /-- Why the run did not come to its end. -/
  report : Option String
deriving DecidableEq, Repr

namespace Demo

/-- The end of a run that printed nothing. -/
def Result.ofStop (stop : Stop) : Result := ⟨stop.exitCode, "", some stop.report⟩

/-- The command, given what is in files, the clock and the identities. -/
def command (o : Options) (read : String → Config.FileContent) (clock : Clock)
    (id : Nat → String) : Result :=
  match o.tracerConfig read with
  | .error f => .ofStop (.failed f)
  | .ok c =>
    match runAt o c clock id with
    | .error stop => .ofStop stop
    | .ok events => ⟨0, String.ofList (output o events) ++ "\n", none⟩

end Demo

end TraceBacklog
