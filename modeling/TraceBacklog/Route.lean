/-
# Routes

A route is an ordered list of outputs, each a node and the processor that implements
it. Building a route turns it into a pipeline and puts what every strategy adds in
front of every output; the strategy that was registered first ends up outermost.

Key definitions: `Route`, `Route.isFirstOutput`, `Strategy`, `Engine.wrap`,
`Engine.wrapAll`, `Engine.build`, `Strategy.findTracer`.
-/
import TraceBacklog.Processor

namespace TraceBacklog

/-- One output of a route. -/
structure Output where
  node : Node
  processor : Processor
deriving Inhabited

/-- An ordered list of outputs with one entry point. -/
structure Route where
  id : Option String
  outputs : List Output
deriving Inhabited

namespace Route

def nodes (r : Route) : List Node := r.outputs.map (·.node)

/-- Is this the node at which exchanges enter the route? -/
def isFirstOutput (r : Route) (n : Node) : Bool :=
  match r.outputs with
  | [] => false
  | o :: _ => o.node.key = n.key

end Route

/-- What a route looks like but for its processors. -/
structure Outline where
  id : Option String
  nodes : List Node

def Route.outline (r : Route) : Outline := ⟨r.id, r.nodes⟩

/-- A target with a handler of exchanges in front of it, if there is one. -/
def Processor.behind (target : Processor) : Option (Exchange → Handling Unit) → Processor
  | some handler => .handled handler target
  | none => target

/-- The ids of nodes at some moment. -/
abbrev NodeIds := Node → Option String

/-- What is put in front of the outputs of a route. -/
inductive Strategy where
  | trace (tracer : TracerRef)
  /-- Puts a handler of exchanges in front of an output, or nothing. -/
  | handle (choose : Option Outline → Node → NodeIds → Option (Exchange → Handling Unit))
deriving Inhabited

namespace Strategy

/-- Adds a tag to the trail before every output. -/
def tag (tag : String) : Strategy := .handle fun _ _ _ => some (Handling.tag tag)

/-- The tracer among strategies; the first one if there are several. -/
def findTracer : List Strategy → Option TracerRef
  | [] => none
  | .trace r :: _ => some r
  | .handle _ :: rest => findTracer rest

end Strategy

namespace Engine

/-- The interceptor that a tracer puts in front of a node, of a route or on its own. -/
def interceptor (r : TracerRef) (route : Option Route) (n : Node) : Interceptor where
  tracer := r
  store := r
  node := n
  routeId := route.bind (·.id)
  firstInRoute := (route.map (·.isFirstOutput n)).getD false

/-- The ids that nodes have now. -/
def nodeIds (e : Engine) : NodeIds := fun n => n.id? e.ids

/-- Puts in front of a target what a strategy adds. -/
def wrap (e : Engine) (route : Option Route) (n : Node) (s : Strategy) (target : Processor) :
    Engine × Except Stop Processor :=
  match s with
  | .handle choose => (e, .ok (target.behind (choose (route.map (·.outline)) n e.nodeIds)))
  | .trace r =>
    match e.track r n with
    | (e, .error stop) => (e, .error stop)
    | (e, .ok ()) =>
      let i := interceptor r route n
      (e.log (.wrapping (n.display e.ids) i.firstInRoute), .ok (.traced i target))

/-- Puts in front of a target what all strategies add, the last one first. -/
def wrapAll (e : Engine) (route : Option Route) (n : Node) (strategies : List Strategy)
    (target : Processor) : Engine × Except Stop Processor :=
  match strategies with
  | [] => (e, .ok target)
  | s :: rest =>
    match e.wrapAll route n rest target with
    | (e, .error stop) => (e, .error stop)
    | (e, .ok target) => e.wrap route n s target

/-- The stages for outputs of a route. -/
def buildStages (e : Engine) (route : Route) (strategies : List Strategy) :
    List Output → Engine × Except Stop (List Processor)
  | [] => (e, .ok [])
  | o :: rest =>
    match e.wrapAll (some route) o.node strategies o.processor with
    | (e, .error stop) => (e, .error stop)
    | (e, .ok stage) =>
      match e.buildStages route strategies rest with
      | (e, .error stop) => (e, .error stop)
      | (e, .ok stages) => (e, .ok (stage :: stages))

/-- Builds a route. Nodes that were wrapped stay tracked even if a later one is not. -/
def build (e : Engine) (strategies : List Strategy) (route : Route) :
    Engine × Except Stop (List Processor) :=
  match e.buildStages route strategies route.outputs with
  | (e, .error stop) => (e, .error stop)
  | (e, .ok stages) => (e.log (.routeBuilt route.id route.outputs.length), .ok stages)

end Engine

end TraceBacklog
