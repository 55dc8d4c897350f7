/-
# Processors

A processor is what an exchange goes through. At the leaves are steps, above them are
pipelines, which end at the first stage that does not succeed, and wrappers that act before
their target does. A step and a wrapper are programs of somebody else's. All that is known
of them is how they deal with the rest (`Handling`): they ask tracers something, look at ids
of nodes, go on as they like with what they find, and end with an exchange; a wrapper can
also send exchanges to its target.

A processor that is torn down passes this on to what it is made of. A wrapper such as a
tagging one owns nothing and passes nothing on.

Key definitions: `Handling`, `Step`, `Processor`, `Processor.process`, `Processor.stop`,
`Passage`.
-/
import TraceBacklog.Engine.Command
import TraceBacklog.Interceptor

namespace TraceBacklog

/-- How an exchange got through. -/
abbrev Outcome := Except Stop Unit

/-- What a program does with an exchange: it ends with one, sends one to a target, asks
something of a tracer, or looks at the id of a node, and then goes on with what comes back.
An abort comes back like any answer; whoever does not catch it ends with it. -/
inductive Handling (τ : Type) where
  | finish (x : Exchange) (outcome : Outcome)
  | send (target : τ) (x : Exchange) (next : Exchange → Outcome → Handling τ)
  | ask (tracer : TracerRef) (command : Command) (next : Except Stop Reply → Handling τ)
  | look (node : Node) (next : Option String → Handling τ)

/-- One step of a leaf. It has no target. -/
def Step := Exchange → Handling Empty

namespace Step

/-- Changes the exchange; may refuse it as well. -/
def edit (change : Exchange → Exchange × Outcome) : Step :=
  fun x => .finish (change x).1 (change x).2

def setHeader (key : String) (value : Json) : Step := edit fun x => (x.setHeader key value, .ok ())

def removeHeader (key : String) : Step := edit fun x => (x.removeHeader key, .ok ())

def setBody (body : Body) : Step := edit fun x => (x.setBody body, .ok ())

/-- Refuses every exchange. -/
def fail (f : Failure) : Step := edit fun x => (x, .error (.failed f))

/-- Refuses exchanges without a header. -/
def requireHeader (key : String) (f : Failure) : Step :=
  edit fun x => (x, if (x.header? key).isSome then .ok () else .error (.failed f))

/-- Asks something of a tracer, for its effect alone. -/
def operate (r : TracerRef) (c : Command) : Step := fun x => .ask r c fun
  | .error (.aborted a) => .finish x (.error (.aborted a))
  | _ => .finish x (.ok ())

end Step

/-- What an exchange goes through. -/
inductive Processor where
  /-- Steps one after the other, up to the first that does not succeed. -/
  | leaf (name : Option String) (steps : List Step)
  | pipeline (stages : List Processor)
  /-- A target behind an interceptor. -/
  | traced (interceptor : Interceptor) (target : Processor)
  /-- A target that is reached as a handler of exchanges decides. -/
  | handled (handler : Exchange → Handling Unit) (target : Processor)

instance : Inhabited Processor := ⟨.leaf none []⟩

/-- An exchange after its passage, and what the passage left behind. -/
structure Passage where
  engine : Engine
  exchange : Exchange
  outcome : Outcome

namespace Passage

/-- Goes on if all went well so far. -/
def andThen (p : Passage) (next : Engine → Exchange → Passage) : Passage :=
  match p.outcome with
  | .ok () => next p.engine p.exchange
  | .error _ => p

end Passage

/-- The header that tags are added to. -/
def trailKey : String := "trail"

namespace Exchange

/-- The tags so far; a trail that is no text counts as none. -/
def trail (x : Exchange) : String :=
  match x.header? trailKey with
  | some (.string s) => s
  | _ => ""

/-- Adds a tag to the trail. -/
def addTag (x : Exchange) (tag : String) : Exchange :=
  x.setHeader trailKey (.string (x.trail ++ tag))

end Exchange

namespace Handling

/-- Adds a tag to the trail on the way to the target. -/
def tag (tag : String) (x : Exchange) : Handling Unit := .send () (x.addTag tag) .finish

/-- What becomes of an exchange, given what the targets do. -/
def run {τ : Type} (target : τ → Engine → Exchange → Passage) (e : Engine) : Handling τ → Passage
  | .finish x outcome => ⟨e, x, outcome⟩
  | .send t x next =>
    let p := target t e x
    (next p.exchange p.outcome).run target p.engine
  | .ask r c next =>
    let (e, answer) := e.perform r c
    (next answer).run target e
  | .look n next => (next (n.id? e.ids)).run target e

end Handling

namespace Step

def run (e : Engine) (x : Exchange) (s : Step) : Passage := (s x).run Empty.elim e

theorem run_edit (e : Engine) (x : Exchange) (change : Exchange → Exchange × Outcome) :
    (edit change).run e x = ⟨e, (change x).1, (change x).2⟩ := rfl

/-- Steps one after the other. -/
def runAll (e : Engine) (x : Exchange) : List Step → Passage
  | [] => ⟨e, x, .ok ()⟩
  | s :: rest => (s.run e x).andThen fun e x => runAll e x rest

end Step

namespace Processor

mutual

/-- Sends an exchange through. -/
def process (e : Engine) (x : Exchange) : Processor → Passage
  | .leaf name steps => Step.runAll (e.visit name .called) x steps
  | .pipeline stages => processAll e x stages
  | .traced i target => target.process (e.enter i x) x
  | .handled handler target => (handler x).run (fun _ e x => target.process e x) e

/-- Sends an exchange through one stage after the other. -/
def processAll (e : Engine) (x : Exchange) : List Processor → Passage
  | [] => ⟨e, x, .ok ()⟩
  | p :: rest => (p.process e x).andThen fun e x => processAll e x rest

end

mutual

/-- Tears the processor down. -/
def stop (e : Engine) : Processor → Engine
  | .leaf name _ => e.visit name .stopped
  | .pipeline stages => stopAll e stages
  | .traced i target => target.stop (e.untrack i.tracer i.node)
  | .handled _ _ => e

/-- Tears processors down one after the other. -/
def stopAll (e : Engine) : List Processor → Engine
  | [] => e
  | p :: rest => stopAll (p.stop e) rest

end

/-- Sends fresh exchanges through, one after the other, whatever becomes of each; counts
those that did not get through. -/
def processEach (e : Engine) (p : Processor) : List Exchange → Engine × Nat
  | [] => (e, 0)
  | x :: rest =>
    let passage := p.process e x
    let (e, failed) := processEach passage.engine p rest
    (e, failed + if passage.outcome.isOk then 0 else 1)

/-- A target that is reached with a tag added to the trail. -/
def tagged (tag : String) (target : Processor) : Processor := .handled (Handling.tag tag) target

theorem process_tagged (e : Engine) (x : Exchange) (tag : String) (target : Processor) :
    (tagged tag target).process e x = target.process e (x.addTag tag) := rfl

/-- A summary of a pipeline for people. -/
def describePipeline (stages : List Processor) : String :=
  "Pipeline \x7b processors: " ++ toString stages.length ++ " \x7d"

end Processor

end TraceBacklog
