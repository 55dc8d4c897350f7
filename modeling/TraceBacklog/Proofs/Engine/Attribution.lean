/-
# Whose events they are

Whatever is done to the backlog of a tracer is a command to it, and which commands an action
is made of can be told from the engine before the action (`Action.backlogCommands`,
`Engine.backlog_act`). So a backlog of an engine has a history as a backlog by itself has:
what ever left it and what it holds now are what it held at first and what arrived
(`Engine.departed_append_events`). An event arrives from an interceptor, or because somebody
puts it into the backlog.

When the event of a capture arrives, the node of the interceptor has the id that the event
names, even if it has it from this very capture. Ids stay, so this is true at any later time
(`Arrival.Attributed`), wherever the event is by then.

Key definitions: `Action.backlogCommands`, `Arrival`, `Engine.arrivals`, `Engine.departed`,
`Arrival.Attributed`.
Key theorems: `Engine.backlog_act`, `Engine.departed_append_events`,
`Engine.attributed_arrivals`, `Engine.events_stay_attributed`.
-/
import TraceBacklog.Proofs.Backlog.History
import TraceBacklog.Proofs.Engine.Requests

namespace TraceBacklog

/-! ### What is asked of a backlog -/

/-- What a command to a tracer asks of its backlog. -/
def Command.backlogCommands : Command → List Backlog.Command
  | .dumpAll => [.drain]
  | .stop => [.clear]
  | .shutDown => [.clear]
  | .backlog c => [c]
  | _ => []

/-- What an action asks of the backlog of a tracer. -/
def Action.backlogCommands (r : TracerRef) (e : Engine) : Action → List Backlog.Command
  | .enter i x =>
    if i.store = r ∧ (e.tracer i.tracer).enabled = true then
      (e.captureOf i x).event?.toList.map .push
    else []
  | .perform s c =>
    if s = r ∧ (c.needsLive && (e.tracer s).isShutDown) = false then c.backlogCommands else []
  | _ => []

/-- Pushes one by one are a push of all. -/
theorem Backlog.run_map_push (b : Backlog) (events : List Event) :
    (b.run (events.map .push)).1 = (b.pushAll events).1 := by
  induction events generalizing b with
  | nil => rfl
  | cons event rest ih => exact ih _

theorem Tracer.backlog_obey (t : Tracer) (c : Command) : (t.obey c).backlog =
    (t.backlog.run (if (c.needsLive && t.isShutDown) = false then c.backlogCommands else [])).1 := by
  unfold obey
  cases c.needsLive && t.isShutDown with
  | true => rfl
  | false =>
    rw [if_pos rfl, if_neg Bool.false_ne_true]
    cases c with
    | setBacklogSize size =>
      rw [apply]
      split <;> rfl
    | _ => rfl

namespace Engine

/-- A capture asks the backlog of the store for room for its event. -/
theorem backlog_capture {e : Engine} {r : TracerRef} (hr : r.index < e.tracers.length)
    (i : Interceptor) (x : Exchange) : ((e.capture i x).tracer r).backlog =
      if i.store = r then ((e.tracer r).backlog.pushAll (e.captureOf i x).event?.toList).1
      else (e.tracer r).backlog := by
  have htracers := e.tracers_capture i x
  have hnumbered : ((e.modifyTracer i.tracer (·.nextCapture)).tracer r).backlog =
      (e.tracer r).backlog := tracer_modifyTracer_keeps (·.backlog) e _ r fun _ => rfl
  cases hevent : (e.captureOf i x).event? with
  | none =>
    have hlost : ((e.modifyTracer i.tracer (·.nextCapture.lose)).tracer r).backlog =
        (e.tracer r).backlog := tracer_modifyTracer_keeps (·.backlog) e _ r fun t =>
      Tracer.keep_lose (·.backlog) (fun _ _ => rfl) t.nextCapture
    rw [hevent] at htracers
    rw [tracer_congr htracers, hlost]
    exact (ite_self _).symm
  | some event =>
    rw [hevent] at htracers
    rw [tracer_congr htracers]
    by_cases hstore : i.store = r
    · subst hstore
      rw [if_pos rfl, tracer_modifyTracer_self _ (by rwa [length_tracers_modifyTracer])]
      dsimp only
      rw [hnumbered]
      rfl
    · rw [if_neg hstore, tracer_modifyTracer_of_ne _ _ hstore, hnumbered]

/-- **An action does to a backlog what it asks of it.** -/
theorem backlog_act {e : Engine} {r : TracerRef} (hr : r.index < e.tracers.length) (a : Action) :
    ((e.act a).tracer r).backlog =
      ((e.tracer r).backlog.run (a.backlogCommands r e)).1 := by
  cases a with
  | enter i x =>
    rw [act, Action.backlogCommands]
    cases henabled : (e.tracer i.tracer).enabled with
    | false =>
      rw [enter_of_disabled henabled, if_neg fun h => Bool.noConfusion h.2]
      rfl
    | true =>
      rw [enter_of_enabled henabled, backlog_capture hr]
      by_cases hstore : i.store = r
      · rw [if_pos hstore, if_pos ⟨hstore, rfl⟩, Backlog.run_map_push]
      · rw [if_neg hstore, if_neg fun h => hstore h.1]
        rfl
  | perform s c =>
    rw [act, Action.backlogCommands]
    by_cases hs : s = r
    · subst hs
      rw [tracer_perform_self c hr, Tracer.backlog_obey]
      simp only [true_and]
    · rw [tracer_perform_of_ne e c hs, if_neg fun h => hs h.1]
      rfl
  | track s n => exact tracer_act_keeps (·.backlog) (fun _ _ => rfl) e (a := .track s n) trivial r
  | untrack s n =>
    exact tracer_act_keeps (·.backlog) (fun _ _ => rfl) e (a := .untrack s n) trivial r
  | newTracer c f => exact congrArg Tracer.backlog (tracer_newTracer_of_lt hr c f)
  | visit name kind => exact congrArg Tracer.backlog (tracer_congr (e.tracers_visit name kind) r)
  | _ => rfl

/-- A tracer that was not there before an action has traced nothing after it. -/
theorem tracer_act_of_length_le {e : Engine} {r : TracerRef} (hr : e.tracers.length ≤ r.index)
    (a : Action) : ∃ c capacity factory,
      (e.act a).tracer r = Tracer.fresh c (Backlog.ofCapacity capacity) factory := by
  have hmissing {e' : Engine} (h : e'.tracers.length ≤ r.index) : ∃ c capacity factory,
      e'.tracer r = Tracer.fresh c (Backlog.ofCapacity capacity) factory :=
    ⟨.default, 1, default, tracer_of_length_le h⟩
  cases a with
  | enter i x => exact hmissing ((e.length_tracers_enter i x).trans_le hr)
  | perform s c => exact hmissing ((e.length_tracers_perform s c).trans_le hr)
  | track s n =>
    refine hmissing ?_
    rwa [act, tracers_track, length_tracers_modifyTracer]
  | untrack s n => exact hmissing ((e.length_tracers_modifyTracer s _).trans_le hr)
  | visit name kind =>
    refine hmissing ?_
    rwa [act, tracers_visit]
  | newTracer c f =>
    rw [act]
    obtain ⟨stop, h⟩ | ⟨e', t, factory, ht, htracers, h⟩ := e.newTracer_cases c f
    · rw [h]
      exact hmissing hr
    · by_cases hlast : r.index = e.tracers.length
      · obtain rfl : r = ⟨e.tracers.length⟩ := congrArg TracerRef.mk hlast
        obtain ⟨-, factory, hfresh⟩ := tracer_of_newTracer_eq h
        rw [h]
        exact ⟨c, _, factory, hfresh⟩
      · rw [h]
        refine hmissing ?_
        rw [htracers, List.length_append, List.length_singleton]
        omega
  | _ => exact hmissing hr

/-! ### Arrivals and departures -/

/-- The turns of the backlog of a tracer in an action. -/
def turns (r : TracerRef) (e : Engine) (a : Action) : List Backlog.Turn :=
  if r.index < e.tracers.length then (e.tracer r).backlog.turns (a.backlogCommands r e) else []

theorem left_append_events_act (e : Engine) (r : TracerRef) (a : Action) :
    (e.turns r a).flatMap Backlog.Turn.left ++ ((e.act a).tracer r).backlog.events =
      (e.tracer r).backlog.events ++ (e.turns r a).flatMap Backlog.Turn.pushed := by
  unfold turns
  by_cases hr : r.index < e.tracers.length
  · rw [if_pos hr, backlog_act hr]
    exact Backlog.left_append_events_run _ _
  · have hlength := Nat.le_of_not_lt hr
    obtain ⟨c, capacity, factory, hfresh⟩ := tracer_act_of_length_le hlength a
    rw [if_neg hr, hfresh, tracer_of_length_le hlength]
    rfl

end Engine

/-- An event comes into a backlog, from an interceptor or from somebody else. -/
structure Arrival where
  interceptor : Option Interceptor
  event : Event

/-- The interceptor that an action is about. -/
def Action.interceptor? : Action → Option Interceptor
  | .enter i _ => some i
  | _ => none

namespace Engine

/-- What arrives at the backlog of a tracer in an action. -/
def arrivalsIn (r : TracerRef) (e : Engine) (a : Action) : List Arrival :=
  ((e.turns r a).flatMap Backlog.Turn.pushed).map fun event => ⟨a.interceptor?, event⟩

/-- What arrives at the backlog of a tracer, in this order. -/
def arrivals (r : TracerRef) (e : Engine) : List Action → List Arrival
  | [] => []
  | a :: rest => e.arrivalsIn r a ++ arrivals r (e.act a) rest

/-- What leaves the backlog of a tracer, evicted, drained or discarded, in this order. -/
def departed (r : TracerRef) (e : Engine) : List Action → List Event
  | [] => []
  | a :: rest => (e.turns r a).flatMap Backlog.Turn.left ++ departed r (e.act a) rest

theorem arrivals_append (r : TracerRef) (e : Engine) (first rest : List Action) :
    e.arrivals r (first ++ rest) = e.arrivals r first ++ (e.actAll first).arrivals r rest := by
  induction first generalizing e with
  | nil => rfl
  | cons a first ih =>
    rw [List.cons_append, arrivals, arrivals, ih, actAll_cons, List.append_assoc]

theorem map_event_arrivalsIn (r : TracerRef) (e : Engine) (a : Action) :
    (e.arrivalsIn r a).map (·.event) = (e.turns r a).flatMap Backlog.Turn.pushed := by
  rw [arrivalsIn, List.map_map]
  exact List.map_id _

/-- **Nothing gets lost on the way.** What left a backlog and what it holds is what it held at
first and what arrived. -/
theorem departed_append_events (r : TracerRef) (e : Engine) (actions : List Action) :
    e.departed r actions ++ ((e.actAll actions).tracer r).backlog.events =
      (e.tracer r).backlog.events ++ (e.arrivals r actions).map (·.event) := by
  induction actions generalizing e with
  | nil => exact (List.append_nil _).symm
  | cons a rest ih =>
    have hact := e.left_append_events_act r a
    rw [departed, actAll_cons, List.append_assoc, ih, ← List.append_assoc, hact, arrivals,
      List.map_append, map_event_arrivalsIn, List.append_assoc]

/-- The arrival of a capture is its event, if there is one. -/
theorem arrivalsIn_enter {e : Engine} {i : Interceptor}
    (henabled : (e.tracer i.tracer).enabled = true) (hr : i.store.index < e.tracers.length)
    (x : Exchange) : e.arrivalsIn i.store (.enter i x) =
      (e.captureOf i x).event?.toList.map fun event => ⟨some i, event⟩ := by
  rw [arrivalsIn, turns, if_pos hr, Action.backlogCommands, if_pos ⟨rfl, henabled⟩]
  cases (e.captureOf i x).event? <;> rfl

end Engine

/-! ### Attribution -/

/-- If the event is from an interceptor, it names the id of its node and has its route and its
flag. -/
def Arrival.Attributed (t : IdTable) (a : Arrival) : Prop :=
  ∀ i, a.interceptor = some i → i.node.id? t = some a.event.toNode ∧
    a.event.routeId = i.routeId ∧ a.event.firstInRoute = i.firstInRoute

theorem Arrival.Attributed.keptBy {t t' : IdTable} {a : Arrival} (h : a.Attributed t)
    (hkept : t.KeptBy t') : a.Attributed t' := by
  intro i hi
  obtain ⟨hid, hroute, hfirst⟩ := h i hi
  exact ⟨hkept i.node _ hid, hroute, hfirst⟩

namespace Engine

/-- What arrives from an interceptor arrives by a capture. -/
theorem enter_of_arrivalsIn {e : Engine} {r : TracerRef} {a : Action} {arrival : Arrival}
    (h : arrival ∈ e.arrivalsIn r a) {i : Interceptor} (hi : arrival.interceptor = some i) :
    ∃ x, a = .enter i x ∧ i.store = r ∧ (e.tracer i.tracer).enabled = true ∧
      (e.captureOf i x).event? = some arrival.event := by
  obtain ⟨event, hevent, rfl⟩ := List.mem_map.mp h
  cases a with
  | enter i' x =>
    obtain rfl : i' = i := Option.some.inj hi
    by_cases hr : r.index < e.tracers.length
    · rw [turns, if_pos hr, Action.backlogCommands] at hevent
      by_cases hstore : i'.store = r ∧ (e.tracer i'.tracer).enabled = true
      · rw [if_pos hstore] at hevent
        cases hc : (e.captureOf i' x).event? with
        | none =>
          rw [hc] at hevent
          cases hevent
        | some captured =>
          rw [hc] at hevent
          obtain rfl : event = captured := List.mem_singleton.mp hevent
          exact ⟨x, rfl, hstore.1, hstore.2, hc⟩
      · rw [if_neg hstore] at hevent
        cases hevent
    · rw [turns, if_neg hr] at hevent
      cases hevent
  | _ => cases hi

/-- An event that arrives names the id that its node has from then on. -/
theorem attributed_arrivalsIn {e : Engine} {r : TracerRef} {a : Action} {arrival : Arrival}
    (h : arrival ∈ e.arrivalsIn r a) : arrival.Attributed (e.act a).ids := by
  intro i hi
  obtain ⟨x, rfl, -, henabled, hevent⟩ := enter_of_arrivalsIn h hi
  obtain ⟨message, -, hmade⟩ := Option.map_eq_some_iff.mp hevent
  have hid := e.id?_capture_self i x
  rw [act, enter_of_enabled henabled, hid, ← hmade]
  exact ⟨rfl, rfl, rfl⟩

/-- **Events stay attributed.** -/
theorem attributed_arrivals {e : Engine} {r : TracerRef} {actions : List Action}
    {arrival : Arrival} (h : arrival ∈ e.arrivals r actions) :
    arrival.Attributed (e.actAll actions).ids := by
  induction actions generalizing e with
  | nil => cases h
  | cons a rest ih =>
    rw [actAll_cons]
    rcases List.mem_append.mp h with h | h
    · exact (attributed_arrivalsIn h).keptBy ((e.act a).keptBy_actAll rest)
    · exact ih h

theorem keptBy_later {e : Engine} {earlier later : List Action} (h : earlier <+: later) :
    (e.actAll earlier).ids.KeptBy (e.actAll later).ids := by
  obtain ⟨rest, rfl⟩ := h
  rw [actAll_append]
  exact (e.actAll earlier).keptBy_actAll rest

/-- **Ids are written once and events stay attributed to their nodes.** In any run from any
engine, at any moment in the middle of an operation as well: an id that a node has it has at
any later moment; a node that was defined with an id has this id and is in no request to a
factory, and factories are as the requests left them; what ever left the backlog of a tracer,
evicted, drained or discarded, and what it holds are what it held at first and what arrived;
a capture that stores an event is an arrival from its interceptor; and an event that arrived
from an interceptor names the id that the node of the interceptor has at any later moment,
and has its route and its flag. -/
theorem events_stay_attributed (start : Engine) (ops : List Operation) :
    let actions := start.actionsAll ops
    start.operateAll ops = start.actAll actions ∧
    (∀ earlier later, earlier <+: later → later <+: actions → ∀ (n : Node) id,
      n.id? (start.actAll earlier).ids = some id → n.id? (start.actAll later).ids = some id) ∧
    (∀ (n : Node) given, n.givenId = some given →
      (∀ moment, moment <+: actions → n.id? (start.actAll moment).ids = some given) ∧
      ∀ request ∈ start.requests actions, request.node ≠ some n) ∧
    (∀ before during, before ++ during <+: actions → ∀ f,
      f.index < (start.actAll before).factories.length →
      (start.actAll (before ++ during)).factory f = ((start.actAll before).factory f).serve
        (labelsFor f ((start.actAll before).requests during))) ∧
    ∀ r moment, moment <+: actions →
      start.departed r moment ++ ((start.actAll moment).tracer r).backlog.events =
        (start.tracer r).backlog.events ++ (start.arrivals r moment).map (·.event) ∧
      (∀ before i x, before ++ [.enter i x] = moment → i.store = r →
        r.index < (start.actAll before).tracers.length →
        ((start.actAll before).tracer i.tracer).enabled = true →
        start.arrivals r moment = start.arrivals r before ++
          ((start.actAll before).captureOf i x).event?.toList.map fun event => ⟨some i, event⟩) ∧
      ∀ later, moment <+: later → later <+: actions →
        ∀ arrival ∈ start.arrivals r moment, ∀ i, arrival.interceptor = some i →
          i.node.id? (start.actAll later).ids = some arrival.event.toNode ∧
          arrival.event.routeId = i.routeId ∧ arrival.event.firstInRoute = i.firstInRoute := by
  intro actions
  refine ⟨start.operateAll_eq_actAll ops, fun earlier later h _ n id => keptBy_later h n id,
    fun n given hgiven => ⟨fun moment _ => ?_, fun request hrequest hn => ?_⟩,
    fun before during _ f hf => ?_,
    fun r moment _ => ⟨start.departed_append_events r moment, ?_, ?_⟩⟩
  · rw [Node.id?, hgiven]
  · have hnone := givenId_of_requests hrequest hn
    rw [hgiven] at hnone
    cases hnone
  · rw [actAll_append]
    exact factory_actAll hf during
  · rintro before i x rfl rfl hr henabled
    have hlast : (start.actAll before).arrivals i.store [.enter i x] =
        (start.actAll before).arrivalsIn i.store (.enter i x) := List.append_nil _
    rw [arrivals_append, hlast, arrivalsIn_enter henabled hr]
  · intro later hlater _ arrival harrival
    exact (attributed_arrivals harrival).keptBy (keptBy_later hlater)

namespace Shared

def node : Node := ⟨⟨0⟩, "to", none, []⟩

/-- Two tracers with factories of their own; the first one is enabled. -/
def made : Engine :=
  let e := ((initial .epoch).newFactory .fresh).1
  let e := (e.newFactory (.leading "N-")).1
  let e := (e.newTracer { Config.default with enabled := true } (some ⟨0⟩)).1
  (e.newTracer .default (some ⟨1⟩)).1

/-- The first tracer captures at the node, then the second one would name it. -/
def run : List Operation := [
  .process (.traced (interceptor ⟨0⟩ none node) (.leaf none [])) (.new "X1" .empty),
  .act (.perform ⟨0⟩ .dumpAll),
  .act (.track ⟨1⟩ node),
  .act (.perform ⟨1⟩ (.setEnabled true))]

end Shared

/-- The event was drained before the second tracer was enabled, and the node still has the id
that it names. -/
theorem events_stay_attributed_shared :
    let actions := Shared.made.actionsAll Shared.run
    (Shared.made.departed ⟨0⟩ actions).map (·.toNode) = ["to1"] ∧
    (Shared.made.arrivals ⟨0⟩ actions).map (·.interceptor.map (·.node.key)) = [some ⟨0⟩] ∧
    Shared.node.id? (Shared.made.actAll actions).ids = some "to1" := by
  intro actions
  have hdeparted : (Shared.made.departed ⟨0⟩ actions).map (·.toNode) = ["to1"] := by decide +kernel
  obtain ⟨arrival, harrival, hi, hnode⟩ : ∃ arrival ∈ Shared.made.arrivals ⟨0⟩ actions,
      arrival.interceptor = some (interceptor ⟨0⟩ none Shared.node) ∧
        arrival.event.toNode = "to1" :=
    ⟨_, List.mem_cons_self, rfl, by decide +kernel⟩
  obtain ⟨-, -, -, -, hheld⟩ := events_stay_attributed Shared.made Shared.run
  obtain ⟨-, -, hattributed⟩ := hheld ⟨0⟩ actions List.prefix_rfl
  obtain ⟨hid, -, -⟩ := hattributed actions List.prefix_rfl List.prefix_rfl arrival harrival _ hi
  refine ⟨hdeparted, by decide +kernel, ?_⟩
  rwa [hnode] at hid

end Engine

end TraceBacklog
