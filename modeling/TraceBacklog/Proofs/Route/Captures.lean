/-
# What a route records

A tracer in front of every output of a route records the states of an exchange as it
enters them. Where the processors act on the exchange alone these are the states that the
exchange has in runs without the tracer through the first processors of the route
(`Route.before`): the one that fails is still recorded, those behind it are not, and a
body without a text uses up a number without an event. Every event has a reading of the clock
of its own, so the time of a capture hangs on how many events there were before it
(`Route.textsBefore`).

The induction is over the outputs. It carries two engines, the one that traces and the one
of the run without a tracer, since the latter starts afresh for every output; what it says
of the captures so far is `Recorded`.

Key definitions: `Processor.ActsOnExchange`, `Route.before`, `Route.textsBefore`, `Recorded`.
Key theorems: `Processor.ActsOnExchange.process_alike`, `exists_recorded`,
`Engine.records_states_on_entry`.
-/
import TraceBacklog.Proofs.Backlog.History
import TraceBacklog.Proofs.Engine.Capture
import TraceBacklog.Proofs.Route.Build

namespace TraceBacklog

/-! ### Processors that act on the exchange alone -/

/-- Notes that a processor was visited. -/
def Action.IsVisit : Action → Prop
  | .visit _ _ => True
  | _ => False

/-- Does the processor leave tracers alone? That it was visited may be noted. -/
def Processor.ActsOnExchange (p : Processor) : Prop := p.Within Action.IsVisit

/-- What tracing uses is the same. -/
structure Engine.SameTracing (e e' : Engine) : Prop where
  tracers : e.tracers = e'.tracers
  ids : e.ids = e'.ids
  clock : e.clock = e'.clock

theorem Engine.sameTracing_actAll {e : Engine} {actions : List Action}
    (h : ∀ a ∈ actions, a.IsVisit) : e.SameTracing (e.actAll actions) := by
  induction actions generalizing e with
  | nil => exact ⟨rfl, rfl, rfl⟩
  | cons a rest ih =>
    have hrest := ih (e := e.act a) fun a ha => h a (List.mem_cons_of_mem _ ha)
    have ha := h a List.mem_cons_self
    cases a with
    | visit name kind =>
      cases name with
      | none => exact hrest
      | some name => exact ⟨hrest.tracers, hrest.ids, hrest.clock⟩
    | _ => exact ha.elim

namespace Processor

variable {p : Processor}

theorem ActsOnExchange.sameTracing (h : p.ActsOnExchange) (e : Engine) (x : Exchange) :
    e.SameTracing (p.process e x).engine := by
  rw [engine_process]
  exact Engine.sameTracing_actAll (within_actions e x h)

/-- What becomes of the exchange does not hang on the engine. -/
theorem ActsOnExchange.process_alike (h : p.ActsOnExchange) (e e' : Engine) (x : Exchange) :
    (p.process e x).exchange = (p.process e' x).exchange ∧
      (p.process e x).outcome = (p.process e' x).outcome := by
  have hrespects : Respects View.given (fun _ _ => True) Action.IsVisit :=
    ⟨fun _ _ => trivial, fun hvisit => hvisit.elim, fun hvisit => hvisit.elim⟩
  have hblind : p.GoesBy View.given :=
    Within.goesBy (Handling.Within.goesBy (fun _ _ => id) (fun _ => id) View.given) h
  have hrelated : (p.process e x).Related (fun _ _ => True) (p.process e' x) :=
    process_related hrespects trivial x h hblind
  exact ⟨hrelated.exchange, hrelated.outcome⟩

end Processor

/-! ### Many captures of one tracer -/

theorem Tracer.traceCounter_foldl_absorb (t : Tracer) (captures : List Capture) :
    (captures.foldl absorb t).traceCounter =
      t.traceCounter + UInt64.ofNat captures.length := by
  induction captures generalizing t with
  | nil => exact (UInt64.add_zero _).symm
  | cons c rest ih =>
    rw [List.foldl_cons, ih, traceCounter_absorb, List.length_cons, UInt64.ofNat_add,
      UInt64.add_assoc, UInt64.add_comm 1]
    rfl

theorem Tracer.backlog_foldl_absorb (t : Tracer) (captures : List Capture) :
    (captures.foldl absorb t).backlog =
      (t.backlog.pushAll (captures.filterMap Capture.event?)).1 := by
  induction captures generalizing t with
  | nil => rfl
  | cons c rest ih =>
    rw [List.foldl_cons, ih, backlog_absorb, ← Backlog.pushAll_append]
    cases hc : c.event? with
    | some event => rw [List.filterMap_cons_some hc]; rfl
    | none => rw [List.filterMap_cons_none hc]; rfl

section Keeps

variable {α : Type} (keep : Tracer → α)
  (hcounter : ∀ (t : Tracer) (n : UInt64), keep { t with traceCounter := n } = keep t)
  (hbacklog : ∀ (t : Tracer) (b : Backlog), keep { t with backlog := b } = keep t)
  (hfailures : ∀ (t : Tracer) (n : UInt64), keep { t with captureFailures := n } = keep t)

include hcounter hbacklog hfailures

theorem Tracer.keep_absorb (t : Tracer) (c : Capture) : keep (t.absorb c) = keep t := by
  unfold absorb
  split
  · exact (hbacklog t.nextCapture _).trans (hcounter t _)
  · exact (keep_lose keep hfailures _).trans (hcounter t _)

/-- Captures change counters and the backlog alone. -/
theorem Tracer.keep_foldl_absorb (t : Tracer) (captures : List Capture) :
    keep (captures.foldl absorb t) = keep t := by
  induction captures generalizing t with
  | nil => rfl
  | cons c rest ih => exact (ih _).trans (keep_absorb keep hcounter hbacklog hfailures t c)

end Keeps

/-! ### The outputs of a route -/

/-- The exchange after the processors of the first `i` outputs. -/
def Route.before (e : Engine) (x : Exchange) (outputs : List Output) (i : ℕ) : Passage :=
  Processor.processAll e x ((outputs.take i).map (·.processor))

namespace Route

theorem before_zero (e : Engine) (x : Exchange) (outputs : List Output) :
    before e x outputs 0 = ⟨e, x, .ok ()⟩ := by
  rw [before, List.take_zero]
  rfl

theorem before_succ (e : Engine) (x : Exchange) (o : Output) (rest : List Output) (i : ℕ) :
    before e x (o :: rest) (i + 1) =
      (o.processor.process e x).andThen fun e x => before e x rest i := rfl

/-- How many of the exchanges that enter the first `i` outputs have a body with a text. -/
def textsBefore (e : Engine) (x : Exchange) (outputs : List Output) (i : ℕ) : ℕ :=
  (List.range i).countP fun k => (before e x outputs k).exchange.body.text?.isOk

theorem textsBefore_one (e : Engine) (x : Exchange) (outputs : List Output) :
    textsBefore e x outputs 1 = if x.body.text?.isOk then 1 else 0 := by
  rw [textsBefore, List.range_one, List.countP_singleton, before_zero]

/-- To what the first output has comes what the others have. -/
theorem textsBefore_succ {e e' : Engine} {x x' : Exchange} {o : Output} {rest : List Output}
    (h : ∀ i, before e x (o :: rest) (i + 1) = before e' x' rest i) (i : ℕ) :
    textsBefore e x (o :: rest) (i + 1) =
      (if x.body.text?.isOk then 1 else 0) + textsBefore e' x' rest i := by
  have hrest : ((fun k => (before e x (o :: rest) k).exchange.body.text?.isOk) ∘ Nat.succ) =
      fun k => (before e' x' rest k).exchange.body.text?.isOk :=
    funext fun k => by rw [Function.comp, h]
  rw [textsBefore, List.range_succ_eq_map, List.countP_cons, List.countP_map, hrest, before_zero,
    Nat.add_comm]
  rfl

end Route

/-- What is known of the captures that a tracer made in front of some outputs, one after the
other from the first: `c` is the engine before them and `after` the one behind, `d` is an
engine for runs without the tracer. -/
structure Recorded (route : Route) (r : TracerRef) (c d after : Engine) (x : Exchange)
    (outputs : List Output) (captures : List Capture) : Prop where
  tracer : after.tracer r = captures.foldl Tracer.absorb (c.tracer r)
  clock : after.clock = c.clock.after (Route.textsBefore d x outputs captures.length)
  keepsIds : ∀ (n : Node) id, n.id? c.ids = some id → n.id? after.ids = some id
  length_le : captures.length ≤ outputs.length
  reached : ∀ i < captures.length, (Route.before d x outputs i).outcome = .ok ()
  stopped : captures.length < outputs.length →
    (Route.before d x outputs captures.length).outcome ≠ .ok ()
  states : ∀ i capture, captures[i]? = some capture → ∃ o, outputs[i]? = some o ∧
    o.node.id? after.ids = some capture.toNode ∧
    capture.interceptor = Engine.interceptor r (some route) o.node ∧
    capture.traceId = (c.tracer r).traceCounter + UInt64.ofNat (i + 1) ∧
    capture.time = c.clock.reading (Route.textsBefore d x outputs i) ∧
    capture.message = Snapshot.capture (Route.before d x outputs i).exchange capture.toNode
      (c.tracer r).bodyMaxChars.toNat

/-- One output behind its tracer: the tracer has the state of the exchange on entry, and the
exchange comes out as it does without the tracer. -/
structure RecordedOne (r : TracerRef) (c : Engine) (x : Exchange) (capture : Capture) (n : Node)
    (traced bare : Passage) : Prop where
  tracer : traced.engine.tracer r = (c.tracer r).absorb capture
  enabled : (traced.engine.tracer r).enabled = (c.tracer r).enabled
  limit : (traced.engine.tracer r).bodyMaxChars = (c.tracer r).bodyMaxChars
  clock : traced.engine.clock = c.clock.after (if x.body.text?.isOk then 1 else 0)
  keepsIds : ∀ (n : Node) id, n.id? c.ids = some id → n.id? traced.engine.ids = some id
  named : n.id? traced.engine.ids = some capture.toNode
  exchange : traced.exchange = bare.exchange
  outcome : traced.outcome = bare.outcome

theorem recordedOne (route : Route) (r : TracerRef) {o : Output}
    (ho : o.processor.ActsOnExchange) {c : Engine} (henabled : (c.tracer r).enabled = true)
    (d : Engine) (x : Exchange) :
    RecordedOne r c x (c.captureOf (Engine.interceptor r (some route) o.node) x) o.node
      ((Processor.traced (Engine.interceptor r (some route) o.node) o.processor).process c x)
      (o.processor.process d x) := by
  let i := Engine.interceptor r (some route) o.node
  have hr : i.tracer.index < c.tracers.length := Engine.lt_length_of_enabled henabled
  have htraced : (Processor.traced i o.processor).process c x =
      o.processor.process (c.capture i x) x := by
    rw [Processor.process, Engine.enter_of_enabled henabled]
  have hsame := ho.sameTracing (c.capture i x) x
  have htracer := Engine.tracer_congr hsame.tracers.symm r
  obtain ⟨hexchange, houtcome⟩ := ho.process_alike (c.capture i x) d x
  show RecordedOne r c x (c.captureOf i x) o.node ((Processor.traced i o.processor).process c x) _
  rw [htraced]
  refine ⟨?_, ?_, ?_, ?_, fun n id h => ?_, ?_, hexchange, houtcome⟩
  · exact htracer.trans (Engine.tracer_capture_self rfl hr x)
  · rw [htracer]
    exact Engine.tracer_capture_keeps (·.enabled) (fun _ _ => rfl) (fun _ _ => rfl)
      (fun _ _ => rfl) ..
  · rw [htracer]
    exact Engine.tracer_capture_keeps (·.bodyMaxChars) (fun _ _ => rfl) (fun _ _ => rfl)
      (fun _ _ => rfl) ..
  · rw [← hsame.clock, Engine.clock_capture]
  · rw [← hsame.ids]
    exact Engine.id?_capture_of_some h i x
  · rw [← hsame.ids]
    exact c.id?_capture_self i x

/-- The first of some outputs lets the exchange through: to its capture come those of the
others. -/
theorem Recorded.cons {route : Route} {r : TracerRef} {c d after : Engine} {x : Exchange}
    {o : Output} {rest : List Output} {captures : List Capture} {traced : Passage}
    (hone : RecordedOne r c x (c.captureOf (Engine.interceptor r (some route) o.node) x) o.node
      traced (o.processor.process d x))
    (hok : traced.outcome = .ok ())
    (hrest : Recorded route r traced.engine (o.processor.process d x).engine after
      traced.exchange rest captures) :
    Recorded route r c d after x (o :: rest)
      (c.captureOf (Engine.interceptor r (some route) o.node) x :: captures) := by
  have hbefore (i : ℕ) : Route.before d x (o :: rest) (i + 1) =
      Route.before (o.processor.process d x).engine traced.exchange rest i := by
    rw [Route.before_succ, Passage.andThen_of_ok (hone.outcome ▸ hok), hone.exchange]
  refine ⟨?_, ?_, fun n id h => hrest.keepsIds n id (hone.keepsIds n id h),
    Nat.succ_le_succ hrest.length_le, fun i hi => ?_, fun hlt => ?_, fun i capture h => ?_⟩
  · rw [hrest.tracer, hone.tracer, List.foldl_cons]
  · rw [hrest.clock, hone.clock, Clock.after_after, List.length_cons,
      Route.textsBefore_succ hbefore]
  · cases i with
    | zero => rw [Route.before_zero]
    | succ i =>
      rw [hbefore]
      exact hrest.reached i (Nat.lt_of_succ_lt_succ hi)
  · rw [List.length_cons, hbefore]
    exact hrest.stopped (Nat.lt_of_succ_lt_succ hlt)
  · cases i with
    | zero =>
      cases h
      refine ⟨o, rfl, hrest.keepsIds _ _ hone.named, rfl, rfl, rfl, ?_⟩
      rw [Route.before_zero]
      rfl
    | succ i =>
      obtain ⟨o', ho', hnamed, hinterceptor, hid, htime, hmessage⟩ := hrest.states i capture h
      refine ⟨o', ho', hnamed, hinterceptor, ?_, ?_, ?_⟩
      · rw [hid, hone.tracer, Tracer.traceCounter_absorb, UInt64.add_assoc, UInt64.add_comm 1,
          ← UInt64.ofNat_one, ← UInt64.ofNat_add]
      · rw [htime, hone.clock, Clock.reading_after, Route.textsBefore_succ hbefore]
      · rw [hbefore, hmessage, hone.limit]

/-- A tracer that is enabled makes such captures, and no others. -/
theorem exists_recorded (route : Route) (r : TracerRef) {outputs : List Output}
    (hout : ∀ o ∈ outputs, o.processor.ActsOnExchange) {c : Engine}
    (henabled : (c.tracer r).enabled = true) (d : Engine) (x : Exchange) :
    ∃ captures, Recorded route r c d
      (Processor.processAll c x (outputs.map fun o =>
        .traced (Engine.interceptor r (some route) o.node) o.processor)).engine
      x outputs captures := by
  induction outputs generalizing c d x with
  | nil =>
    refine ⟨[], rfl, rfl, fun _ _ h => h, le_rfl, fun i hi => absurd hi (Nat.not_lt_zero i),
      fun h => absurd h (Nat.lt_irrefl 0), fun i capture h => ?_⟩
    cases h
  | cons o rest ih =>
    have hone := recordedOne route r (hout o List.mem_cons_self) henabled d x
    rw [List.map_cons, Processor.processAll]
    generalize (Processor.traced (Engine.interceptor r (some route) o.node)
      o.processor).process c x = traced at hone
    cases hresult : traced.outcome with
    | ok =>
      rw [Passage.andThen_of_ok hresult]
      obtain ⟨captures, hrest⟩ := ih (fun o' ho' => hout o' (List.mem_cons_of_mem _ ho'))
        (hone.enabled.trans henabled) (o.processor.process d x).engine traced.exchange
      exact ⟨_, hrest.cons hone hresult⟩
    | error stop =>
      -- The exchange ends here, after its capture.
      rw [Passage.andThen_of_error hresult]
      have hbare := hone.outcome.symm.trans hresult
      refine ⟨[c.captureOf (Engine.interceptor r (some route) o.node) x], hone.tracer, ?_,
        hone.keepsIds, ?_, fun i hi => ?_, fun _ => ?_, fun i capture h => ?_⟩
      · rw [hone.clock, List.length_singleton, Route.textsBefore_one]
      · exact Nat.succ_le_succ (Nat.zero_le _)
      · obtain rfl : i = 0 := Nat.lt_one_iff.mp hi
        rw [Route.before_zero]
      · rw [List.length_singleton, Route.before_succ, Passage.andThen_of_error hbare, hbare]
        exact fun h => by cases h
      · cases i with
        | zero =>
          cases h
          refine ⟨o, rfl, hone.named, rfl, rfl, rfl, ?_⟩
          rw [Route.before_zero]
          rfl
        | succ i => cases h

/-! ### Distinct outputs -/

/-- No two outputs share a node. Every route is so: an output is defined with a node of its
own, and a definition never gives a key twice (`NodeSpec.nodup_keys_defineAll`). -/
def Route.Distinct (route : Route) : Prop := (route.nodes.map (·.key)).Nodup

namespace NodeSpec

mutual

theorem lt_of_define (next : ℕ) : ∀ s : NodeSpec, next < (s.define next).2
  | ⟨label, id, children⟩ => by
    rw [define]
    exact le_of_defineAll (next + 1) children

theorem le_of_defineAll (next : ℕ) : ∀ specs : List NodeSpec, next ≤ (defineAll next specs).2
  | [] => le_rfl
  | s :: rest => by
    rw [defineAll]
    exact (lt_of_define next s).le.trans (le_of_defineAll _ rest)

end

theorem key_define (next : ℕ) (s : NodeSpec) : (s.define next).1.key = ⟨next⟩ := by
  cases s
  rw [define]

theorem le_key_of_mem_defineAll {next : ℕ} {specs : List NodeSpec} {n : Node}
    (h : n ∈ (defineAll next specs).1) : next ≤ n.key.index := by
  induction specs generalizing next with
  | nil => cases h
  | cons s rest ih =>
    rw [defineAll] at h
    rcases List.mem_cons.mp h with rfl | h
    · rw [key_define]
    · exact (lt_of_define next s).le.trans (ih h)

/-- Nodes that are defined together are distinct, so a route made of them is. -/
theorem nodup_keys_defineAll (next : ℕ) (specs : List NodeSpec) :
    ((defineAll next specs).1.map (·.key)).Nodup := by
  induction specs generalizing next with
  | nil => exact List.nodup_nil
  | cons s rest ih =>
    rw [defineAll, List.map_cons, List.nodup_cons]
    refine ⟨fun hmem => ?_, ih _⟩
    obtain ⟨n, hn, hkey⟩ := List.mem_map.mp hmem
    have hle := le_key_of_mem_defineAll hn
    rw [hkey, key_define] at hle
    exact absurd hle (Nat.not_le_of_lt (lt_of_define next s))

end NodeSpec

/-- Of distinct outputs only the one at the front is the first. -/
theorem Route.Distinct.isFirstOutput {route : Route} (h : route.Distinct) {i : ℕ} {o : Output}
    (ho : route.outputs[i]? = some o) : route.isFirstOutput o.node = decide (i = 0) := by
  obtain ⟨id, outputs⟩ := route
  cases outputs with
  | nil => cases ho
  | cons first rest =>
    cases i with
    | zero =>
      cases ho
      simp [Route.isFirstOutput]
    | succ i =>
      have hmem : o ∈ rest := List.mem_of_getElem? ho
      have hne : first.node.key ≠ o.node.key := by
        intro hkey
        have hfirst : first.node.key ∉ (rest.map (·.node)).map (·.key) :=
          (List.nodup_cons.mp h).1
        rw [hkey] at hfirst
        exact hfirst (List.mem_map_of_mem (List.mem_map_of_mem hmem))
      simp [Route.isFirstOutput, hne]

/-! ### The events of a route -/

/-- Reading a list by position is reading it. -/
theorem filterMap_range_of_getElem? {α β : Type} {l : List α} {f : ℕ → Option β}
    {g : α → Option β} (h : ∀ i a, l[i]? = some a → f i = g a) :
    (List.range l.length).filterMap f = l.filterMap g := by
  induction l generalizing f with
  | nil => rfl
  | cons a rest ih =>
    have hrest := ih (f := fun i => f (i + 1)) fun i a ha => h (i + 1) a ha
    rw [List.length_cons, List.range_succ_eq_map, List.filterMap_cons, List.filterMap_cons,
      h 0 a rfl, List.filterMap_map]
    cases g a with
    | none => exact hrest
    | some b => exact congrArg (b :: ·) hrest

/-- The event of the exchange that enters output number `i`, counted from 0, behind a tracer
that was `t` when the exchange was sent; there is none if the body has no text. -/
def Route.eventOnEntry (route : Route) (t : Tracer) (time : Timestamp) (i : ℕ) (toNode : String)
    (x : Exchange) : Option Event :=
  (Snapshot.capture x toNode t.bodyMaxChars.toNat).toOption.map fun message =>
    { traceId := t.traceCounter + UInt64.ofNat (i + 1), timestamp := time, routeId := route.id,
      toNode := toNode, firstInRoute := i = 0, message := message }

theorem Route.isSome_eventOnEntry (route : Route) (t : Tracer) (time : Timestamp) (i : ℕ)
    (toNode : String) (x : Exchange) :
    (route.eventOnEntry t time i toNode x).isSome ↔ x.body ≠ .opaqueValue := by
  rw [← Snapshot.capture_isOk_iff x toNode t.bodyMaxChars.toNat, eventOnEntry, Option.isSome_map]
  cases Snapshot.capture x toNode t.bodyMaxChars.toNat <;> rfl

namespace Recorded

variable {route : Route} {r : TracerRef} {c d after : Engine} {x : Exchange}
  {captures : List Capture}

/-- The id that capture number `i` shows. -/
def toNode (captures : List Capture) (i : ℕ) : String := (captures[i]?.map (·.toNode)).getD ""

theorem toNode_of_getElem? {i : ℕ} {capture : Capture} (h : captures[i]? = some capture) :
    toNode captures i = capture.toNode := by
  rw [toNode, h]
  rfl

/-- It is the id of the node from then on. -/
theorem id?_node (h : Recorded route r c d after x route.outputs captures) {i : ℕ}
    (hi : i < captures.length) :
    ∃ n, route.nodes[i]? = some n ∧ n.id? after.ids = some (toNode captures i) := by
  have hcapture := List.getElem?_eq_getElem hi
  obtain ⟨o, ho, hnamed, -⟩ := h.states i _ hcapture
  refine ⟨o.node, ?_, by rw [hnamed, toNode_of_getElem? hcapture]⟩
  rw [Route.nodes, List.getElem?_map, ho]
  rfl

/-- The events of the captures, output by output. -/
theorem events_eq (h : Recorded route r c d after x route.outputs captures)
    (hdistinct : route.Distinct) :
    captures.filterMap Capture.event? = (List.range captures.length).filterMap fun i =>
      route.eventOnEntry (c.tracer r) (c.clock.reading (Route.textsBefore d x route.outputs i)) i
        (toNode captures i) (Route.before d x route.outputs i).exchange := by
  refine (filterMap_range_of_getElem? fun i capture hcapture => ?_).symm
  obtain ⟨o, ho, -, hinterceptor, hid, htime, hmessage⟩ := h.states i capture hcapture
  have hfirst := hdistinct.isFirstOutput ho
  rw [toNode_of_getElem? hcapture, Capture.event?, Route.eventOnEntry, hmessage, hinterceptor,
    hid, htime]
  simp [Interceptor.event, Engine.interceptor, hfirst]

end Recorded

/-- **The events are the states on entry.** A route of processors that act on the exchange
alone is built with a tracer that is enabled when an exchange is sent. Let `m` be the number
of processors that the exchange reaches: those before each of them let it through, and if
there are more outputs the last one did not. Then `m` numbers are taken, and the events
stored are those of the exchange as it is after the processors before each output, in
order, each with its number, with the id of the node and with the id of the route, the
first one alone marked so. An exchange whose body has no text leaves out its event and
not its number. The clock is read once for each event: the time of an event is the reading
that comes after those of the events before it. -/
theorem Engine.records_states_on_entry {r : TracerRef} {route : Route} {e : Engine}
    {stages : List Processor} (hbuild : (e.build [.trace r] route).2 = .ok stages)
    (hdistinct : route.Distinct) (hroute : ∀ o ∈ route.outputs, o.processor.ActsOnExchange)
    {c : Engine} (henabled : (c.tracer r).enabled = true) (x : Exchange) :
    let t := c.tracer r
    let after := ((Processor.pipeline stages).process c x).engine
    let entering := Route.before c x route.outputs
    let time i := c.clock.reading (Route.textsBefore c x route.outputs i)
    ∃ (m : ℕ) (toNode : ℕ → String),
      (m ≤ route.outputs.length ∧ (∀ i < m, (entering i).outcome = .ok ()) ∧
        (m < route.outputs.length → (entering m).outcome ≠ .ok ())) ∧
      (∀ i < m, ∃ n, route.nodes[i]? = some n ∧ n.id? after.ids = some (toNode i)) ∧
      (after.tracer r).traceCounter = t.traceCounter + UInt64.ofNat m ∧
      (after.tracer r).backlog = (t.backlog.pushAll ((List.range m).filterMap fun i =>
        route.eventOnEntry t (time i) i (toNode i) (entering i).exchange)).1 ∧
      (∀ i < m, (route.eventOnEntry t (time i) i (toNode i) (entering i).exchange).isSome ↔
        (entering i).exchange.body ≠ .opaqueValue) ∧
      (t.traceCounter.toNat + m < UInt64.size → ∀ i ≤ m,
        (t.traceCounter + UInt64.ofNat i).toNat = t.traceCounter.toNat + i) := by
  intro t after entering time
  obtain ⟨captures, hrecorded⟩ := exists_recorded route r hroute henabled c x
  have h : Recorded route r c c after x route.outputs captures := by
    show Recorded route r c c ((Processor.pipeline stages).process c x).engine x _ captures
    rw [eq_stages_of_build (by simp) hbuild, Processor.process]
    exact hrecorded
  refine ⟨captures.length, Recorded.toNode captures, ⟨h.length_le, h.reached, h.stopped⟩,
    fun i hi => h.id?_node hi, ?_, ?_, fun i _ => Route.isSome_eventOnEntry .., fun hfew i hi => ?_⟩
  · rw [h.tracer, Tracer.traceCounter_foldl_absorb]
  · rw [h.tracer, Tracer.backlog_foldl_absorb, h.events_eq hdistinct]
  · rw [UInt64.toNat_add, UInt64.toNat_ofNat_of_lt' (by omega)]
    exact Nat.mod_eq_of_lt (show _ < UInt64.size by omega)

/-- The first processor leaves a body without a text and the second one fails: two numbers
are taken, whatever exchange is sent, and the third node is not reached. -/
theorem Engine.records_states_on_entry_opaque :
    let c := (((initial .epoch).newFactory .fresh).1.newTracer
      { Config.default with enabled := true } (some ⟨0⟩)).1
    let specs : List NodeSpec := [⟨"to", none, []⟩, ⟨"to", none, []⟩, ⟨"log", none, []⟩]
    let steps : List Step := [.setBody .opaqueValue, .fail (.processingFailed "to2" "refused"),
      .setBody .empty]
    let route : Route := ⟨some "orders", ((NodeSpec.defineAll 0 specs).1.zip steps).map
      fun (n, step) => ⟨n, .leaf none [step]⟩⟩
    (c.build [.trace ⟨0⟩] route).2 = .ok (route.stages [.trace ⟨0⟩]) ∧ route.Distinct ∧
    (∀ o ∈ route.outputs, o.processor.ActsOnExchange) ∧ (c.tracer ⟨0⟩).enabled = true ∧
    ∀ x, (((Processor.pipeline (route.stages [.trace ⟨0⟩])).process c x).engine.tracer
      ⟨0⟩).traceCounter = 2 := by
  intro c specs steps route
  have hbuild : (c.build [.trace ⟨0⟩] route).2 = .ok (route.stages [.trace ⟨0⟩]) :=
    snd_build_eq_stages (by simp) rfl
  have hdistinct : route.Distinct := NodeSpec.nodup_keys_defineAll 0 specs
  have hroute : ∀ o ∈ route.outputs, o.processor.ActsOnExchange := by
    simp [route, specs, steps, NodeSpec.defineAll, NodeSpec.define, Processor.ActsOnExchange,
      Processor.Within, Step.setBody, Step.fail, Action.IsVisit]
  have henabled : (c.tracer ⟨0⟩).enabled = true := rfl
  refine ⟨hbuild, hdistinct, hroute, henabled, fun x => ?_⟩
  obtain ⟨m, -, ⟨hle, hreached, hstopped⟩, -, hcounter, -⟩ :=
    records_states_on_entry hbuild hdistinct hroute henabled x
  have hsecond : (Route.before c x route.outputs 2).outcome ≠ .ok () := fun h => by cases h
  have hm : m = 2 := by
    have hlt : ¬ 2 < m := fun h => hsecond (hreached 2 h)
    have hmore : ∀ i < 2, m ≠ i := by
      rintro i hi rfl
      refine hstopped (hi.trans (Nat.lt_add_one 2)) ?_
      rcases Nat.lt_succ_iff_lt_or_eq.mp hi with hi | rfl
      · rw [Nat.lt_one_iff.mp hi]
        rfl
      · rfl
    have := hmore 0
    have := hmore 1
    omega
  rw [hcounter, hm]
  rfl

end TraceBacklog
