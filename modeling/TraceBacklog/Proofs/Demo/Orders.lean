/-
# The events of the orders

Every order of the demo goes through all three nodes, and the tracer records it at each of them:
as it was sent, checked, and with its priority. So a worker that is alone leaves three events for
each order, and event number `q`, counted from 0, can be written down from `q` alone
(`Demo.event`): it belongs to order `q / 3` and to node `q % 3`, and its time is reading number `q`
of the clock.

What holds between two orders is `Demo.Ready`. What one order adds is read off the captures of
the route (`exists_recorded`), and the run is an induction on the number of orders.

Key definitions: `Demo.event`, `Demo.Ready`, `Demo.Sent`.
Key theorems: `Demo.Ready.send`, `Demo.Ready.sendAll`.
-/
import TraceBacklog.Demo
import TraceBacklog.Proofs.KeyMap
import TraceBacklog.Proofs.Route.Captures

namespace TraceBacklog

namespace Demo

/-! ### What an event says -/

/-- The ids of the nodes. -/
def names : List String := ["validate", "enrich1", "to1"]

/-- How the body of order `k` is written. -/
def body (k : ℕ) : String :=
  "\x7b\"order\":" ++ toString k ++ ",\"qty\":" ++ toString (k % 5 + 1) ++ "\x7d"

/-- The headers of order `k` as it enters node number `j`. -/
def headers (k j : ℕ) : KeyMap String HeaderSnapshot :=
  .ofList ([("orderId", ⟨"string", "ORD-" ++ String.ofList (padded 4 k)⟩),
      ("worker", ⟨"number", "0"⟩)] ++
    if j = 2 then [("priority", ⟨"string", "normal"⟩)] else [])

/-- Event number `q` of a worker that is alone. -/
def event (limit : ℕ) (clock : Clock) (id : ℕ → String) (q : ℕ) : Event where
  traceId := UInt64.ofNat (q + 1)
  timestamp := clock.reading q
  routeId := some "orders"
  toNode := names.getD (q % 3) ""
  firstInRoute := q % 3 = 0
  message := {
    exchangeId := id (q / 3)
    headers := headers (q / 3) (q % 3)
    bodyType := "json"
    body := some (clip limit (body (q / 3))) }

/-! ### The exchanges of orders -/

theorem compact_order (k m : ℕ) : Json.compact (.object [("order", .nat k), ("qty", .nat m)]) =
    "\x7b\"order\":" ++ toString k ++ ",\"qty\":" ++ toString m ++ "\x7d" := by
  have hnat (n : ℕ) : (Json.nat n).chars = (toString n).toList := rfl
  have horder : Json.stringChars "order" = "\"order\"".toList := rfl
  have hqty : Json.stringChars "qty" = "\"qty\"".toList := rfl
  apply String.toList_inj.mp
  rw [Json.compact, String.toList_ofList, Json.chars, Json.fieldChars, Json.moreFieldChars,
    Json.moreFieldChars, horder, hqty, hnat, hnat]
  simp

/-- The body of an order in a snapshot. -/
theorem text?_order (id : String) (k : ℕ) : (order id 0 k).body.text? = .ok (some (body k)) :=
  congrArg (fun text => Except.ok (some text)) (compact_order k (k % 5 + 1))

theorem isSome_header?_order (id : String) (k : ℕ) :
    ((order id 0 k).header? "orderId").isSome = true := by
  simp [order, Exchange.header?, Exchange.setHeader, KeyMap.get?_insert]

/-- An order as it enters node number `j`. -/
def entering (id : String) (k j : ℕ) : Exchange :=
  if j = 2 then (order id 0 k).setHeader "priority" (.string "normal") else order id 0 k

theorem body_entering (id : String) (k j : ℕ) :
    (entering id k j).body = (order id 0 k).body := by
  rw [entering]
  split <;> rfl

theorem headers_entering (id : String) (k j : ℕ) :
    (entering id k j).headers.map HeaderSnapshot.ofJson = headers k j := by
  have hid : String.ofList ("ORD-".toList ++ padded 4 k) =
      "ORD-" ++ String.ofList (padded 4 k) := by
    rw [String.ofList_append, String.ofList_toList]
  have horder : (order id 0 k).headers.map HeaderSnapshot.ofJson =
      (KeyMap.empty.insert "orderId" ⟨"string", "ORD-" ++ String.ofList (padded 4 k)⟩).insert
        "worker" ⟨"number", "0"⟩ := by
    rw [order, Exchange.setHeader, Exchange.setHeader, KeyMap.map_insert, KeyMap.map_insert, hid]
    rfl
  rw [entering, headers]
  split
  · rw [Exchange.setHeader, KeyMap.map_insert, horder]
    rfl
  · exact horder

/-- The snapshot of an order as it enters a node. -/
theorem capture_entering (id : String) (k j limit : ℕ) (node : String) :
    Snapshot.capture (entering id k j) node limit =
      .ok ⟨id, headers k j, "json", some (clip limit (body k))⟩ := by
  have hid : (entering id k j).id = id := by
    rw [entering]
    split <;> rfl
  rw [Snapshot.capture, body_entering, text?_order, headers_entering, hid]
  rfl

/-- An order goes through the nodes before each node. -/
theorem before_order (e : Engine) (id : String) (k : ℕ) {j : ℕ} (hj : j < 3) :
    (Route.before e (order id 0 k) route.outputs j).exchange = entering id k j ∧
      (Route.before e (order id 0 k) route.outputs j).outcome = .ok () := by
  have hvalidate (f : Failure) : (Processor.leaf none [.requireHeader "orderId" f]).process e
      (order id 0 k) = ⟨e, order id 0 k, .ok ()⟩ := by
    rw [Processor.process, Step.runAll, Step.requireHeader, Step.run_edit,
      if_pos (isSome_header?_order ..)]
    rfl
  obtain rfl | rfl | rfl : j = 0 ∨ j = 1 ∨ j = 2 := by omega
  · exact ⟨rfl, rfl⟩
  · rw [show route.outputs = _ :: _ from rfl, Route.before_succ, hvalidate]
    exact ⟨rfl, rfl⟩
  · rw [show route.outputs = _ :: _ from rfl, Route.before_succ, hvalidate]
    exact ⟨rfl, rfl⟩

/-- The body of an order has a text at each node. -/
theorem textsBefore_order (e : Engine) (id : String) (k : ℕ) {j : ℕ} (hj : j ≤ 3) :
    Route.textsBefore e (order id 0 k) route.outputs j = j := by
  have htext : ∀ i ∈ List.range j,
      (Route.before e (order id 0 k) route.outputs i).exchange.body.text?.isOk = true := by
    intro i hi
    rw [(before_order e id k ((List.mem_range.mp hi).trans_le hj)).1, body_entering, text?_order]
    rfl
  rw [Route.textsBefore, List.countP_eq_length.mpr htext, List.length_range]

/-! ### One order -/

/-- A demo that orders can be sent to: it is built and enabled, and its nodes have their ids. -/
structure Ready (d : Demo) : Prop where
  pipeline : d.pipeline = route.stages [.trace d.tracer]
  enabled : (d.engine.tracer d.tracer).enabled = true
  named : ∀ (j : ℕ) (n : Node), route.nodes[j]? = some n → n.id? d.engine.ids = names[j]?

theorem actsOnExchange_route : ∀ o ∈ route.outputs, o.processor.ActsOnExchange := by
  simp [route, stages, NodeSpec.defineAll, NodeSpec.define, Processor.ActsOnExchange,
    Processor.Within, Step.requireHeader, Step.setHeader, Step.setBody, Action.IsVisit]

theorem distinct_route : route.Distinct := by
  have hkeys : route.nodes.map (·.key) = [⟨1⟩, ⟨2⟩, ⟨3⟩] := rfl
  rw [Route.Distinct, hkeys]
  decide

/-- The events of an order, given how many captures there were before. -/
theorem eventOnEntry_entering {t : Tracer} {k : ℕ}
    (hcounter : t.traceCounter = UInt64.ofNat (3 * k))
    (clock : Clock) (id : ℕ → String) {j : ℕ} (hj : j < 3) :
    route.eventOnEntry t (clock.reading (3 * k + j)) j (names.getD j "") (entering (id k) k j) =
      some (event t.bodyMaxChars.toNat clock id (3 * k + j)) := by
  have hdiv : (3 * k + j) / 3 = k := by omega
  have hmod : (3 * k + j) % 3 = j := by omega
  rw [Route.eventOnEntry, capture_entering, event, hdiv, hmod, hcounter, ← UInt64.ofNat_add,
    Nat.add_assoc]
  rfl

/-- **What one order adds.** Three captures, whose events are known. -/
theorem Ready.send {d : Demo} (h : d.Ready) {k : ℕ}
    (hcounter : (d.engine.tracer d.tracer).traceCounter = UInt64.ofNat (3 * k))
    {clock : Clock} (hclock : d.engine.clock = clock.after (3 * k)) (id : ℕ → String) :
    let d' := d.send (order (id k) 0 k)
    d'.Ready ∧ d'.tracer = d.tracer ∧ d'.engine.clock = clock.after (3 * (k + 1)) ∧
    ∃ captures : List Capture, captures.length = 3 ∧
      d'.engine.tracer d.tracer = captures.foldl Tracer.absorb (d.engine.tracer d.tracer) ∧
      captures.filterMap Capture.event? = (List.range 3).map fun j =>
        event (d.engine.tracer d.tracer).bodyMaxChars.toNat clock id (3 * k + j) := by
  intro d'
  let c : Engine := d.engine
  obtain ⟨captures, hrecorded⟩ := exists_recorded route d.tracer actsOnExchange_route
    (c := c) h.enabled c (order (id k) 0 k)
  have hafter : d'.engine = (Processor.processAll c (order (id k) 0 k) (route.outputs.map fun o =>
      .traced (Engine.interceptor d.tracer (some route) o.node) o.processor)).engine := by
    show (Processor.processAll c _ d.pipeline).engine = _
    rw [h.pipeline]
    rfl
  rw [← hafter] at hrecorded
  have hlength : captures.length = 3 := by
    have hle : captures.length ≤ 3 := hrecorded.length_le
    by_contra hne
    have hlt : captures.length < 3 := by omega
    exact hrecorded.stopped hlt (before_order c (id k) k hlt).2
  have hnames (j : ℕ) (hj : j < 3) : Recorded.toNode captures j = names.getD j "" := by
    obtain ⟨n, hn, hid⟩ := hrecorded.id?_node (hlength ▸ hj)
    have hname : n.id? c.ids = some (names.getD j "") := by
      rw [h.named j n hn, List.getD_eq_getElem?_getD, List.getElem?_eq_getElem hj]
      rfl
    rw [hrecorded.keepsIds n _ hname] at hid
    exact (Option.some.inj hid).symm
  refine ⟨⟨h.pipeline, ?_, fun j n hn => ?_⟩, rfl, ?_, captures, hlength, hrecorded.tracer, ?_⟩
  · show (d'.engine.tracer d.tracer).enabled = true
    rw [hrecorded.tracer]
    exact (Tracer.keep_foldl_absorb (·.enabled) (fun _ _ => rfl) (fun _ _ => rfl)
      (fun _ _ => rfl) _ _).trans h.enabled
  · cases hname : names[j]? with
    | some name => exact hrecorded.keepsIds n name ((h.named j n hn).trans hname)
    | none =>
      have hout : 3 ≤ j := List.getElem?_eq_none_iff.mp hname
      rw [List.getElem?_eq_none (show route.nodes.length ≤ j from hout)] at hn
      cases hn
  · rw [hrecorded.clock, hlength, textsBefore_order c (id k) k le_rfl, hclock, Clock.after_after,
      Nat.mul_succ]
  · rw [hrecorded.events_eq distinct_route, hlength, ← List.filterMap_eq_map]
    refine List.filterMap_congr fun j hj => ?_
    have hj : j < 3 := List.mem_range.mp hj
    rw [hnames j hj, (before_order c (id k) k hj).1, textsBefore_order c (id k) k hj.le, hclock,
      Clock.reading_after]
    exact eventOnEntry_entering hcounter clock id hj

/-! ### Many orders -/

theorem schedule_one (n : ℕ) : schedule 1 n = (List.range n).map fun k => (0, k) := by
  cases n with
  | zero => rfl
  | succ n =>
    have hshare : shareOf 1 (n + 1) 0 = List.range (n + 1) := by
      rw [shareOf, List.range_eq_range', Nat.div_one]
      rfl
    rw [schedule, Nat.min_eq_left (Nat.succ_pos n), List.range_one, List.flatMap_singleton, hshare]

/-- What was recorded of `n` orders that were sent to a demo. -/
structure Sent (start d : Demo) (id : ℕ → String) (n : ℕ) (captures : List Capture) : Prop where
  ready : d.Ready
  sameTracer : d.tracer = start.tracer
  clock : d.engine.clock = start.engine.clock.after (3 * n)
  length : captures.length = 3 * n
  tracer : d.engine.tracer start.tracer =
    captures.foldl Tracer.absorb (start.engine.tracer start.tracer)
  events : captures.filterMap Capture.event? = (List.range (3 * n)).map
    (event (start.engine.tracer start.tracer).bodyMaxChars.toNat start.engine.clock id)

/-- Every order adds its three events. -/
theorem Sent.send {start d : Demo} {id : ℕ → String} {n : ℕ}
    {captures : List Capture} (h : Sent start d id n captures)
    (hcounter : (start.engine.tracer start.tracer).traceCounter = 0) :
    ∃ more, Sent start (d.send (order (id n) 0 n)) id (n + 1) (captures ++ more) := by
  have htracer : d.engine.tracer d.tracer = captures.foldl Tracer.absorb
      (start.engine.tracer start.tracer) := h.sameTracer ▸ h.tracer
  have hlimit : (d.engine.tracer d.tracer).bodyMaxChars =
      (start.engine.tracer start.tracer).bodyMaxChars := by
    rw [htracer]
    exact Tracer.keep_foldl_absorb (·.bodyMaxChars) (fun _ _ => rfl) (fun _ _ => rfl)
      (fun _ _ => rfl) _ _
  have hnow : (d.engine.tracer d.tracer).traceCounter = UInt64.ofNat (3 * n) := by
    rw [htracer, Tracer.traceCounter_foldl_absorb, hcounter, h.length, UInt64.zero_add]
  obtain ⟨hready, hsame, hclock, more, hlength, hmore, hevents⟩ := h.ready.send hnow h.clock id
  refine ⟨more, hready, hsame.trans h.sameTracer, hclock, ?_, ?_, ?_⟩
  · rw [List.length_append, h.length, hlength, Nat.mul_succ]
  · rw [List.foldl_append, ← htracer, ← hmore, h.sameTracer]
  · rw [List.filterMap_append, h.events, hevents, hlimit, Nat.mul_succ, List.range_add,
      List.map_append, List.map_map]
    rfl

/-- **The orders of a worker that is alone.** -/
theorem Ready.sendAll {d : Demo} (h : d.Ready)
    (hcounter : (d.engine.tracer d.tracer).traceCounter = 0) (id : ℕ → String) (n : ℕ) :
    ∃ captures, Sent d (d.sendAll id (schedule 1 n)) id n captures := by
  rw [schedule_one]
  induction n with
  | zero => exact ⟨[], h, rfl, rfl, rfl, rfl, rfl⟩
  | succ n ih =>
    obtain ⟨captures, hsent⟩ := ih
    obtain ⟨more, hmore⟩ := hsent.send hcounter
    refine ⟨captures ++ more, ?_⟩
    rw [List.range_succ, List.map_append, Demo.sendAll, List.foldl_append]
    exact hmore

end Demo

end TraceBacklog
