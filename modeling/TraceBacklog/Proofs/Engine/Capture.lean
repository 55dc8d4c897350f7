/-
# What a capture does

A capture can be read off the engine before it: its number, the id of the node, the next
reading of the clock, the policy, and the snapshot or the reason why there is none
(`Engine.captureOf`). To a tracer that stores its own events it does what `Tracer.absorb` says: the number is taken
first, whatever becomes of the snapshot. Other tracers stay as they are, the node has an
id afterwards, and an id that a node has is never replaced.

Key definitions: `Capture`, `Capture.event?`, `Tracer.absorb`, `Engine.captureOf`.
Key theorems: `Engine.tracer_capture_self`, `Engine.tracer_capture_of_ne`,
`Engine.tracer_enter`, `Engine.tracer_enter_keeps`, `Engine.id?_capture_self`,
`Engine.id?_capture_of_some`.
-/
import TraceBacklog.Proofs.Engine.Frame

namespace TraceBacklog

/-- What an interceptor makes of an exchange that enters its node. -/
structure Capture where
  interceptor : Interceptor
  traceId : UInt64
  toNode : String
  time : Timestamp
  /-- What the tracer does about losses at that time. -/
  policy : LossPolicy
  message : Except Failure Snapshot

/-- The event that is stored, if the message has a snapshot. -/
def Capture.event? (c : Capture) : Option Event :=
  c.message.toOption.map fun message => c.interceptor.event c.traceId c.time c.toNode message

/-- What a capture does to a tracer that stores its own events. -/
def Tracer.absorb (t : Tracer) (c : Capture) : Tracer :=
  match c.event? with
  | some event => { t.nextCapture with backlog := (t.backlog.push event).1 }
  | none => t.nextCapture.lose

/-- A loss shows in the number of losses alone. -/
theorem Tracer.keep_lose {α : Type} (keep : Tracer → α)
    (hfailures : ∀ (t : Tracer) (n : UInt64), keep { t with captureFailures := n } = keep t)
    (t : Tracer) : keep t.lose = keep t := by
  unfold lose
  split
  · rfl
  · exact hfailures t _
  · exact hfailures t _

/-- Every capture takes a number, one that fails as well. -/
theorem Tracer.traceCounter_absorb (t : Tracer) (c : Capture) :
    (t.absorb c).traceCounter = t.traceCounter + 1 := by
  unfold absorb
  split
  · rfl
  · exact keep_lose (·.traceCounter) (fun _ _ => rfl) t.nextCapture

/-- The backlog gets the event of a capture, if there is one. -/
theorem Tracer.backlog_absorb (t : Tracer) (c : Capture) :
    (t.absorb c).backlog = (t.backlog.pushAll c.event?.toList).1 := by
  unfold absorb
  cases c.event? with
  | some event => rfl
  | none => exact keep_lose (·.backlog) (fun _ _ => rfl) t.nextCapture

namespace Engine

/-- The capture of an exchange by an interceptor. -/
def captureOf (e : Engine) (i : Interceptor) (x : Exchange) : Capture :=
  let t := e.tracer i.tracer
  let toNode := (e.nodeId t.factory i.node).2
  { interceptor := i, traceId := t.traceCounter + 1, toNode := toNode, time := e.clock.now,
    policy := t.lossPolicy, message := Snapshot.capture x toNode t.bodyMaxChars.toNat }

/-! ### Ids of nodes -/

theorem nodeId_of_some {e : Engine} {n : Node} {id : String} (h : n.id? e.ids = some id)
    (f : FactoryRef) : e.nodeId f n = (e, id) := by
  rw [nodeId, h]

theorem nodeId_of_none {e : Engine} {n : Node} (h : n.id? e.ids = none) (f : FactoryRef) :
    e.nodeId f n = ({ (e.createId f n.label).1 with
      ids := e.ids.assign n.key (e.createId f n.label).2 }, (e.createId f n.label).2) := by
  rw [nodeId, h]
  rfl

/-- A node that has an id keeps it, whatever node gets one. -/
theorem id?_nodeId_of_some {e : Engine} {n : Node} {id : String} (h : n.id? e.ids = some id)
    (f : FactoryRef) (other : Node) : n.id? (e.nodeId f other).1.ids = some id := by
  cases ho : other.id? e.ids with
  | some _ => rwa [nodeId_of_some ho]
  | none =>
    rw [nodeId_of_none ho]
    unfold Node.id? at h ⊢
    cases hg : n.givenId with
    | some given => rwa [hg] at h
    | none =>
      rw [hg] at h
      exact IdTable.get?_assign_of_some h

/-- The id that a node is said to have is the one it has from then on. -/
theorem id?_nodeId_self (e : Engine) (f : FactoryRef) (n : Node) :
    n.id? (e.nodeId f n).1.ids = some (e.nodeId f n).2 := by
  cases h : n.id? e.ids with
  | some id => rwa [nodeId_of_some h]
  | none =>
    rw [nodeId_of_none h]
    unfold Node.id? at h ⊢
    cases hg : n.givenId with
    | some given => simp [hg] at h
    | none =>
      have hfree : e.ids.get? n.key = none := by rwa [hg] at h
      have hid := IdTable.get?_assign_self e.ids n.key (e.createId f n.label).2
      rwa [hfree, Option.getD_none] at hid

/-- Tracers have no part in the ids. -/
theorem nodeId_modifyTracer (e : Engine) (r : TracerRef) (f : Tracer → Tracer)
    (factory : FactoryRef) (n : Node) : (e.modifyTracer r f).nodeId factory n =
      ((e.nodeId factory n).1.modifyTracer r f, (e.nodeId factory n).2) := by
  cases h : n.id? e.ids with
  | some id =>
    rw [nodeId_of_some h, nodeId_of_some (e := e.modifyTracer r f) h]
  | none =>
    rw [nodeId_of_none h, nodeId_of_none (e := e.modifyTracer r f) h]
    rfl

@[simp] theorem clock_nodeId (e : Engine) (f : FactoryRef) (n : Node) :
    (e.nodeId f n).1.clock = e.clock := by
  unfold nodeId
  split <;> rfl

/-! ### One capture -/

theorem modifyTracer_modifyTracer (e : Engine) (r : TracerRef) (f g : Tracer → Tracer) :
    (e.modifyTracer r f).modifyTracer r g = e.modifyTracer r fun t => g (f t) := by
  simp only [modifyTracer, List.modify_modify_eq]
  rfl

/-- The engine when a capture has its number and the node its id. -/
def numbered (e : Engine) (i : Interceptor) : Engine :=
  (e.nodeId (e.tracer i.tracer).factory i.node).1.modifyTracer i.tracer (·.nextCapture)

/-- A capture stores an event or counts a loss. -/
theorem capture_eq (e : Engine) (i : Interceptor) (x : Exchange) :
    e.capture i x =
      match (e.captureOf i x).message with
      | .ok message => ({ e.numbered i with clock := e.clock.after 1 } : Engine).storeEvent i.store
          (i.event (e.captureOf i x).traceId e.clock.now (e.captureOf i x).toNode message)
      | .error failure => (e.numbered i).lose i.tracer failure := by
  have hfactory : ((e.modifyTracer i.tracer (·.nextCapture)).tracer i.tracer).factory =
      (e.tracer i.tracer).factory :=
    tracer_modifyTracer_keeps (·.factory) e i.tracer i.tracer fun _ => rfl
  have hid := e.nodeId_modifyTracer i.tracer (·.nextCapture) (e.tracer i.tracer).factory i.node
  rw [← hfactory] at hid
  have hlimit : ((e.numbered i).tracer i.tracer).bodyMaxChars =
      (e.tracer i.tracer).bodyMaxChars := by
    rw [numbered, tracer_modifyTracer_keeps (f := (·.nextCapture)) (·.bodyMaxChars) _ _ _
      fun _ => rfl, tracer_congr (e.tracers_nodeId ..)]
  have hclock : (e.numbered i).clock = e.clock := e.clock_nodeId ..
  show Engine.record ((e.modifyTracer i.tracer (·.nextCapture)).nodeId
      ((e.modifyTracer i.tracer (·.nextCapture)).tracer i.tracer).factory i.node).1 i
    (e.captureOf i x).traceId ((e.modifyTracer i.tracer (·.nextCapture)).nodeId
      ((e.modifyTracer i.tracer (·.nextCapture)).tracer i.tracer).factory i.node).2 x = _
  rw [hid, hfactory]
  show (e.numbered i).record i (e.captureOf i x).traceId (e.captureOf i x).toNode x = _
  rw [record, hlimit, readClock, hclock]
  rfl

theorem tracers_numbered (e : Engine) (i : Interceptor) :
    (e.numbered i).tracers = (e.modifyTracer i.tracer (·.nextCapture)).tracers := by
  rw [numbered, modifyTracer, tracers_nodeId]
  rfl

/-- A loss is counted, and reported or not. -/
theorem exists_lose_eq (e : Engine) (r : TracerRef) (failure : Failure) :
    ∃ journal, e.lose r failure = { e.modifyTracer r (·.lose) with journal := journal } := by
  unfold lose
  dsimp only
  split
  · exact ⟨_, rfl⟩
  · exact ⟨_, rfl⟩

/-- What a capture does to the tracers: a number is taken, then an event is stored or a
loss is counted. -/
theorem tracers_capture (e : Engine) (i : Interceptor) (x : Exchange) :
    (e.capture i x).tracers =
      match (e.captureOf i x).event? with
      | some event => ((e.modifyTracer i.tracer (·.nextCapture)).modifyTracer i.store
          fun t => { t with backlog := (t.backlog.push event).1 }).tracers
      | none => (e.modifyTracer i.tracer fun t => t.nextCapture.lose).tracers := by
  have htracers := e.tracers_numbered i
  rw [capture_eq, Capture.event?]
  cases (e.captureOf i x).message with
  | ok message =>
    show ((e.numbered i).tracers.modify i.store.index _ : List Tracer) = _
    rw [htracers]
    rfl
  | error failure =>
    obtain ⟨journal, hlose⟩ := (e.numbered i).exists_lose_eq i.tracer failure
    show ((e.numbered i).lose i.tracer failure).tracers = _
    rw [hlose]
    show ((e.numbered i).tracers.modify i.tracer.index _ : List Tracer) = _
    rw [htracers, ← modifyTracer_modifyTracer e i.tracer (·.nextCapture) (·.lose)]
    rfl

/-- A tracer that stores its own events absorbs its capture. -/
theorem tracers_capture_self (e : Engine) {i : Interceptor} (h : i.store = i.tracer)
    (x : Exchange) : (e.capture i x).tracers =
      (e.modifyTracer i.tracer (·.absorb (e.captureOf i x))).tracers := by
  rw [tracers_capture, h]
  unfold Tracer.absorb
  cases (e.captureOf i x).event? with
  | some event => exact congrArg Engine.tracers (e.modifyTracer_modifyTracer i.tracer _ _)
  | none => rfl

theorem tracer_capture_self {e : Engine} {i : Interceptor} (h : i.store = i.tracer)
    (hr : i.tracer.index < e.tracers.length) (x : Exchange) :
    (e.capture i x).tracer i.tracer = (e.tracer i.tracer).absorb (e.captureOf i x) := by
  rw [tracer_congr (e.tracers_capture_self h x), tracer_modifyTracer_self _ hr]

theorem tracer_capture_of_ne (e : Engine) {i : Interceptor} {r : TracerRef} (h : i.tracer ≠ r)
    (hstore : i.store ≠ r) (x : Exchange) : (e.capture i x).tracer r = e.tracer r := by
  have htracers := e.tracers_capture i x
  cases hc : (e.captureOf i x).event? with
  | some event =>
    rw [hc] at htracers
    rw [tracer_congr htracers, tracer_modifyTracer_of_ne _ _ hstore,
      tracer_modifyTracer_of_ne _ _ h]
  | none =>
    rw [hc] at htracers
    rw [tracer_congr htracers, tracer_modifyTracer_of_ne _ _ h]

section Keeps

variable {α : Type} (keep : Tracer → α)
  (hcounter : ∀ (t : Tracer) (n : UInt64), keep { t with traceCounter := n } = keep t)
  (hbacklog : ∀ (t : Tracer) (b : Backlog), keep { t with backlog := b } = keep t)
  (hfailures : ∀ (t : Tracer) (n : UInt64), keep { t with captureFailures := n } = keep t)

include hcounter hbacklog hfailures

/-- Of a tracer a capture changes only counters and the backlog, whoever's capture it is. -/
theorem tracer_capture_keeps (e : Engine) (i : Interceptor) (x : Exchange) (r : TracerRef) :
    keep ((e.capture i x).tracer r) = keep (e.tracer r) := by
  have htracers := e.tracers_capture i x
  cases hc : (e.captureOf i x).event? with
  | some event =>
    rw [hc] at htracers
    rw [tracer_congr htracers, tracer_modifyTracer_keeps keep _ _ _ fun t => hbacklog t _]
    exact tracer_modifyTracer_keeps keep _ _ _ fun t => hcounter t _
  | none =>
    rw [hc] at htracers
    rw [tracer_congr htracers]
    exact tracer_modifyTracer_keeps keep e _ _ fun t =>
      (Tracer.keep_lose keep hfailures _).trans (hcounter t _)

/-- So does an exchange that reaches an interceptor, captured or not. -/
theorem tracer_enter_keeps (e : Engine) (i : Interceptor) (x : Exchange) (r : TracerRef) :
    keep ((e.enter i x).tracer r) = keep (e.tracer r) := by
  unfold enter
  split
  · exact tracer_capture_keeps keep hcounter hbacklog hfailures e i x r
  · rfl

end Keeps

@[simp] theorem length_tracers_capture (e : Engine) (i : Interceptor) (x : Exchange) :
    (e.capture i x).tracers.length = e.tracers.length := by
  rw [tracers_capture]
  cases (e.captureOf i x).event? with
  | some event => exact (length_tracers_modifyTracer ..).trans (length_tracers_modifyTracer ..)
  | none => exact length_tracers_modifyTracer ..

section Aside

variable {α : Type} (keep : Engine → α)
  (htracers : ∀ (e : Engine) (tracers : List Tracer), keep { e with tracers := tracers } = keep e)
  (hjournal : ∀ (e : Engine) (journal : List Entry), keep { e with journal := journal } = keep e)
  (hclock : ∀ (e : Engine) (clock : Clock), keep { e with clock := clock } = keep e)

include htracers hjournal hclock

/-- Tracers, journal and clock aside, all that a capture does is to make sure of the id of its
node. -/
theorem capture_keeps (e : Engine) (i : Interceptor) (x : Exchange) :
    keep (e.capture i x) = keep (e.nodeId (e.tracer i.tracer).factory i.node).1 := by
  have hnumbered : keep (e.numbered i) = keep (e.nodeId (e.tracer i.tracer).factory i.node).1 :=
    htracers _ _
  rw [capture_eq, ← hnumbered]
  cases (e.captureOf i x).message with
  | ok message => exact (htracers _ _).trans (hclock _ _)
  | error failure =>
    obtain ⟨journal, hlose⟩ := (e.numbered i).exists_lose_eq i.tracer failure
    show keep ((e.numbered i).lose i.tracer failure) = _
    rw [hlose]
    exact (hjournal _ _).trans (htracers _ _)

end Aside

theorem ids_capture (e : Engine) (i : Interceptor) (x : Exchange) :
    (e.capture i x).ids = (e.nodeId (e.tracer i.tracer).factory i.node).1.ids :=
  capture_keeps (·.ids) (fun _ _ => rfl) (fun _ _ => rfl) (fun _ _ => rfl) e i x

theorem id?_capture_of_some {e : Engine} {n : Node} {id : String} (h : n.id? e.ids = some id)
    (i : Interceptor) (x : Exchange) : n.id? (e.capture i x).ids = some id := by
  rw [ids_capture]
  exact id?_nodeId_of_some h _ _

/-- A captured exchange shows the id of the node that it enters. -/
theorem id?_capture_self (e : Engine) (i : Interceptor) (x : Exchange) :
    i.node.id? (e.capture i x).ids = some (e.captureOf i x).toNode := by
  rw [ids_capture]
  exact id?_nodeId_self ..

/-- A capture takes a reading for its event; a loss is not timed. -/
theorem clock_capture (e : Engine) (i : Interceptor) (x : Exchange) :
    (e.capture i x).clock = e.clock.after (if x.body.text?.isOk then 1 else 0) := by
  have hnumbered : (e.numbered i).clock = e.clock := e.clock_nodeId ..
  have hok : (e.captureOf i x).message.isOk = x.body.text?.isOk := Snapshot.isOk_capture ..
  rw [capture_eq, ← hok]
  cases (e.captureOf i x).message with
  | ok message => rfl
  | error failure =>
    obtain ⟨journal, hlose⟩ := (e.numbered i).exists_lose_eq i.tracer failure
    show ((e.numbered i).lose i.tracer failure).clock = _
    rw [hlose]
    exact hnumbered

/-! ### Reaching an interceptor -/

theorem enter_of_enabled {e : Engine} {i : Interceptor} (h : (e.tracer i.tracer).enabled = true)
    (x : Exchange) : e.enter i x = e.capture i x := if_pos h

theorem enter_of_disabled {e : Engine} {i : Interceptor}
    (h : (e.tracer i.tracer).enabled = false) (x : Exchange) : e.enter i x = e :=
  if_neg (by rw [shouldTrace, h]; exact Bool.false_ne_true)

@[simp] theorem length_tracers_enter (e : Engine) (i : Interceptor) (x : Exchange) :
    (e.enter i x).tracers.length = e.tracers.length := by
  unfold enter
  split
  · exact e.length_tracers_capture i x
  · rfl

/-- An exchange that reaches an interceptor is captured, passes, or is no concern of the
tracer. -/
theorem tracer_enter {e : Engine} {r : TracerRef} {i : Interceptor}
    (hr : r.index < e.tracers.length) (hapart : i.tracer = r ↔ i.store = r) (x : Exchange) :
    (e.enter i x).tracer r =
      if i.tracer = r then
        if (e.tracer r).enabled then (e.tracer r).absorb (e.captureOf i x) else e.tracer r
      else e.tracer r := by
  by_cases hi : i.tracer = r
  · have hstore : i.store = i.tracer := (hapart.mp hi).trans hi.symm
    subst hi
    rw [if_pos rfl]
    cases henabled : (e.tracer i.tracer).enabled with
    | true => rw [enter_of_enabled henabled, if_pos rfl, tracer_capture_self hstore hr]
    | false => rw [enter_of_disabled henabled, if_neg Bool.false_ne_true]
  · have hstore : i.store ≠ r := fun h => hi (hapart.mpr h)
    rw [if_neg hi]
    cases henabled : (e.tracer i.tracer).enabled with
    | true => rw [enter_of_enabled henabled, tracer_capture_of_ne e hi hstore]
    | false => rw [enter_of_disabled henabled]

end Engine

end TraceBacklog
