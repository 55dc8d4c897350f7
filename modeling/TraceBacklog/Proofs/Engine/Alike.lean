/-
# Engines that look alike but for one tracer

Two engines are equal but for a tracer if the same is seen of all other tracers, and if the
nodes whose ids are seen have the same ids in both (`Engine.EqualBut`). What is done to both
engines keeps them so (`Engine.EqualBut.act`), and so does what is done to that tracer alone.
It may give ids to nodes; but ids are never replaced, so the ones that are seen stay. The ids
that it gives show in what others record from then on. So if events are told apart by their
nodes, others record at nodes only whose ids are seen.

The answers of the other tracers look the same in both engines (`Engine.EqualBut.answers`),
so programs that go by what is seen find nothing out (`Engine.respects_equalBut`).

Key definitions: `Tracer.Alike`, `Engine.AlikeBut`, `Engine.EqualBut`,
`Action.RecordsApart`, `Action.Apart`.
Key theorems: `Engine.EqualBut.act`, `Engine.EqualBut.answers`, `Engine.respects_equalBut`.
-/
import TraceBacklog.Proofs.Backlog.History
import TraceBacklog.Proofs.Engine.Naming

namespace TraceBacklog

/-! ### Backlogs -/

/-- The counters are the same, and so is what is seen of the events. -/
structure Backlog.Alike (v : View) (b b' : Backlog) : Prop where
  stats : b.stats = b'.stats
  events : b.events.map v.event = b'.events.map v.event

/-- Events that look the same are selected alike, if the selection does not hang on what is not
seen. -/
theorem View.map_filter_congr {v : View} {p : Event → Bool}
    (hp : ∀ event, p (v.event event) = p event) {events events' : List Event}
    (h : events.map v.event = events'.map v.event) :
    (events.filter p).map v.event = (events'.filter p).map v.event := by
  have hcomp : p ∘ v.event = p := funext hp
  have hfilter (events : List Event) :
      (events.filter p).map v.event = (events.map v.event).filter p := by
    rw [List.filter_map, hcomp]
  rw [hfilter, hfilter, h]

namespace Backlog.Alike

variable {v : View} {b b' : Backlog}

theorem length_eq {events events' : List Event}
    (h : events.map v.event = events'.map v.event) : events.length = events'.length := by
  rw [← List.length_map v.event, h, List.length_map]

/-- How many events are held can be told from the events. -/
theorem of_counts (hcapacity : b.capacity = b'.capacity) (hpushed : b.pushed = b'.pushed)
    (hevicted : b.evicted = b'.evicted) (hdrained : b.drained = b'.drained)
    (hevents : b.events.map v.event = b'.events.map v.event) : b.Alike v b' := by
  have hlen : b.len = b'.len := by
    rw [len_eq_length, len_eq_length, length_eq hevents]
  refine ⟨?_, hevents⟩
  rw [Backlog.stats, Backlog.stats, hlen, hcapacity, hpushed, hevicted, hdrained]

variable (h : b.Alike v b')

include h

theorem len : b.len = b'.len := congrArg Stats.len h.stats

theorem capacity : b.capacity = b'.capacity := congrArg Stats.capacity h.stats

theorem pushed : b.pushed = b'.pushed := congrArg Stats.pushed h.stats

theorem evicted : b.evicted = b'.evicted := congrArg Stats.evicted h.stats

theorem drained : b.drained = b'.drained := congrArg Stats.drained h.stats

theorem isFull : b.isFull = b'.isFull := by
  rw [Backlog.isFull, Backlog.isFull, h.capacity, h.len]

/-- What makes room for an event looks the same. -/
theorem evicted_push (event event' : Event) :
    (b.push event).2.map v.event = (b'.push event').2.map v.event := by
  rw [Backlog.evicted_push, Backlog.evicted_push, h.isFull]
  split
  · rw [← List.head?_map, ← List.head?_map, h.events]
  · rfl

theorem push {event event' : Event} (he : v.event event = v.event event') :
    (b.push event).1.Alike v (b'.push event').1 := by
  have hout : (b.push event).2.toList.length = (b'.push event').2.toList.length := by
    have hsome := congrArg Option.isSome (h.evicted_push event event')
    rw [Option.isSome_map, Option.isSome_map] at hsome
    rw [Option.length_toList, Option.length_toList, hsome]
  refine of_counts ?_ ?_ ?_ ?_ ?_
  · rw [capacity_push, capacity_push, h.capacity]
  · rw [pushed_push, pushed_push, h.pushed]
  · rw [evictedCount_push, evictedCount_push, h.evicted, hout]
  · rw [drained_push, drained_push, h.drained]
  · rw [events_push, events_push, h.isFull, List.map_append, List.map_append, List.map_singleton,
      List.map_singleton, he]
    split
    · rw [List.map_tail, List.map_tail, h.events]
    · rw [h.events]

theorem pushAll (events : List Event) : (b.pushAll events).1.Alike v (b'.pushAll events).1 := by
  induction events generalizing b b' with
  | nil => exact h
  | cons event rest ih => exact ih (h.push rfl)

/-- As many events are evicted. -/
theorem length_evicted_pushAll (events : List Event) :
    (b.pushAll events).2.length = (b'.pushAll events).2.length := by
  have hsum := congrArg List.length (b.evicted_append_events_pushAll events)
  have hsum' := congrArg List.length (b'.evicted_append_events_pushAll events)
  have hheld := length_eq h.events
  have hstay := length_eq (h.pushAll events).events
  simp only [List.length_append] at hsum hsum'
  omega

theorem drain : b.drain.1.Alike v b'.drain.1 := by
  refine of_counts h.capacity h.pushed h.evicted ?_ rfl
  show b.drained + UInt64.ofNat b.len = b'.drained + UInt64.ofNat b'.len
  rw [h.drained, h.len]

theorem clear : b.clear.Alike v b'.clear :=
  of_counts h.capacity h.pushed h.evicted h.drained rfl

/-- What a backlog becomes can be told from what is seen of it. -/
theorem perform (c : Command) : (b.perform c).1.Alike v (b'.perform c).1 := by
  cases c with
  | push event => exact h.push rfl
  | pushAll events => exact h.pushAll events
  | drain => exact h.drain
  | clear => exact h.clear
  | _ => exact h

/-- And so can what is seen of its reply. -/
theorem reply {c : Command}
    (hc : v.byNode = true ∨ (TraceBacklog.Command.backlog c).looksUp = false) :
    v.reply (.backlog (b.perform c).2) = v.reply (.backlog (b'.perform c).2) := by
  cases c with
  | push event =>
    exact congrArg (fun event? => Reply.backlog (.evicted event?)) (h.evicted_push event event)
  | pushAll events =>
    exact congrArg (fun n => Reply.backlog (.number n)) (h.length_evicted_pushAll events)
  | contents => exact congrArg (fun events => Reply.backlog (.events events)) h.events
  | drain => exact congrArg (fun events => Reply.backlog (.events events)) h.events
  | filter s =>
    refine congrArg (fun events => Reply.backlog (.events events)) (v.map_filter_congr ?_ h.events)
    intro event
    rcases hc with hnode | hnone
    · rw [Selection.holds, View.event, hnode]
      rfl
    · have hany : s.node = none := by simpa [Command.looksUp] using hnone
      rw [Selection.holds, Selection.holds, hany]
      rfl
  | clear => rfl
  | capacity => exact congrArg (fun n => Reply.backlog (.number n)) h.capacity
  | isEmpty =>
    show v.reply (.backlog (.flag (decide (b.len = 0)))) = _
    rw [h.len]
    rfl
  | len => exact congrArg (fun n => Reply.backlog (.number n)) h.len

end Backlog.Alike

/-! ### Tracers -/

/-- Tracers of which the same is seen. -/
structure Tracer.Alike (v : View) (t t' : Tracer) : Prop where
  state : t.state = t'.state
  enabled : t.enabled = t'.enabled
  backlogSize : t.backlogSize = t'.backlogSize
  lossPolicy : t.lossPolicy = t'.lossPolicy
  traceCounter : t.traceCounter = t'.traceCounter
  captureFailures : t.captureFailures = t'.captureFailures
  bodyMaxChars : t.bodyMaxChars = t'.bodyMaxChars
  tracked : t.tracked = t'.tracked
  backlog : t.backlog.Alike v t'.backlog

namespace Tracer.Alike

theorem refl (v : View) (t : Tracer) : t.Alike v t :=
  ⟨rfl, rfl, rfl, rfl, rfl, rfl, rfl, rfl, rfl, rfl⟩

variable {v : View} {t t' : Tracer}

theorem symm (h : t.Alike v t') : t'.Alike v t :=
  ⟨h.state.symm, h.enabled.symm, h.backlogSize.symm, h.lossPolicy.symm, h.traceCounter.symm,
    h.captureFailures.symm, h.bodyMaxChars.symm, h.tracked.symm, h.backlog.stats.symm,
    h.backlog.events.symm⟩

theorem trans {t'' : Tracer} (h : t.Alike v t') (h' : t'.Alike v t'') : t.Alike v t'' :=
  ⟨h.state.trans h'.state, h.enabled.trans h'.enabled, h.backlogSize.trans h'.backlogSize,
    h.lossPolicy.trans h'.lossPolicy, h.traceCounter.trans h'.traceCounter,
    h.captureFailures.trans h'.captureFailures, h.bodyMaxChars.trans h'.bodyMaxChars,
    h.tracked.trans h'.tracked, h.backlog.stats.trans h'.backlog.stats,
    h.backlog.events.trans h'.backlog.events⟩

variable (h : t.Alike v t')

include h

theorem isShutDown : t.isShutDown = t'.isShutDown := by
  rw [Tracer.isShutDown, Tracer.isShutDown, h.state]

theorem ifLive {f : Tracer → Tracer} (hf : (f t).Alike v (f t')) :
    (t.ifLive f).Alike v (t'.ifLive f) := by
  rw [Tracer.ifLive, Tracer.ifLive, h.isShutDown]
  split
  · exact h
  · exact hf

theorem track (n : Node) : (t.track n).Alike v (t'.track n) :=
  { h with tracked := congrArg (·.insert n) h.tracked }

theorem untrack (n : Node) : (t.untrack n).Alike v (t'.untrack n) := by
  rw [Tracer.untrack, Tracer.untrack, h.isShutDown]
  split
  · exact h
  · exact { h with tracked := congrArg (·.erase n) h.tracked }

theorem apply (c : Command) : (t.apply c).Alike v (t'.apply c) := by
  cases c with
  | setEnabled enabled => exact { h with enabled := rfl }
  | setBacklogSize size =>
    rw [Tracer.apply, Tracer.apply]
    split
    · exact { h with backlogSize := rfl }
    · exact h
  | setLossPolicy policy => exact { h with lossPolicy := rfl }
  | resetTraceCounter => exact { h with traceCounter := rfl }
  | start => exact { h with state := rfl }
  | stop => exact { h with state := rfl, backlog := h.backlog.clear }
  | shutDown =>
    exact { h with state := rfl, enabled := rfl, tracked := rfl, backlog := h.backlog.clear }
  | dumpAll => exact { h with backlog := h.backlog.drain }
  | backlog c => exact { h with backlog := h.backlog.perform c }
  | _ => exact h

theorem obey (c : Command) : (t.obey c).Alike v (t'.obey c) := by
  rw [Tracer.obey, Tracer.obey, h.isShutDown]
  split
  · exact h
  · exact h.apply c

theorem nextCapture : t.nextCapture.Alike v t'.nextCapture :=
  { h with traceCounter := congrArg (· + 1) h.traceCounter }

theorem lose : t.lose.Alike v t'.lose := by
  rw [Tracer.lose, Tracer.lose, h.lossPolicy]
  split
  · exact h
  · exact { h with captureFailures := congrArg (· + 1) h.captureFailures, lossPolicy := rfl }
  · exact { h with captureFailures := congrArg (· + 1) h.captureFailures, lossPolicy := rfl }

theorem push {event event' : Event} (he : v.event event = v.event event') :
    Alike v { t with backlog := (t.backlog.push event).1 }
      { t' with backlog := (t'.backlog.push event').1 } :=
  { h with backlog := h.backlog.push he }

/-- The events of a node look the same, if it is seen which ones these are. -/
theorem dump (hv : v.byNode = true) (id : String) :
    (t.dump id).map v.event = (t'.dump id).map v.event := by
  refine v.map_filter_congr (fun event => ?_) h.backlog.events
  rw [View.event, hv]
  rfl

theorem latest (hv : v.byNode = true) (id : String) :
    (t.latest id).map v.event = (t'.latest id).map v.event := by
  have hdump := h.dump hv id
  rw [Tracer.latest, Tracer.latest, List.map_drop, List.map_drop, hdump,
    Backlog.Alike.length_eq hdump, h.backlogSize]

theorem describe : t.describe = t'.describe := by
  unfold Tracer.describe
  rw [h.state, h.enabled, h.backlogSize, h.traceCounter, h.backlog.stats]

end Tracer.Alike

/-- Whether a tracer is made, and which one, hangs on its configuration. -/
theorem Tracer.ofConfig_cases (c : Config) :
    (∃ stop, ∀ f, ofConfig c f = .error stop) ∨
      ∃ backlog, ∀ f, ofConfig c f = .ok (fresh c backlog f) := by
  unfold ofConfig
  cases c.validate with
  | error failure => exact .inl ⟨_, fun _ => rfl⟩
  | ok =>
    cases Backlog.new c.capacity.toNat with
    | error abort => exact .inl ⟨_, fun _ => rfl⟩
    | ok backlog => exact .inr ⟨backlog, fun _ => rfl⟩

/-! ### Engines -/

/-- Does the action concern the tracer? -/
def Action.isOf (b : TracerRef) : Action → Bool
  | .enter i _ => i.tracer = b
  | .perform r _ => r = b
  | .track r _ => r = b
  | .untrack r _ => r = b
  | _ => false

/-- Interceptors of the tracer store what they record with it, and others record at nodes whose
ids are seen, if events are told apart by their nodes. -/
def Action.RecordsApart (v : View) (b : TracerRef) : Action → Prop
  | .enter i _ =>
    (i.tracer = b → i.store = b) ∧ (i.tracer ≠ b → v.byNode = true → v.named i.node)
  | _ => True

/-- And nothing is asked of the tracer. -/
def Action.Apart (v : View) (b : TracerRef) : Action → Prop
  | .perform s _ => s ≠ b
  | a => a.RecordsApart v b

theorem Action.Apart.records {v : View} {b : TracerRef} {a : Action} (h : a.Apart v b) :
    a.RecordsApart v b := by
  cases a with
  | perform s c => trivial
  | _ => exact h

namespace Engine

/-- Of all tracers but one the same is seen. -/
structure AlikeBut (v : View) (b : TracerRef) (e e' : Engine) : Prop where
  length : e.tracers.length = e'.tracers.length
  tracer : ∀ s, s ≠ b → (e.tracer s).Alike v (e'.tracer s)

/-- And the nodes whose ids are seen have the same ids. -/
structure EqualBut (v : View) (b : TracerRef) (e e' : Engine) : Prop extends AlikeBut v b e e' where
  named : ∀ n, v.named n → ∃ id, n.id? e.ids = some id ∧ n.id? e'.ids = some id

variable {v : View} {b : TracerRef} {e e' : Engine}

namespace AlikeBut

theorem symm (h : e.AlikeBut v b e') : e'.AlikeBut v b e :=
  ⟨h.length.symm, fun s hs => (h.tracer s hs).symm⟩

theorem congr_tracers {e₁ e₁' : Engine} (h : e.AlikeBut v b e') (he : e₁.tracers = e.tracers)
    (he' : e₁'.tracers = e'.tracers) : e₁.AlikeBut v b e₁' where
  length := by rw [he, he', h.length]
  tracer s hs := by
    rw [tracer_congr he, tracer_congr he']
    exact h.tracer s hs

/-- What is done to that tracer alone does not show. -/
theorem modifyTracer_left (h : e.AlikeBut v b e') (f : Tracer → Tracer) :
    (e.modifyTracer b f).AlikeBut v b e' where
  length := (e.length_tracers_modifyTracer b f).trans h.length
  tracer s hs := by
    rw [tracer_modifyTracer_of_ne e f hs.symm]
    exact h.tracer s hs

/-- What is done to a tracer on both sides leaves them alike if it hangs on what is seen. -/
theorem modifyTracer (h : e.AlikeBut v b e') {s : TracerRef} {f f' : Tracer → Tracer}
    (hf : s ≠ b → (f (e.tracer s)).Alike v (f' (e'.tracer s))) :
    (e.modifyTracer s f).AlikeBut v b (e'.modifyTracer s f') where
  length := by rw [length_tracers_modifyTracer, length_tracers_modifyTracer, h.length]
  tracer t ht := by
    by_cases hs : s.index < e.tracers.length
    · rw [tracer_modifyTracer e s t f hs, tracer_modifyTracer e' s t f' (h.length ▸ hs)]
      split
      · next hst =>
        subst hst
        exact hf ht
      · exact h.tracer t ht
    · have hs' : ¬ s.index < e'.tracers.length := h.length ▸ hs
      rw [Engine.modifyTracer, Engine.modifyTracer, List.modify_eq_self (Nat.le_of_not_lt hs),
        List.modify_eq_self (Nat.le_of_not_lt hs')]
      exact h.tracer t ht

/-- An exchange that reaches an interceptor of that tracer does not show. -/
theorem enter_left (h : e.AlikeBut v b e') {i : Interceptor} (hi : i.tracer = b)
    (hstore : i.store = b) (x : Exchange) : (e.enter i x).AlikeBut v b e' := by
  subst hi
  cases henabled : (e.tracer i.tracer).enabled with
  | true =>
    rw [enter_of_enabled henabled]
    exact (h.modifyTracer_left _).congr_tracers (e.tracers_capture_self hstore x) rfl
  | false =>
    rw [enter_of_disabled henabled]
    exact h

/-- Captures that look the same leave them alike, wherever their events are stored. -/
theorem capture (h : e.AlikeBut v b e') {i : Interceptor} {x : Exchange}
    (heq : (e.captureOf i x).event?.map v.event = (e'.captureOf i x).event?.map v.event) :
    (e.capture i x).AlikeBut v b (e'.capture i x) := by
  have hcaptured := e.tracers_capture i x
  have hcaptured' := e'.tracers_capture i x
  cases hc : (e.captureOf i x).event? with
  | none =>
    rw [hc, Option.map_none, eq_comm, Option.map_eq_none_iff] at heq
    rw [hc] at hcaptured
    rw [heq] at hcaptured'
    refine (h.modifyTracer fun hi => ?_).congr_tracers hcaptured hcaptured'
    exact (h.tracer _ hi).nextCapture.lose
  | some event =>
    rw [hc, Option.map_some, eq_comm, Option.map_eq_some_iff] at heq
    obtain ⟨event', hc', hsame⟩ := heq
    rw [hc] at hcaptured
    rw [hc'] at hcaptured'
    have hnumbered : (e.modifyTracer i.tracer (·.nextCapture)).AlikeBut v b
        (e'.modifyTracer i.tracer (·.nextCapture)) :=
      h.modifyTracer fun hi => (h.tracer _ hi).nextCapture
    refine (hnumbered.modifyTracer fun hstore => ?_).congr_tracers hcaptured hcaptured'
    exact (hnumbered.tracer _ hstore).push hsame.symm

theorem concat (h : e.AlikeBut v b e') {e₁ e₁' : Engine} {t t' : Tracer} (ht : t.Alike v t')
    (he : e₁.tracers = e.tracers ++ [t]) (he' : e₁'.tracers = e'.tracers ++ [t']) :
    e₁.AlikeBut v b e₁' where
  length := by rw [he, he', List.length_append, List.length_append, h.length]; rfl
  tracer s hs := by
    have hlength := h.length
    rcases lt_trichotomy s.index e.tracers.length with hlt | heq | hgt
    · have hold := h.tracer s hs
      rw [Engine.tracer, Engine.tracer, List.getD_eq_getElem?_getD, List.getD_eq_getElem?_getD]
        at hold ⊢
      rwa [he, he', List.getElem?_append_left hlt, List.getElem?_append_left (hlength ▸ hlt)]
    · rw [Engine.tracer, Engine.tracer, List.getD_eq_getElem?_getD, List.getD_eq_getElem?_getD,
        he, he', heq, List.getElem?_concat_length, hlength, List.getElem?_concat_length]
      exact ht
    · rw [tracer_of_length_le, tracer_of_length_le]
      · exact .refl _ _
      · rw [he', List.length_append, List.length_singleton]
        omega
      · rw [he, List.length_append, List.length_singleton]
        omega

/-- The same tracer is made on both sides, or none is. -/
theorem newTracer (h : e.AlikeBut v b e') (c : Config) (f : Option FactoryRef) :
    (e.newTracer c f).1.AlikeBut v b (e'.newTracer c f).1 := by
  obtain ⟨stop, hstop⟩ | ⟨backlog, hok⟩ := Tracer.ofConfig_cases c
  · unfold Engine.newTracer
    cases f <;> simp only [hstop] <;> exact h
  · have hfresh (f f' : FactoryRef) :
        (Tracer.fresh c backlog f).Alike v (Tracer.fresh c backlog f') :=
      ⟨rfl, rfl, rfl, rfl, rfl, rfl, rfl, rfl, rfl, rfl⟩
    unfold Engine.newTracer
    cases f <;> simp only [hok] <;> exact h.concat (hfresh _ _) rfl rfl

end AlikeBut

namespace EqualBut

/-- An engine is equal to itself if the nodes whose ids are seen have some. -/
theorem refl (b : TracerRef) (h : ∀ n, v.named n → n.hasId e.ids = true) : e.EqualBut v b e where
  length := rfl
  tracer _ _ := .refl v _
  named n hn := (Option.isSome_iff_exists.mp (h n hn)).imp fun _ hid => ⟨hid, hid⟩

/-- Nodes have the ids from their definitions. -/
theorem refl_given (b : TracerRef) (e : Engine) : e.EqualBut .given b e :=
  .refl b fun n (hn : n.hasCustomId = true) => by
    obtain ⟨id, hid⟩ := Option.isSome_iff_exists.mp hn
    rw [Node.hasId, Node.id?, hid]
    rfl

theorem symm (h : e.EqualBut v b e') : e'.EqualBut v b e :=
  ⟨h.toAlikeBut.symm, fun n hn => (h.named n hn).imp fun _ hid => hid.symm⟩

theorem trans {e'' : Engine} (h : e.EqualBut v b e') (h' : e'.EqualBut v b e'') :
    e.EqualBut v b e'' where
  length := h.length.trans h'.length
  tracer s hs := (h.tracer s hs).trans (h'.tracer s hs)
  named n hn := by
    obtain ⟨id, hid, hmid⟩ := h.named n hn
    obtain ⟨id', hmid', hid'⟩ := h'.named n hn
    cases hmid.symm.trans hmid'
    exact ⟨id, hid, hid'⟩

/-- The ids that are seen stay whatever is done. -/
theorem of_alikeBut {e₁ e₁' : Engine} (h : e.EqualBut v b e') (halike : e₁.AlikeBut v b e₁')
    (hids : e.ids.KeptBy e₁.ids) (hids' : e'.ids.KeptBy e₁'.ids) : e₁.EqualBut v b e₁' where
  toAlikeBut := halike
  named n hn := (h.named n hn).imp fun id hid => ⟨hids n id hid.1, hids' n id hid.2⟩

/-- What is done to that tracer alone does not show. -/
theorem act_left (h : e.EqualBut v b e') {a : Action} (hof : a.isOf b = true)
    (ha : a.RecordsApart v b) : (e.act a).EqualBut v b e' := by
  refine h.of_alikeBut ?_ (e.keptBy_act a) (.refl _)
  have halike := h.toAlikeBut
  cases a with
  | enter i x =>
    have hi : i.tracer = b := of_decide_eq_true hof
    exact halike.enter_left hi (ha.1 hi) x
  | perform r c =>
    obtain rfl : r = b := of_decide_eq_true hof
    exact (halike.modifyTracer_left _).congr_tracers (e.tracers_perform r c) rfl
  | track r n =>
    obtain rfl : r = b := of_decide_eq_true hof
    exact (halike.modifyTracer_left _).congr_tracers (e.tracers_track r n) rfl
  | untrack r n =>
    obtain rfl : r = b := of_decide_eq_true hof
    exact halike.modifyTracer_left _
  | _ => cases hof

/-- Nor does what is reported. -/
theorem log_left (h : e.EqualBut v b e') (entry : Entry) : (e.log entry).EqualBut v b e' :=
  h.of_alikeBut (h.toAlikeBut.congr_tracers rfl rfl) (.refl _) (.refl _)

/-- Captures of others look the same. -/
theorem event?_captureOf (h : e.EqualBut v b e') {i : Interceptor} (hi : i.tracer ≠ b)
    (hnode : v.byNode = true → v.named i.node) (x : Exchange) :
    (e.captureOf i x).event?.map v.event = (e'.captureOf i x).event?.map v.event := by
  have ht := h.tracer i.tracer hi
  have hlimit : (e.tracer i.tracer).bodyMaxChars = (e'.tracer i.tracer).bodyMaxChars :=
    ht.bodyMaxChars
  have hnumber : (e.captureOf i x).traceId = (e'.captureOf i x).traceId :=
    congrArg (· + 1) ht.traceCounter
  have hnode : v.byNode = true → (e.captureOf i x).toNode = (e'.captureOf i x).toNode := by
    intro hv
    obtain ⟨id, hid, hid'⟩ := h.named _ (hnode hv)
    show (e.nodeId _ i.node).2 = (e'.nodeId _ i.node).2
    rw [nodeId_of_some hid, nodeId_of_some hid']
  rw [Capture.event?, Capture.event?, Option.map_map, Option.map_map]
  show (Snapshot.capture x (e.captureOf i x).toNode _).toOption.map _ =
    (Snapshot.capture x (e'.captureOf i x).toNode _).toOption.map _
  rw [Snapshot.capture, Snapshot.capture, hlimit]
  cases x.body.text? with
  | error reason => rfl
  | ok text =>
    refine congrArg some ?_
    simp only [Function.comp, Interceptor.event, View.event, hnumber]
    cases hv : v.byNode with
    | true =>
      rw [hnode hv]
      rfl
    | false => rfl

/-- **What is done on both sides leaves them equal.** -/
theorem act (h : e.EqualBut v b e') {a : Action} (ha : a.RecordsApart v b) :
    (e.act a).EqualBut v b (e'.act a) := by
  refine h.of_alikeBut ?_ (e.keptBy_act a) (e'.keptBy_act a)
  have halike := h.toAlikeBut
  cases a with
  | enter i x =>
    obtain ⟨hstore, hnode⟩ := ha
    by_cases hi : i.tracer = b
    · exact ((halike.enter_left hi (hstore hi) x).symm.enter_left hi (hstore hi) x).symm
    · have ht := h.tracer i.tracer hi
      cases henabled : (e.tracer i.tracer).enabled with
      | true =>
        rw [Engine.act, Engine.act, enter_of_enabled henabled,
          enter_of_enabled (ht.enabled ▸ henabled)]
        exact halike.capture (h.event?_captureOf hi (hnode hi) x)
      | false =>
        rw [Engine.act, Engine.act, enter_of_disabled henabled,
          enter_of_disabled (ht.enabled ▸ henabled)]
        exact halike
  | perform s c =>
    exact (halike.modifyTracer fun hs => (h.tracer s hs).obey c).congr_tracers
      (tracers_perform ..) (tracers_perform ..)
  | track s n =>
    refine (halike.modifyTracer fun hs => ?_).congr_tracers (tracers_track ..) (tracers_track ..)
    exact (h.tracer s hs).ifLive ((h.tracer s hs).track n)
  | untrack s n => exact halike.modifyTracer fun hs => (h.tracer s hs).untrack n
  | newTracer c f => exact halike.newTracer c f
  | visit name kind => exact halike.congr_tracers (tracers_visit ..) (tracers_visit ..)
  | _ => exact halike.congr_tracers rfl rfl

end EqualBut

/-! ### Answers -/

/-- What needs a live tracer is answered alike if tracers that look alike answer it alike. -/
theorem AlikeBut.snd_withUsable (h : e.AlikeBut v b e') {s : TracerRef} (hs : s ≠ b) {α : Type}
    {act act' : Tracer → Engine × Except Stop α} {f : α → Reply} {g : Reply → Reply}
    (hact : ((act (e.tracer s)).2.map f).map g = ((act' (e'.tracer s)).2.map f).map g) :
    (answer f (e.withUsable s act)).2.map g = (answer f (e'.withUsable s act')).2.map g := by
  rw [answer, answer, withUsable, withUsable, (h.tracer s hs).isShutDown]
  split
  · rfl
  · exact hact

/-- **The answers of other tracers look the same.** -/
theorem AlikeBut.answers (h : e.AlikeBut v b e') {s : TracerRef} (hs : s ≠ b) (c : Command) :
    (e.perform s c).2.map (v.shown c) = (e'.perform s c).2.map (v.shown c) := by
  have ht := h.tracer s hs
  have hread {α : Type} (f : α → Reply) {g : Reply → Reply} {a a' : α} (ha : a = a') :
      (Except.ok (f a) : Except Stop Reply).map g = (Except.ok (f a')).map g := by
    rw [ha]
  cases c with
  | isEnabled => exact h.snd_withUsable hs (hread .flag ht.enabled)
  | backlogSize => exact h.snd_withUsable hs (hread .number ht.backlogSize)
  | traceCounter => exact h.snd_withUsable hs (hread .number ht.traceCounter)
  | setBacklogSize size =>
    refine h.snd_withUsable hs ?_
    dsimp only
    split <;> rfl
  | lossPolicy => exact hread .policy ht.lossPolicy
  | captureFailures => exact hread .number ht.captureFailures
  | trackedNodeCount => exact hread (fun m => .count m.size) ht.tracked
  | stats => exact hread .stats ht.backlog.stats
  | state => exact hread .state ht.state
  | describe => exact hread .text ht.describe
  | dump id =>
    refine h.snd_withUsable hs (congrArg Except.ok (v.shown_congr fun hv => ?_))
    exact congrArg Reply.events (ht.dump (hv.resolve_right Bool.noConfusion) id)
  | latest id =>
    refine h.snd_withUsable hs (congrArg Except.ok (v.shown_congr fun hv => ?_))
    exact congrArg Reply.events (ht.latest (hv.resolve_right Bool.noConfusion) id)
  | dumpAll =>
    refine h.snd_withUsable hs (congrArg Except.ok (v.shown_congr fun _ => ?_))
    exact congrArg Reply.events ht.backlog.events
  | backlog c => exact congrArg Except.ok (v.shown_congr fun hv => ht.backlog.reply hv)
  | setEnabled | setLossPolicy | resetTraceCounter | start | stop | shutDown =>
    exact h.snd_withUsable hs rfl

/-- So programs that go by what is seen find nothing out in a passage that asks nothing of that
tracer. -/
theorem respects_equalBut (v : View) (b : TracerRef) :
    Respects v (EqualBut v b) (Action.Apart v b) where
  act ha h := h.act ha.records
  answers hs h := h.toAlikeBut.answers hs _
  ids _ h hn := by
    obtain ⟨id, hid, hid'⟩ := h.named _ hn
    rw [hid, hid']

end Engine

end TraceBacklog
