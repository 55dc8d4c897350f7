/-
# A shutdown is final

A tracer that was shut down is one that a shutdown would not change any more
(`Tracer.Ended`): disabled, without nodes and without events. From then on nothing changes
it at all, as long as nobody else puts events into its backlog. Requests that need a live
tracer abort and leave the whole engine as it is. Everything else goes on without the
tracer: an exchange passes its interceptors, and a processor is torn down, as if they were
not there (`Processor.without`).

The order of things matters in each operation: it looks at the state of the tracer before
it touches a node, a setting or an id. So one lemma for one action (`Engine.tracer_act_of_ended`)
is all that a run needs, and it makes no difference where in the run the shutdown came, in
the middle of a passage for example.

Key definitions: `Tracer.Ended`, `Action.StoresOwn`, `Processor.without`.
Key theorems: `Engine.tracer_actAll_of_ended`, `Engine.perform_of_isShutDown`,
`Processor.process_without`, `Engine.shutdown_is_final`.
-/
import TraceBacklog.Proofs.Engine.Run

namespace TraceBacklog

/-- Only the tracer's own interceptors put events into its backlog. -/
def Action.StoresOwn (r : TracerRef) : Action → Prop
  | .enter i _ => i.store = r → i.tracer = r
  | .perform s (.backlog (.push _)) => s ≠ r
  | .perform s (.backlog (.pushAll _)) => s ≠ r
  | _ => True

/-! ### A tracer at its end -/

/-- What is empty is drained of nothing. -/
theorem Backlog.drain_clear (b : Backlog) : b.clear.drain.1 = b.clear :=
  congrArg (fun drained => { b.clear with drained := drained }) (UInt64.add_zero b.drained)

/-- Nothing can be done to an empty backlog but to put events into it. -/
theorem Backlog.perform_of_clear_eq {b : Backlog} (h : b.clear = b) {c : Command}
    (hpush : ∀ event, c ≠ .push event) (hpushAll : ∀ events, c ≠ .pushAll events) :
    (b.perform c).1 = b := by
  cases c with
  | push event => exact absurd rfl (hpush event)
  | pushAll events => exact absurd rfl (hpushAll events)
  | drain =>
    rw [← h]
    exact b.drain_clear
  | clear => exact h
  | _ => rfl

namespace Tracer

/-- A shutdown would change nothing any more. -/
def Ended (t : Tracer) : Prop := t.shutDown = t

theorem ended_shutDown (t : Tracer) : t.shutDown.Ended := rfl

namespace Ended

variable {t : Tracer} (h : t.Ended)

include h

theorem state : t.state = .shutdown := by rw [← h]; rfl

theorem isShutDown : t.isShutDown = true := decide_eq_true h.state

theorem enabled : t.enabled = false := by rw [← h]; rfl

theorem tracked : t.tracked = .empty := by rw [← h]; rfl

theorem clear_backlog : t.backlog.clear = t.backlog := by rw [← h]; rfl

theorem ifLive (f : Tracer → Tracer) : t.ifLive f = t := if_pos h.isShutDown

theorem untrack (n : Node) : t.untrack n = t := if_pos h.isShutDown

/-- What a tracer is asked does not change it any more. -/
theorem obey {c : Command} (hpush : ∀ event, c ≠ .backlog (.push event))
    (hpushAll : ∀ events, c ≠ .backlog (.pushAll events)) : t.obey c = t := by
  cases hlive : c.needsLive with
  | true =>
    rw [Tracer.obey, hlive, h.isShutDown]
    rfl
  | false =>
    refine obey_of_apply ?_
    cases c with
    | backlog c =>
      have hsame := Backlog.perform_of_clear_eq h.clear_backlog (c := c)
        (fun event he => hpush event (congrArg _ he)) fun events he =>
          hpushAll events (congrArg _ he)
      show { t with backlog := (t.backlog.perform c).1 } = t
      rw [hsame]
    | lossPolicy | captureFailures | trackedNodeCount | stats | state | describe => rfl
    | _ => cases hlive

end Ended

end Tracer

/-! ### Nothing changes it -/

namespace Engine

variable {e : Engine} {r : TracerRef}

/-- A tracer that was shut down is one of the engine's: what is out of range was not. -/
theorem lt_length_of_isShutDown (h : (e.tracer r).isShutDown = true) :
    r.index < e.tracers.length := by
  by_contra hle
  rw [tracer_of_length_le (Nat.le_of_not_lt hle)] at h
  cases h

theorem modifyTracer_of_ended (h : (e.tracer r).Ended) {f : Tracer → Tracer}
    (hf : f (e.tracer r) = e.tracer r) (s : TracerRef) :
    (e.modifyTracer s f).tracer r = e.tracer r := by
  by_cases hs : s = r
  · subst hs
    rw [modifyTracer_eq_self hf]
  · exact tracer_modifyTracer_of_ne e f hs

/-- An interceptor whose tracer was shut down lets every exchange pass. -/
theorem enter_of_ended {i : Interceptor} (h : (e.tracer i.tracer).Ended) (x : Exchange) :
    e.enter i x = e := enter_of_disabled h.enabled x

theorem untrack_of_ended (h : (e.tracer r).Ended) (n : Node) : e.untrack r n = e :=
  modifyTracer_eq_self (h.untrack n)

/-- No action changes a tracer that was shut down. -/
theorem tracer_act_of_ended (h : (e.tracer r).Ended) {a : Action} (ha : a.StoresOwn r) :
    (e.act a).tracer r = e.tracer r := by
  cases a with
  | enter i x =>
    by_cases hi : i.tracer = r
    · subst hi
      rw [act, enter_of_ended h]
    · have hstore : i.store ≠ r := fun hr => hi (ha hr)
      cases henabled : (e.tracer i.tracer).enabled with
      | true => rw [act, enter_of_enabled henabled, tracer_capture_of_ne e hi hstore]
      | false => rw [act, enter_of_disabled henabled]
  | perform s c =>
    rw [act, tracer_congr (e.tracers_perform s c)]
    by_cases hs : s = r
    · subst hs
      refine congrArg (tracer · s) (modifyTracer_eq_self (h.obey ?_ ?_))
      · rintro event rfl
        exact ha rfl
      · rintro events rfl
        exact ha rfl
    · exact tracer_modifyTracer_of_ne e _ hs
  | track s n =>
    rw [act, tracer_congr (e.tracers_track s n)]
    exact modifyTracer_of_ended h (h.ifLive _) s
  | untrack s n => exact modifyTracer_of_ended h (h.untrack n) s
  | newTracer c f => exact tracer_newTracer_of_lt (lt_length_of_isShutDown h.isShutDown) c f
  | visit name kind => exact tracer_congr (e.tracers_visit name kind) r
  | _ => rfl

theorem tracer_actAll_of_ended (h : (e.tracer r).Ended) {actions : List Action}
    (ha : ∀ a ∈ actions, a.StoresOwn r) : (e.actAll actions).tracer r = e.tracer r := by
  induction actions generalizing e with
  | nil => rfl
  | cons a rest ih =>
    have hact := tracer_act_of_ended h (ha a List.mem_cons_self)
    rw [actAll_cons, ih (hact ▸ h) fun b hb => ha b (List.mem_cons_of_mem _ hb), hact]

/-! ### What aborts -/

theorem perform_of_isShutDown (h : (e.tracer r).isShutDown = true) {c : Command}
    (hc : c.needsLive = true) :
    e.perform r c = (e, .error (.aborted .usedAfterShutdown)) := by
  have hlive {α : Type} (act : Tracer → Engine × Except Stop α) :
      e.withUsable r act = (e, .error (.aborted .usedAfterShutdown)) := withUsable_of_isShutDown h
  cases c with
  | lossPolicy | captureFailures | trackedNodeCount | stats | state | describe | backlog =>
    cases hc
  | _ => exact congrArg (answer _) (hlive _)

theorem track_of_isShutDown (h : (e.tracer r).isShutDown = true) (n : Node) :
    e.track r n = (e, .error (.aborted .usedAfterShutdown)) := by
  rw [track, useTracer, withUsable_of_isShutDown h]

theorem wrap_of_isShutDown (h : (e.tracer r).isShutDown = true) (route : Option Route) (n : Node)
    (target : Processor) :
    e.wrap route n (.trace r) target = (e, .error (.aborted .usedAfterShutdown)) := by
  rw [wrap, track_of_isShutDown h]

/-- A route with an output cannot be built any more. -/
theorem build_of_isShutDown (h : (e.tracer r).isShutDown = true) {strategies : List Strategy}
    (hr : .trace r ∈ strategies) {route : Route} (hout : route.outputs ≠ []) :
    (e.build strategies route).2 = .error (.aborted .usedAfterShutdown) := by
  have hrefuses : e.refuses strategies = true := List.any_eq_true.mpr ⟨_, hr, h⟩
  rw [build_eq, if_pos ⟨hrefuses, hout⟩]

/-- What needs no live tracer is answered. -/
theorem perform_isOk (e : Engine) (r : TracerRef) {c : Command} (hc : c.needsLive = false) :
    ∃ reply, (e.perform r c).2 = .ok reply := by
  cases c with
  | lossPolicy | captureFailures | trackedNodeCount | stats | state | describe | backlog =>
    exact ⟨_, rfl⟩
  | _ => cases hc

end Engine

/-! ### What goes on -/

namespace Processor

mutual

/-- A processor without the interceptors of a tracer. -/
def without (r : TracerRef) : Processor → Processor
  | .leaf name steps => .leaf name steps
  | .pipeline stages => .pipeline (withoutAll r stages)
  | .traced i target => if i.tracer = r then target.without r else .traced i (target.without r)
  | .handled handler target => .handled handler (target.without r)

def withoutAll (r : TracerRef) : List Processor → List Processor
  | [] => []
  | p :: rest => p.without r :: withoutAll r rest

end

end Processor

/-- Targets that do the same to an exchange in engines of a kind do the same for a program, if they
and what happens in the program lead to engines of this kind again. -/
theorem Handling.run_congr {kind : Engine → Prop} {ok : Action → Prop}
    (hact : ∀ {e a}, kind e → ok a → kind (e.act a)) {τ : Type}
    {target target' : τ → Engine → Exchange → Passage}
    (hkind : ∀ t {e} x, kind e → kind (target t e x).engine)
    (h : ∀ t {e} x, kind e → target t e x = target' t e x) {s : Handling τ} (hs : s.Within ok)
    {e : Engine} (he : kind e) : s.run target e = s.run target' e := by
  induction s generalizing e with
  | finish x outcome => rfl
  | send t x next ih =>
    rw [run, run, ← h t x he]
    exact ih _ _ (hs _ _) (hkind t x he)
  | ask r c next ih => exact ih _ (hs.2 _) (hact he hs.1)
  | look n next ih => exact ih _ (hs.2 _) he

namespace Processor

variable {r : TracerRef}

theorem ended_act {e : Engine} {a : Action} (h : (e.tracer r).Ended) (ha : a.StoresOwn r) :
    ((e.act a).tracer r).Ended := by
  rw [Engine.tracer_act_of_ended h ha]
  exact h

theorem ended_process {e : Engine} (h : (e.tracer r).Ended) {p : Processor}
    (hp : p.Within (Action.StoresOwn r)) (x : Exchange) :
    ((p.process e x).engine.tracer r).Ended := by
  rw [engine_process, Engine.tracer_actAll_of_ended h (within_actions e x hp)]
  exact h

mutual

/-- Exchanges pass the interceptors of a tracer that was shut down. -/
theorem process_without {e : Engine} (h : (e.tracer r).Ended) (x : Exchange) :
    ∀ {p : Processor}, p.Within (Action.StoresOwn r) →
      p.process e x = (p.without r).process e x
  | .leaf name steps, _ => by rw [without]
  | .pipeline stages, hp => by
    rw [Within] at hp
    rw [without, process, process]
    exact processAll_without h x hp
  | .traced i target, hp => by
    rw [Within] at hp
    rw [without, process]
    by_cases hi : i.tracer = r
    · rw [if_pos hi, Engine.enter_of_ended (hi ▸ h)]
      exact process_without h x hp.2
    · rw [if_neg hi, process]
      exact process_without (ended_act h (hp.1 x)) x hp.2
  | .handled handler target, hp => by
    rw [Within] at hp
    rw [without, process, process]
    exact Handling.run_congr ended_act (fun _ _ x he => ended_process he hp.2 x)
      (fun _ _ x he => process_without he x hp.2) (hp.1 x) h

theorem processAll_without {e : Engine} (h : (e.tracer r).Ended) (x : Exchange) :
    ∀ {ps : List Processor}, AllWithin (Action.StoresOwn r) ps →
      processAll e x ps = processAll e x (withoutAll r ps)
  | [], _ => by rw [withoutAll]
  | p :: rest, hp => by
    rw [AllWithin] at hp
    have hended := ended_process h hp.1 x
    rw [withoutAll, processAll, processAll, ← process_without h x hp.1]
    generalize p.process e x = passage at hended
    obtain ⟨e', x', outcome⟩ := passage
    cases outcome with
    | ok => exact processAll_without hended x' hp.2
    | error stop => rfl

end

mutual

/-- Tearing down has nothing to do at such interceptors. -/
theorem stop_without {e : Engine} (h : (e.tracer r).Ended) :
    ∀ p : Processor, p.stop e = (p.without r).stop e
  | .leaf name steps => by rw [without]
  | .pipeline stages => by
    rw [without, stop, stop]
    exact stopAll_without h stages
  | .traced i target => by
    rw [without, stop]
    by_cases hi : i.tracer = r
    · rw [if_pos hi, hi, Engine.untrack_of_ended h]
      exact stop_without h target
    · rw [if_neg hi, stop]
      exact stop_without (ended_act (a := .untrack i.tracer i.node) h trivial) target
  | .handled handler target => by rw [without, stop, stop]

theorem stopAll_without {e : Engine} (h : (e.tracer r).Ended) :
    ∀ ps : List Processor, stopAll e ps = stopAll e (withoutAll r ps)
  | [] => by rw [withoutAll]
  | p :: rest => by
    have hended : ((p.stop e).tracer r).Ended := by
      have hbook : ∀ a ∈ p.stopActions, a.StoresOwn r := fun a ha => by
        have := p.stopActions_isBookkeeping a ha
        cases a with
        | perform s c => exact this.elim
        | enter i x => exact this.elim
        | _ => trivial
      rw [stop_eq_actAll, Engine.tracer_actAll_of_ended h hbook]
      exact h
    rw [withoutAll, stopAll, stopAll, ← stop_without h p]
    exact stopAll_without hended rest

end

end Processor

namespace Engine

/-- **A shutdown is final.** Let a tracer be made, and be shut down somewhere in a run; after
that nobody but its own interceptors puts events into its backlog. Then at the end of the
run, wherever this is, the tracer is shut down and disabled, it has neither nodes nor events,
and its settings and counters are those that it had before the shutdown. What needs a live
tracer aborts and changes nothing in the engine; so does putting the tracer in front of a
node, and no route with an output can be built with it. What needs no live tracer is
answered, no exchange is to be captured, and exchanges go through processors, and these are
torn down, as they are without the interceptors of the tracer. -/
theorem shutdown_is_final {e made : Engine} {config : Config} {f : Option FactoryRef}
    {r : TracerRef} (hnew : e.newTracer config f = (made, .ok r)) {ops : List Operation}
    {before later : List Action}
    (hrun : made.actionsAll ops = before ++ .perform r .shutDown :: later)
    (hlive : ((made.actAll before).tracer r).isShutDown = false)
    (hown : ∀ a ∈ later, a.StoresOwn r) :
    let last := (made.actAll before).tracer r
    let now := made.operateAll ops
    let t := now.tracer r
    let stop := Stop.aborted .usedAfterShutdown
    (t.state = .shutdown ∧ t.enabled = false ∧ t.trackedNodes = [] ∧ t.backlog.events = []) ∧
    (t.traceCounter = last.traceCounter ∧ t.captureFailures = last.captureFailures ∧
      t.lossPolicy = last.lossPolicy ∧ t.backlogSize = last.backlogSize ∧
      t.backlog.stats = { last.backlog.stats with len := 0 }) ∧
    ((∀ c : Command, c.needsLive = true → now.perform r c = (now, .error stop)) ∧
      (∀ n, now.track r n = (now, .error stop)) ∧
      (∀ route n target, now.wrap route n (.trace r) target = (now, .error stop)) ∧
      ∀ strategies route, .trace r ∈ strategies → route.outputs ≠ [] →
        (now.build strategies route).2 = .error stop) ∧
    ((∀ c : Command, c.needsLive = false → ∃ reply, (now.perform r c).2 = .ok reply) ∧
      now.perform r .state = (now, .ok (.state .shutdown)) ∧
      now.perform r .trackedNodeCount = (now, .ok (.count 0)) ∧
      now.perform r .captureFailures = (now, .ok (.number last.captureFailures)) ∧
      now.perform r .stats = (now, .ok (.stats { last.backlog.stats with len := 0 })) ∧
      now.shouldTrace r = false) ∧
    ∀ p : Processor, p.Within (Action.StoresOwn r) →
      (∀ x, p.process now x = (p.without r).process now x) ∧
        p.stop now = (p.without r).stop now := by
  intro last now t stop
  have hr : r.index < (made.actAll before).tracers.length :=
    (tracer_of_newTracer_eq hnew).1.trans_le (made.length_tracers_le_actAll before)
  have hdown : ((made.actAll before).act (.perform r .shutDown)).tracer r = last.shutDown := by
    rw [act, tracer_perform_self .shutDown hr, Tracer.obey, hlive]
    rfl
  have ht : t = last.shutDown := by
    show (made.operateAll ops).tracer r = last.shutDown
    rw [operateAll_eq_actAll, hrun, actAll_append, actAll_cons,
      tracer_actAll_of_ended (hdown ▸ last.ended_shutDown) hown, hdown]
  have hended : t.Ended := ht ▸ last.ended_shutDown
  have hdead : (now.tracer r).isShutDown = true := hended.isShutDown
  refine ⟨?_, ?_, ?_, ?_, fun p hp => ⟨fun x => p.process_without hended x hp,
    p.stop_without hended⟩⟩
  · rw [ht]
    exact ⟨rfl, rfl, rfl, rfl⟩
  · rw [ht]
    exact ⟨rfl, rfl, rfl, rfl, rfl⟩
  · exact ⟨fun c hc => perform_of_isShutDown hdead hc, track_of_isShutDown hdead,
      wrap_of_isShutDown hdead, fun _ _ hmem hout => build_of_isShutDown hdead hmem hout⟩
  · refine ⟨fun c hc => now.perform_isOk r hc, ?_⟩
    simp only [perform, shouldTrace]
    rw [show now.tracer r = last.shutDown from ht]
    exact ⟨rfl, rfl, rfl, rfl, rfl⟩

/-- The first of two stages shuts the tracer down that has just captured the exchange. The
second one is not captured any more, and the pipeline is torn down as usual. -/
theorem shutdown_is_final_in_passage :
    let e := ((initial .epoch).newFactory .fresh).1
    let made := (e.newTracer { Config.default with enabled := true } (some ⟨0⟩)).1
    let first := interceptor ⟨0⟩ none ⟨⟨0⟩, "to", none, []⟩
    let second := interceptor ⟨0⟩ none ⟨⟨1⟩, "to", none, []⟩
    let x := Exchange.new "X1" (.text "late")
    let p := Processor.pipeline [.traced first (.leaf none [.operate ⟨0⟩ .shutDown]),
      .traced second (.leaf none [])]
    let ops : List Operation := [.act (.track ⟨0⟩ first.node), .process p x, .stop p]
    let before : List Action := [.track ⟨0⟩ first.node, .enter first x, .visit none .called]
    let later : List Action := [.enter second x, .visit none .called, .untrack ⟨0⟩ first.node,
      .visit none .stopped, .untrack ⟨0⟩ second.node, .visit none .stopped]
    let now := made.operateAll ops
    e.newTracer { Config.default with enabled := true } (some ⟨0⟩) = (made, .ok ⟨0⟩) ∧
    made.actionsAll ops = before ++ .perform ⟨0⟩ .shutDown :: later ∧
    ((made.actAll before).tracer ⟨0⟩).isShutDown = false ∧
    (∀ a ∈ later, a.StoresOwn ⟨0⟩) ∧
    (now.tracer ⟨0⟩).state = .shutdown ∧ (now.tracer ⟨0⟩).traceCounter = 1 ∧
    now.perform ⟨0⟩ (.setBacklogSize (-1)) = (now, .error (.aborted .usedAfterShutdown)) ∧
    now.perform ⟨0⟩ .trackedNodeCount = (now, .ok (.count 0)) := by
  intro e made first second x p ops before later now
  have hnew : e.newTracer { Config.default with enabled := true } (some ⟨0⟩) = (made, .ok ⟨0⟩) :=
    rfl
  have hrun : made.actionsAll ops = before ++ .perform ⟨0⟩ .shutDown :: later := rfl
  have hlive : ((made.actAll before).tracer ⟨0⟩).isShutDown = false := rfl
  have hown : ∀ a ∈ later, a.StoresOwn ⟨0⟩ := by
    simp [later, Action.StoresOwn, first, second, interceptor]
  obtain ⟨⟨hstate, -⟩, ⟨hcounter, -⟩, ⟨haborts, -⟩, ⟨-, -, hcount, -⟩, -⟩ :=
    shutdown_is_final hnew hrun hlive hown
  exact ⟨hnew, hrun, hlive, hown, hstate, hcounter, haborts _ rfl, hcount⟩

end Engine

end TraceBacklog
