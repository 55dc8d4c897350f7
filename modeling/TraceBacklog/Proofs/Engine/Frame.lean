/-
# What becomes of the tracers of an engine

Every operation of an engine changes at most one tracer by a function of that tracer
alone and leaves the others as they are. For a command this function is `Tracer.obey`:
the command's effect, unless the tracer was shut down and the command needs a live one
(`tracers_perform`, `aborts_perform`). Naming nodes, logging and visits touch no tracer.

Key definitions: `Command.needsLive`, `Tracer.apply`, `Tracer.ifLive`, `Tracer.obey`.
Key theorems: `Engine.tracer_modifyTracer_keeps`, `Engine.tracers_perform`,
`Engine.aborts_perform`.
-/
import Mathlib.Tactic.Common
import TraceBacklog.Engine.Command
import TraceBacklog.Interceptor

namespace TraceBacklog

/-! ### Commands on one tracer -/

/-- Does the command need a tracer that was not shut down? -/
def Command.needsLive : Command → Bool
  | .lossPolicy => false
  | .captureFailures => false
  | .trackedNodeCount => false
  | .stats => false
  | .state => false
  | .describe => false
  | .backlog _ => false
  | _ => true

namespace Tracer

/-- What a command does to a tracer that carries it out. -/
def apply (t : Tracer) : Command → Tracer
  | .setEnabled enabled => { t with enabled := enabled }
  | .setBacklogSize size =>
    if 0 < size.toInt then { t with backlogSize := UInt64.ofNat size.toInt.toNat } else t
  | .setLossPolicy policy => { t with lossPolicy := policy }
  | .resetTraceCounter => { t with traceCounter := 0 }
  | .start => { t with state := .started }
  | .stop => t.stop
  | .shutDown => t.shutDown
  | .dumpAll => { t with backlog := t.backlog.drain.1 }
  | .backlog c => { t with backlog := (t.backlog.perform c).1 }
  | _ => t

/-- Does something to a tracer that was not shut down. -/
def ifLive (t : Tracer) (f : Tracer → Tracer) : Tracer := if t.isShutDown then t else f t

/-- What a command does to a tracer: nothing if it needs a live one and this one was shut
down. -/
def obey (t : Tracer) (c : Command) : Tracer :=
  if c.needsLive && t.isShutDown then t else t.apply c

theorem obey_of_apply {t : Tracer} {c : Command} (h : t.apply c = t) : t.obey c = t := by
  unfold obey
  split
  · rfl
  · exact h

end Tracer

namespace Engine

/-! ### Changing one tracer -/

@[simp] theorem length_tracers_modifyTracer (e : Engine) (r : TracerRef) (f : Tracer → Tracer) :
    (e.modifyTracer r f).tracers.length = e.tracers.length := by
  simp [modifyTracer]

theorem tracer_congr {e e' : Engine} (h : e.tracers = e'.tracers) (r : TracerRef) :
    e.tracer r = e'.tracer r := by
  rw [tracer, tracer, h]

theorem tracer_of_length_le {e : Engine} {r : TracerRef} (h : e.tracers.length ≤ r.index) :
    e.tracer r = default := by
  simp [tracer, List.getD_eq_getElem?_getD, List.getElem?_eq_none h]

/-- A tracer that is enabled is one of the engine's: what is out of range is not. -/
theorem lt_length_of_enabled {e : Engine} {r : TracerRef} (h : (e.tracer r).enabled = true) :
    r.index < e.tracers.length := by
  by_contra hle
  rw [tracer_of_length_le (Nat.le_of_not_lt hle)] at h
  cases h

theorem tracer_modifyTracer_of_ne (e : Engine) {r s : TracerRef} (f : Tracer → Tracer)
    (h : r ≠ s) : (e.modifyTracer r f).tracer s = e.tracer s := by
  obtain ⟨i⟩ := r
  obtain ⟨j⟩ := s
  have hij : i ≠ j := fun hij => h (hij ▸ rfl)
  simp [modifyTracer, tracer, hij]

theorem tracer_modifyTracer_self {e : Engine} {r : TracerRef} (f : Tracer → Tracer)
    (h : r.index < e.tracers.length) : (e.modifyTracer r f).tracer r = f (e.tracer r) := by
  rw [tracer_modifyTracer e r r f h, if_pos rfl]

/-- What a change keeps of a tracer is kept of all of them. -/
theorem tracer_modifyTracer_keeps {α : Type} (keep : Tracer → α) (e : Engine) (r s : TracerRef)
    {f : Tracer → Tracer} (hf : ∀ t, keep (f t) = keep t) :
    keep ((e.modifyTracer r f).tracer s) = keep (e.tracer s) := by
  by_cases hr : r.index < e.tracers.length
  · rw [tracer_modifyTracer e r s f hr]
    split
    · exact hf _
    · rfl
  · rw [modifyTracer, List.modify_eq_self (Nat.le_of_not_lt hr)]

/-- Only what a change does to the tracer itself matters. -/
theorem modifyTracer_congr {e : Engine} {r : TracerRef} {f g : Tracer → Tracer}
    (h : f (e.tracer r) = g (e.tracer r)) : e.modifyTracer r f = e.modifyTracer r g := by
  have hlist : e.tracers.modify r.index f = e.tracers.modify r.index g := by
    refine List.ext_getElem? fun i => ?_
    rw [List.getElem?_modify, List.getElem?_modify]
    by_cases hi : r.index = i
    · subst hi
      cases ht : e.tracers[r.index]? with
      | none => rfl
      | some t =>
        have : e.tracer r = t := by simp [tracer, List.getD_eq_getElem?_getD, ht]
        simpa [this] using h
    · simp [hi]
  rw [modifyTracer, modifyTracer, hlist]

theorem modifyTracer_eq_self {e : Engine} {r : TracerRef} {f : Tracer → Tracer}
    (h : f (e.tracer r) = e.tracer r) : e.modifyTracer r f = e := by
  rw [modifyTracer_congr (g := id) h, modifyTracer, List.modify_id]

/-! ### Operations that touch no tracer -/

@[simp] theorem tracers_visit (e : Engine) (name : Option String) (kind : VisitKind) :
    (e.visit name kind).tracers = e.tracers := by
  cases name <;> rfl

@[simp] theorem tracers_nodeId (e : Engine) (f : FactoryRef) (n : Node) :
    (e.nodeId f n).1.tracers = e.tracers := by
  unfold nodeId
  split <;> rfl

/-! ### Making a tracer -/

/-- A tracer that is refused leaves nothing behind; one that is made comes last. -/
theorem newTracer_cases (e : Engine) (c : Config) (f : Option FactoryRef) :
    (∃ stop, e.newTracer c f = (e, .error stop)) ∨
    ∃ (e' : Engine) (t : Tracer) (factory : FactoryRef),
      Tracer.ofConfig c factory = .ok t ∧ e'.tracers = e.tracers ++ [t] ∧
        e.newTracer c f = (e', .ok ⟨e.tracers.length⟩) := by
  unfold newTracer
  cases f with
  | none =>
    dsimp only
    split
    · next stop _ => exact .inl ⟨stop, rfl⟩
    · next t h => exact .inr ⟨_, t, _, h, rfl, rfl⟩
  | some factory =>
    dsimp only
    split
    · next stop _ => exact .inl ⟨stop, rfl⟩
    · next t h => exact .inr ⟨_, t, _, h, rfl, rfl⟩

theorem length_tracers_le_newTracer (e : Engine) (c : Config) (f : Option FactoryRef) :
    e.tracers.length ≤ (e.newTracer c f).1.tracers.length := by
  obtain ⟨stop, h⟩ | ⟨e', t, factory, -, htracers, h⟩ := e.newTracer_cases c f
  · exact Nat.le_of_eq (by rw [h])
  · rw [h, htracers, List.length_append]
    exact Nat.le_add_right _ _

theorem tracer_newTracer_of_lt {e : Engine} {r : TracerRef} (hr : r.index < e.tracers.length)
    (c : Config) (f : Option FactoryRef) : (e.newTracer c f).1.tracer r = e.tracer r := by
  obtain ⟨stop, h⟩ | ⟨e', t, factory, -, htracers, h⟩ := e.newTracer_cases c f
  · rw [h]
  · rw [h, tracer, tracer, htracers, List.getD_eq_getElem?_getD, List.getD_eq_getElem?_getD,
      List.getElem?_append_left hr]

/-- A tracer that was made is there and has traced nothing. -/
theorem tracer_of_newTracer_eq {e e' : Engine} {c : Config} {f : Option FactoryRef}
    {r : TracerRef} (h : e.newTracer c f = (e', .ok r)) :
    r.index < e'.tracers.length ∧ ∃ factory,
      e'.tracer r = Tracer.fresh c (Backlog.ofCapacity c.capacity.toNat) factory := by
  obtain ⟨stop, herror⟩ | ⟨e'', t, factory, ht, htracers, hok⟩ := e.newTracer_cases c f
  · rw [h] at herror
    cases herror
  · rw [h] at hok
    cases hok
    have hfresh : t = Tracer.fresh c (Backlog.ofCapacity c.capacity.toNat) factory := by
      unfold Tracer.ofConfig at ht
      split at ht
      · cases ht
      · split at ht
        · cases ht
        · next b hb =>
          have hnew : b = Backlog.ofCapacity c.capacity.toNat := by
            unfold Backlog.new at hb
            split at hb
            · cases hb
              rfl
            · cases hb
          cases ht
          rw [hnew]
    refine ⟨?_, factory, ?_⟩
    · rw [htracers, List.length_append]
      exact Nat.lt_add_one _
    · rw [tracer, htracers, List.getD_eq_getElem?_getD, List.getElem?_concat_length]
      exact hfresh

/-! ### Commands -/

@[simp] theorem fst_answer {α : Type} (f : α → Reply) (result : Engine × Except Stop α) :
    (answer f result).1 = result.1 := rfl

theorem withUsable_of_isLive {α : Type} {e : Engine} {r : TracerRef}
    (h : (e.tracer r).isShutDown = false) (act : Tracer → Engine × Except Stop α) :
    e.withUsable r act = act (e.tracer r) := if_neg (h ▸ Bool.false_ne_true)

/-- What needs a live tracer leaves a tracer alone that was shut down. -/
theorem tracers_withUsable {α : Type} {e : Engine} {r : TracerRef}
    {act : Tracer → Engine × Except Stop α} {f : Tracer → Tracer}
    (h : (act (e.tracer r)).1.tracers = (e.modifyTracer r f).tracers) :
    (e.withUsable r act).1.tracers = (e.modifyTracer r (·.ifLive f)).tracers := by
  unfold withUsable
  by_cases hr : (e.tracer r).isShutDown = true
  · have hself : (e.tracer r).ifLive f = e.tracer r := if_pos hr
    rw [if_pos hr, modifyTracer_eq_self hself]
  · have hlive : (e.tracer r).ifLive f = f (e.tracer r) := if_neg hr
    rw [if_neg hr, h, modifyTracer_congr (g := (·.ifLive f)) hlive.symm]

theorem tracers_useTracer {e : Engine} {r : TracerRef} {act : Tracer → Engine}
    {f : Tracer → Tracer} (h : (act (e.tracer r)).tracers = (e.modifyTracer r f).tracers) :
    (e.useTracer r act).1.tracers = (e.modifyTracer r (·.ifLive f)).tracers :=
  tracers_withUsable h

theorem tracers_track (e : Engine) (r : TracerRef) (n : Node) :
    (e.track r n).1.tracers = (e.modifyTracer r (·.ifLive (·.track n))).tracers := by
  refine tracers_useTracer ?_
  show (if (e.tracer r).enabled then _ else _ : Engine).tracers = _
  split <;> rfl

theorem tracers_setEnabled (e : Engine) (r : TracerRef) (enabled : Bool) :
    (e.setEnabled r enabled).1.tracers =
      (e.modifyTracer r (·.ifLive fun t => { t with enabled := enabled })).tracers := by
  refine tracers_useTracer ?_
  cases enabled <;> cases (e.tracer r).enabled <;> rfl

theorem tracers_setBacklogSize (e : Engine) (r : TracerRef) (size : Int64) :
    (e.setBacklogSize r size).1.tracers =
      (e.modifyTracer r (·.ifLive (·.apply (.setBacklogSize size)))).tracers := by
  refine tracers_withUsable (f := (·.apply (.setBacklogSize size))) ?_
  by_cases hs : 0 < size.toInt
  · simp only [Tracer.apply, if_pos hs]
    rfl
  · simp only [Tracer.apply, if_neg hs]
    rw [modifyTracer_eq_self rfl]

@[simp] theorem fst_askTracer {α : Type} (e : Engine) (r : TracerRef) (ask : Tracer → α) :
    (e.askTracer r ask).1 = e := by
  unfold askTracer withUsable
  split <;> rfl

/-- A command changes the tracer that is asked, as that tracer alone decides. -/
theorem tracers_perform (e : Engine) (r : TracerRef) (c : Command) :
    (e.perform r c).1.tracers = (e.modifyTracer r (·.obey c)).tracers := by
  cases c with
  | setEnabled enabled => exact e.tracers_setEnabled r enabled
  | setBacklogSize size => exact e.tracers_setBacklogSize r size
  | setLossPolicy policy => exact tracers_useTracer rfl
  | resetTraceCounter => exact tracers_useTracer rfl
  | start => exact tracers_useTracer rfl
  | stop => exact tracers_useTracer rfl
  | shutDown => exact tracers_useTracer rfl
  | dumpAll => exact tracers_withUsable rfl
  | backlog c => rfl
  | isEnabled | backlogSize | traceCounter | dump id | latest id =>
    rw [modifyTracer_eq_self (Tracer.obey_of_apply rfl)]
    simp only [perform, isEnabled, backlogSize, traceCounter, dump, latest, fst_answer,
      fst_askTracer]
  | _ =>
    rw [modifyTracer_eq_self (Tracer.obey_of_apply rfl)]
    rfl

theorem tracer_perform_of_ne (e : Engine) {r s : TracerRef} (c : Command) (h : r ≠ s) :
    (e.perform r c).1.tracer s = e.tracer s := by
  rw [tracer_congr (e.tracers_perform r c), tracer_modifyTracer_of_ne e _ h]

theorem tracer_perform_self {e : Engine} {r : TracerRef} (c : Command)
    (h : r.index < e.tracers.length) : (e.perform r c).1.tracer r = (e.tracer r).obey c := by
  rw [tracer_congr (e.tracers_perform r c), tracer_modifyTracer_self _ h]

@[simp] theorem length_tracers_perform (e : Engine) (r : TracerRef) (c : Command) :
    (e.perform r c).1.tracers.length = e.tracers.length := by
  rw [tracers_perform, length_tracers_modifyTracer]

theorem perform_dump {e : Engine} {r : TracerRef} (hlive : (e.tracer r).isShutDown = false)
    (id : String) : e.perform r (.dump id) = (e, .ok (.events ((e.tracer r).dump id))) := by
  rw [perform, dump, askTracer, withUsable_of_isLive hlive]
  rfl

theorem perform_latest {e : Engine} {r : TracerRef} (hlive : (e.tracer r).isShutDown = false)
    (id : String) : e.perform r (.latest id) = (e, .ok (.events ((e.tracer r).latest id))) := by
  rw [perform, latest, askTracer, withUsable_of_isLive hlive]
  rfl

theorem snd_answer_eq_aborted {α : Type} {f : α → Reply} {result : Engine × Except Stop α}
    {a : Abort} : (answer f result).2 = .error (.aborted a) ↔ result.2 = .error (.aborted a) := by
  obtain ⟨e, outcome⟩ := result
  cases outcome <;> simp [answer, Except.map]

/-- What needs a live tracer, and does not abort with one, aborts exactly when the tracer
was shut down. -/
theorem snd_withUsable_eq_aborted {α : Type} {e : Engine} {r : TracerRef}
    {act : Tracer → Engine × Except Stop α} {a : Abort}
    (h : (act (e.tracer r)).2 ≠ .error (.aborted a)) :
    (e.withUsable r act).2 = .error (.aborted a) ↔
      (e.tracer r).isShutDown = true ∧ a = .usedAfterShutdown := by
  unfold withUsable
  by_cases hr : (e.tracer r).isShutDown = true
  · rw [if_pos hr]
    simp [hr, eq_comm]
  · rw [if_neg hr]
    simp [hr, h]

/-- A command aborts exactly when it needs a live tracer and this one was shut down. -/
theorem aborts_perform (e : Engine) (r : TracerRef) (c : Command) (a : Abort) :
    (e.perform r c).2 = .error (.aborted a) ↔
      c.needsLive = true ∧ (e.tracer r).isShutDown = true ∧ a = .usedAfterShutdown := by
  cases c with
  | lossPolicy | captureFailures | trackedNodeCount | stats | state | describe | backlog =>
    simp [perform, Command.needsLive]
  | setBacklogSize size =>
    rw [perform, snd_answer_eq_aborted, setBacklogSize, snd_withUsable_eq_aborted]
    · simp [Command.needsLive]
    · dsimp only
      split <;> simp
  | _ =>
    rw [perform, snd_answer_eq_aborted]
    refine (snd_withUsable_eq_aborted ?_).trans (by simp [Command.needsLive])
    simp

end Engine

end TraceBacklog
