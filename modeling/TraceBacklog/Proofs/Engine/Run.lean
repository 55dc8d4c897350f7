/-
# Runs

A run is a list of operations: routes and nodes are wrapped, exchanges are sent, processors
are torn down, and in between nodes, factories and tracers are asked one thing or another.
Every operation is a list of actions that can be told from the engine before it
(`Engine.operate_eq_actAll`), and so is a run (`Engine.operateAll_eq_actAll`). What every
action keeps, a run keeps; and what is to be said of the past of a run is said of its
actions. Two things about tracers hold of any action: those that are there stay, and few
actions change what they track (`Engine.tracking_cases`).

Key definitions: `Operation`, `Operation.actions`, `Engine.operateAll`, `Engine.actionsAll`,
`Operation.Within`.
Key theorems: `Engine.operate_eq_actAll`, `Engine.operateAll_eq_actAll`,
`Engine.actionsAll_within`, `Engine.tracking_cases`.
-/
import Mathlib.Data.Nat.Basic
import Mathlib.Order.Basic
import TraceBacklog.Proofs.Engine.Capture
import TraceBacklog.Proofs.Route.Build

namespace TraceBacklog

/-- A step of a run. -/
inductive Operation where
  /-- Something elementary is asked of a tracer, a node or a factory. -/
  | act (a : Action)
  | wrap (route : Option Route) (n : Node) (s : Strategy) (target : Processor)
  | build (strategies : List Strategy) (route : Route)
  | process (p : Processor) (x : Exchange)
  | stop (p : Processor)

namespace Engine

def operate (e : Engine) : Operation → Engine
  | .act a => e.act a
  | .wrap route n s target => (e.wrap route n s target).1
  | .build strategies route => (e.build strategies route).1
  | .process p x => (p.process e x).engine
  | .stop p => p.stop e

/-- The engine after a run. -/
def operateAll (e : Engine) (ops : List Operation) : Engine := ops.foldl operate e

end Engine

/-! ### Tearing down -/

namespace Processor

mutual

def stopActions : Processor → List Action
  | .leaf name _ => [.visit name .stopped]
  | .pipeline stages => stopAllActions stages
  | .traced i target => .untrack i.tracer i.node :: target.stopActions
  | .handled _ _ => []

def stopAllActions : List Processor → List Action
  | [] => []
  | p :: rest => p.stopActions ++ stopAllActions rest

end

mutual

theorem stop_eq_actAll (e : Engine) : ∀ p : Processor, p.stop e = e.actAll p.stopActions
  | .leaf name steps => by
    rw [stop, stopActions]
    rfl
  | .pipeline stages => by
    rw [stop, stopActions]
    exact stopAll_eq_actAll e stages
  | .traced i target => by
    rw [stop, stopActions, Engine.actAll_cons]
    exact stop_eq_actAll _ target
  | .handled handler target => by
    rw [stop, stopActions]
    rfl

theorem stopAll_eq_actAll (e : Engine) :
    ∀ ps : List Processor, stopAll e ps = e.actAll (stopAllActions ps)
  | [] => by
    rw [stopAll, stopAllActions]
    rfl
  | p :: rest => by
    rw [stopAll, stopAllActions, Engine.actAll_append, ← stop_eq_actAll e p]
    exact stopAll_eq_actAll _ rest

end

end Processor

/-! ### Runs -/

/-- What an operation is made of, told from the engine before it. -/
def Operation.actions (e : Engine) : Operation → List Action
  | .act a => [a]
  | .wrap route n s _ => e.wrapActions route n s
  | .build strategies route => e.buildActions strategies route
  | .process p x => p.actions e x
  | .stop p => p.stopActions

namespace Engine

/-- The actions of a run. -/
def actionsAll (e : Engine) : List Operation → List Action
  | [] => []
  | op :: rest => op.actions e ++ actionsAll (e.operate op) rest

theorem operate_eq_actAll (e : Engine) (op : Operation) :
    e.operate op = e.actAll (op.actions e) := by
  cases op with
  | act a => rfl
  | wrap route n s target => rw [operate, wrap_eq, Operation.actions]
  | build strategies route => rw [operate, build_eq, Operation.actions]
  | process p x => exact p.engine_process e x
  | stop p => exact p.stop_eq_actAll e

/-- A run is the run of its actions. -/
theorem operateAll_eq_actAll (e : Engine) (ops : List Operation) :
    e.operateAll ops = e.actAll (e.actionsAll ops) := by
  induction ops generalizing e with
  | nil => rfl
  | cons op rest ih =>
    rw [actionsAll, actAll_append, ← operate_eq_actAll]
    exact ih _

end Engine

/-! ### Runs of a kind -/

/-- Nothing but such actions and bookkeeping can happen in the operation. -/
def Operation.Within (ok : Action → Prop) : Operation → Prop
  | .act a => ok a
  | .process p _ => p.Within ok
  | _ => True

namespace Processor

mutual

theorem stopActions_isBookkeeping : ∀ p : Processor, ∀ a ∈ p.stopActions, a.IsBookkeeping
  | .leaf name steps => fun a ha => by
    rw [stopActions] at ha
    obtain rfl := List.mem_singleton.mp ha
    trivial
  | .pipeline stages => fun a ha => by
    rw [stopActions] at ha
    exact stopAllActions_isBookkeeping stages a ha
  | .traced i target => fun a ha => by
    rw [stopActions] at ha
    rcases List.mem_cons.mp ha with rfl | ha
    · trivial
    · exact stopActions_isBookkeeping target a ha
  | .handled handler target => fun a ha => by
    rw [stopActions] at ha
    cases ha

theorem stopAllActions_isBookkeeping :
    ∀ ps : List Processor, ∀ a ∈ stopAllActions ps, a.IsBookkeeping
  | [] => fun a ha => by
    rw [stopAllActions] at ha
    cases ha
  | p :: rest => fun a ha => by
    rw [stopAllActions] at ha
    rcases List.mem_append.mp ha with ha | ha
    · exact stopActions_isBookkeeping p a ha
    · exact stopAllActions_isBookkeeping rest a ha

end

end Processor

/-- In a run of such operations nothing else happens. -/
theorem Engine.actionsAll_within {ok : Action → Prop} (hbook : ∀ a : Action, a.IsBookkeeping → ok a)
    {ops : List Operation} (hops : ∀ op ∈ ops, op.Within ok) (e : Engine) :
    ∀ a ∈ e.actionsAll ops, ok a := by
  induction ops generalizing e with
  | nil => exact fun a ha => absurd ha List.not_mem_nil
  | cons op rest ih =>
    intro a ha
    rcases List.mem_append.mp ha with ha | ha
    · have hop := hops op List.mem_cons_self
      cases op with
      | act b =>
        obtain rfl := List.mem_singleton.mp ha
        exact hop
      | wrap route n s target => exact hbook a (e.wrapActions_isBookkeeping route n s a ha)
      | build strategies route => exact hbook a (e.buildActions_isBookkeeping strategies route a ha)
      | process p x => exact Processor.within_actions e x hop a ha
      | stop p => exact hbook a (p.stopActions_isBookkeeping a ha)
    · exact ih (fun op' hop' => hops op' (List.mem_cons_of_mem _ hop')) _ a ha

/-! ### Tracers stay -/

namespace Engine

theorem length_tracers_le_act (e : Engine) (a : Action) :
    e.tracers.length ≤ (e.act a).tracers.length := by
  cases a with
  | enter i x => exact (e.length_tracers_enter i x).ge
  | perform s c => exact (e.length_tracers_perform s c).ge
  | track s n => rw [act, tracers_track, length_tracers_modifyTracer]
  | untrack s n => exact (e.length_tracers_modifyTracer s _).ge
  | newTracer c f => exact e.length_tracers_le_newTracer c f
  | visit name kind => rw [act, tracers_visit]
  | _ => exact le_rfl

theorem length_tracers_le_actAll (e : Engine) (actions : List Action) :
    e.tracers.length ≤ (e.actAll actions).tracers.length := by
  induction actions generalizing e with
  | nil => exact le_rfl
  | cons a rest ih => exact (e.length_tracers_le_act a).trans (ih _)

/-- **What an action does to what a tracer tracks.** A command, a node to track or a node to
forget may change it, and nothing else does or shuts the tracer down. -/
theorem tracking_cases (e : Engine) {r : TracerRef} (hr : r.index < e.tracers.length)
    (a : Action) :
    (∃ c, a = .perform r c ∧ (e.act a).tracer r = (e.tracer r).obey c) ∨
    (∃ n, a = .track r n ∧ (e.act a).tracer r = (e.tracer r).ifLive (·.track n)) ∨
    (∃ n, a = .untrack r n ∧ (e.act a).tracer r = (e.tracer r).untrack n) ∨
    ((∀ n, a ≠ .track r n ∧ a ≠ .untrack r n) ∧
      ((e.act a).tracer r).tracked = (e.tracer r).tracked ∧
      ((e.act a).tracer r).isShutDown = (e.tracer r).isShutDown) := by
  have hother (ha : ∀ n, a ≠ .track r n ∧ a ≠ .untrack r n)
      (h : (e.act a).tracer r = e.tracer r) :
      (∀ n, a ≠ .track r n ∧ a ≠ .untrack r n) ∧
        ((e.act a).tracer r).tracked = (e.tracer r).tracked ∧
        ((e.act a).tracer r).isShutDown = (e.tracer r).isShutDown := by
    rw [h]
    exact ⟨ha, rfl, rfl⟩
  cases a with
  | enter i x =>
    refine .inr (.inr (.inr ⟨by simp, ?_, ?_⟩))
    · exact tracer_enter_keeps (·.tracked) (fun _ _ => rfl) (fun _ _ => rfl) (fun _ _ => rfl) ..
    · exact tracer_enter_keeps (·.isShutDown) (fun _ _ => rfl) (fun _ _ => rfl) (fun _ _ => rfl) ..
  | perform s c =>
    by_cases hs : s = r
    · subst hs
      exact .inl ⟨c, rfl, tracer_perform_self c hr⟩
    · exact .inr (.inr (.inr (hother (by simp) (tracer_perform_of_ne e c hs))))
  | track s n =>
    have htracer := tracer_congr (e.tracers_track s n) r
    by_cases hs : s = r
    · subst hs
      exact .inr (.inl ⟨n, rfl, htracer.trans (tracer_modifyTracer_self _ hr)⟩)
    · exact .inr (.inr (.inr (hother (by simp [hs])
        (htracer.trans (tracer_modifyTracer_of_ne e _ hs)))))
  | untrack s n =>
    by_cases hs : s = r
    · subst hs
      exact .inr (.inr (.inl ⟨n, rfl, tracer_modifyTracer_self _ hr⟩))
    · exact .inr (.inr (.inr (hother (by simp [hs]) (tracer_modifyTracer_of_ne e _ hs))))
  | newTracer c f => exact .inr (.inr (.inr (hother (by simp) (tracer_newTracer_of_lt hr c f))))
  | visit name kind =>
    exact .inr (.inr (.inr (hother (by simp) (tracer_congr (e.tracers_visit name kind) r))))
  | _ => exact .inr (.inr (.inr (hother (by simp) rfl)))

end Engine

end TraceBacklog
