/-
# Tearing down what was built

Building a route puts tracers in front of its outputs, and an output may itself be a pipeline
that was built, with tracers and a route of its own (`Assembly`). Tearing down goes the same way:
at each output the tracers forget the node, then the output's own processor is torn down
(`Assembly.stop_built`). So what a tracer forgets is what it was put in front of at any depth
(`Assembly.tracer_stop`), every processor that was not built has its turn once
(`Assembly.visits_stop`), and nothing else changes (`Processor.stop_keeps`). Torn down at once, a
route leaves the tracers as they were before it was built (`Assembly.stop_build_restores`).

Key definitions: `Assembly`, `Assembly.processor`, `Assembly.behind`, `Assembly.leaves`,
`Tracer.untrackAll`, `Engine.untrackBy`.
Key theorems: `Tracer.get?_untrackAll`, `Processor.stop_keeps`, `Assembly.stop_built`,
`Assembly.tracer_stop`, `Assembly.visits_stop`, `Assembly.stop_build_restores`,
`Assembly.teardown_undoes_tracking`.
-/
import TraceBacklog.Proofs.Engine.Tracking

namespace TraceBacklog

/-- How a processor was put together: it is taken as it is, or a route of such processors was
built with tracers. -/
inductive Assembly where
  | plain (p : Processor)
  | built (routeId : Option String) (tracers : List TracerRef) (parts : List (Node × Assembly))

namespace Assembly

mutual

def processor : Assembly → Processor
  | .plain p => p
  | .built routeId tracers parts =>
    .pipeline (Route.stages ⟨routeId, outputs parts⟩ (tracers.map .trace))

/-- The outputs of the route, with what they are put together to. -/
def outputs : List (Node × Assembly) → List Output
  | [] => []
  | (n, a) :: rest => ⟨n, a.processor⟩ :: outputs rest

end

mutual

/-- The nodes that a tracer stands in front of, of the route and of the routes in it. -/
def behind (r : TracerRef) : Assembly → List Node
  | .plain _ => []
  | .built _ tracers parts => behindAll r tracers parts

def behindAll (r : TracerRef) (tracers : List TracerRef) : List (Node × Assembly) → List Node
  | [] => []
  | (n, a) :: rest =>
    (if r ∈ tracers then [n] else []) ++ (a.behind r ++ behindAll r tracers rest)

end

mutual

/-- The processors that were not built, in the order of the routes. -/
def leaves : Assembly → List Processor
  | .plain p => [p]
  | .built _ _ parts => leavesAll parts

def leavesAll : List (Node × Assembly) → List Processor
  | [] => []
  | (_, a) :: rest => a.leaves ++ leavesAll rest

end

/-- The route that was built. -/
def route (routeId : Option String) (parts : List (Node × Assembly)) : Route :=
  ⟨routeId, outputs parts⟩

theorem outputs_eq_map (parts : List (Node × Assembly)) :
    outputs parts = parts.map fun part => ⟨part.1, part.2.processor⟩ := by
  induction parts with
  | nil => rw [outputs]; rfl
  | cons part rest ih =>
    obtain ⟨n, a⟩ := part
    rw [outputs, ih]
    rfl

theorem processor_built (routeId : Option String) (tracers : List TracerRef)
    (parts : List (Node × Assembly)) :
    (built routeId tracers parts).processor =
      .pipeline ((route routeId parts).stages (tracers.map .trace)) := by
  rw [processor, route]

end Assembly

/-! ### Forgetting nodes -/

namespace Tracer

/-- Forgets nodes one after the other. -/
def untrackAll (t : Tracer) (nodes : List Node) : Tracer := nodes.foldl untrack t

theorem untrackAll_cons (t : Tracer) (n : Node) (rest : List Node) :
    t.untrackAll (n :: rest) = (t.untrack n).untrackAll rest := rfl

theorem untrackAll_append (t : Tracer) (first rest : List Node) :
    t.untrackAll (first ++ rest) = (t.untrackAll first).untrackAll rest := List.foldl_append

theorem isShutDown_untrack (t : Tracer) (n : Node) : (t.untrack n).isShutDown = t.isShutDown := by
  unfold untrack
  split <;> rfl

/-- Of a tracer only what it tracks changes. -/
theorem untrack_eq (t : Tracer) (n : Node) :
    t.untrack n = { t with tracked := (t.untrack n).tracked } := by
  unfold untrack
  split <;> rfl

theorem untrackAll_eq (t : Tracer) (nodes : List Node) :
    t.untrackAll nodes = { t with tracked := (t.untrackAll nodes).tracked } := by
  induction nodes generalizing t with
  | nil => rfl
  | cons n rest ih =>
    rw [untrackAll_cons, ih, untrack_eq]

theorem untrackAll_of_isShutDown {t : Tracer} (h : t.isShutDown = true) (nodes : List Node) :
    t.untrackAll nodes = t := by
  induction nodes with
  | nil => rfl
  | cons n rest ih =>
    have hn : t.untrack n = t := if_pos h
    rw [untrackAll_cons, hn, ih]

theorem untrack_of_isLive {t : Tracer} (h : t.isShutDown = false) (n : Node) :
    t.untrack n = { t with tracked := t.tracked.erase n } := by
  rw [untrack, h, if_neg Bool.false_ne_true]

/-- A node is forgotten once. -/
theorem untrack_untrack (t : Tracer) (n : Node) : (t.untrack n).untrack n = t.untrack n := by
  cases h : t.isShutDown with
  | true =>
    have hn : t.untrack n = t := if_pos h
    rw [hn, hn]
  | false =>
    have herase : (t.tracked.erase n).erase n = t.tracked.erase n := by
      refine Tracked.eq_of_get? fun key => ?_
      rw [Tracked.get?_erase]
      split
      · next hkey => rw [Tracked.get?_erase, if_pos hkey]
      · rfl
    rw [untrack_of_isLive ((t.isShutDown_untrack n).trans h), untrack_of_isLive h, herase]

theorem get?_untrack {t : Tracer} (h : t.isShutDown = false) (n : Node) (k : NodeKey) :
    (t.untrack n).tracked.get? k =
      if n.key = k then none else t.tracked.get? k := by
  rw [untrack_of_isLive h, Tracked.get?_erase]

/-- What a tracer forgets is gone and nothing else is; after a shutdown it forgets nothing. -/
theorem get?_untrackAll (t : Tracer) (nodes : List Node) (k : NodeKey) :
    (t.untrackAll nodes).tracked.get? k =
      if t.isShutDown = false ∧ k ∈ nodes.map (·.key) then none
      else t.tracked.get? k := by
  cases h : t.isShutDown with
  | true => rw [untrackAll_of_isShutDown h, if_neg fun h => Bool.noConfusion h.1]
  | false =>
    rw [if_congr (and_iff_right rfl) rfl rfl]
    induction nodes generalizing t with
    | nil => rfl
    | cons n rest ih =>
      rw [untrackAll_cons, ih _ ((t.isShutDown_untrack n).trans h), get?_untrack h]
      by_cases hn : n.key = k
      · simp [hn]
      · simp [hn, Ne.symm hn]

end Tracer

namespace Engine

/-- Several tracers forget a node, one after the other. -/
def untrackBy (e : Engine) (tracers : List TracerRef) (n : Node) : Engine :=
  tracers.foldl (fun e r => e.untrack r n) e

theorem untrackBy_cons (e : Engine) (r : TracerRef) (rest : List TracerRef) (n : Node) :
    e.untrackBy (r :: rest) n = (e.untrack r n).untrackBy rest n := rfl

theorem tracer_untrack (e : Engine) (s r : TracerRef) (n : Node) :
    (e.untrack s n).tracer r = if s = r then (e.tracer r).untrack n else e.tracer r := by
  by_cases hs : s.index < e.tracers.length
  · exact tracer_modifyTracer e s r _ hs
  · have hsame : e.untrack s n = e := by
      rw [untrack, modifyTracer, List.modify_eq_self (Nat.le_of_not_lt hs)]
    rw [hsame]
    split
    · next heq =>
      -- what is out of range tracks nothing that it could forget
      rw [← heq, tracer_of_length_le (Nat.le_of_not_lt hs)]
      rfl
    · rfl

theorem tracer_untrackBy (e : Engine) (tracers : List TracerRef) (n : Node) (r : TracerRef) :
    (e.untrackBy tracers n).tracer r =
      if r ∈ tracers then (e.tracer r).untrack n else e.tracer r := by
  induction tracers generalizing e with
  | nil => rfl
  | cons s rest ih =>
    rw [untrackBy_cons, ih, tracer_untrack]
    by_cases hs : s = r
    · subst hs
      rw [if_pos rfl, if_pos List.mem_cons_self, Tracer.untrack_untrack]
      split <;> rfl
    · rw [if_neg hs]
      refine if_congr ?_ rfl rfl
      rw [List.mem_cons, or_iff_right (Ne.symm hs)]

end Engine

/-! ### What is passed on -/

namespace Processor

theorem stopAll_eq_foldl (e : Engine) (ps : List Processor) :
    stopAll e ps = ps.foldl (fun e p => p.stop e) e := by
  induction ps generalizing e with
  | nil => rw [stopAll]; rfl
  | cons p rest ih => rw [stopAll, ih]; rfl

/-- Interceptors forget their node one after the other and pass on to what they stand before. -/
theorem stop_inFront (ids : NodeIds) (route : Option Route) (n : Node) (target : Processor)
    (tracers : List TracerRef) (e : Engine) :
    (Strategy.inFront ids route n target (tracers.map .trace)).stop e =
      target.stop (e.untrackBy tracers n) := by
  induction tracers generalizing e with
  | nil => rfl
  | cons r rest ih =>
    rw [List.map_cons, Strategy.inFront, Strategy.put, stop, ih, Engine.untrackBy_cons]
    rfl

mutual

/-- What neither forgetting nor a visit changes, tearing down does not change. -/
theorem stop_keeps {α : Type} (keep : Engine → α)
    (huntrack : ∀ e r n, keep (e.untrack r n) = keep e)
    (hvisit : ∀ e name, keep (e.visit name .stopped) = keep e) :
    ∀ (p : Processor) (e : Engine), keep (p.stop e) = keep e
  | .leaf name _, e => by
    rw [stop]
    exact hvisit e name
  | .pipeline stages, e => by
    rw [stop]
    exact stopAll_keeps keep huntrack hvisit stages e
  | .traced i target, e => by
    rw [stop, stop_keeps keep huntrack hvisit target]
    exact huntrack e i.tracer i.node
  | .handled _ _, e => by rw [stop]

theorem stopAll_keeps {α : Type} (keep : Engine → α)
    (huntrack : ∀ e r n, keep (e.untrack r n) = keep e)
    (hvisit : ∀ e name, keep (e.visit name .stopped) = keep e) :
    ∀ (ps : List Processor) (e : Engine), keep (stopAll e ps) = keep e
  | [], e => by rw [stopAll]
  | p :: rest, e => by
    rw [stopAll, stopAll_keeps keep huntrack hvisit rest, stop_keeps keep huntrack hvisit p]

end

mutual

/-- The visits that tearing down adds hang on nothing but the visits before. -/
theorem visits_stop_congr : ∀ (p : Processor) {e e' : Engine}, e.visits = e'.visits →
    (p.stop e).visits = (p.stop e').visits
  | .leaf name _, e, e', h => by
    rw [stop, stop]
    cases name with
    | none => exact h
    | some name => exact congrArg (List.cons _) h
  | .pipeline stages, e, e', h => by
    rw [stop, stop]
    exact visits_stopAll_congr stages h
  | .traced i target, e, e', h => by
    rw [stop, stop]
    exact visits_stop_congr target h
  | .handled _ _, e, e', h => by rw [stop, stop, h]

theorem visits_stopAll_congr : ∀ (ps : List Processor) {e e' : Engine}, e.visits = e'.visits →
    (stopAll e ps).visits = (stopAll e' ps).visits
  | [], e, e', h => by rw [stopAll, stopAll, h]
  | p :: rest, e, e', h => by
    rw [stopAll, stopAll]
    exact visits_stopAll_congr rest (visits_stop_congr p h)

end

theorem stopAll_append (e : Engine) (first rest : List Processor) :
    stopAll e (first ++ rest) = stopAll (stopAll e first) rest := by
  rw [stopAll_eq_foldl, stopAll_eq_foldl, stopAll_eq_foldl, List.foldl_append]

end Processor

theorem Engine.visits_untrackBy (e : Engine) (tracers : List TracerRef) (n : Node) :
    (e.untrackBy tracers n).visits = e.visits := by
  induction tracers generalizing e with
  | nil => rfl
  | cons r rest ih => exact ih (e.untrack r n)

namespace Assembly

/-- A pipeline is torn down output by output. -/
theorem stop_built (routeId : Option String) (tracers : List TracerRef)
    (parts : List (Node × Assembly)) (e : Engine) :
    (built routeId tracers parts).processor.stop e =
      parts.foldl (fun e part => part.2.processor.stop (e.untrackBy tracers part.1)) e := by
  rw [processor_built, Processor.stop, Processor.stopAll_eq_foldl, Route.stages, Route.stagesBy,
    route, outputs_eq_map, List.map_map, List.foldl_map]
  simp only [Function.comp_apply, Processor.stop_inFront]

mutual

/-- What tearing down does to a tracer: it forgets the nodes that it stands in front of. -/
theorem tracer_stop (r : TracerRef) : ∀ (a : Assembly) (e : Engine),
    (∀ p ∈ a.leaves, ∀ e : Engine, (p.stop e).tracers = e.tracers) →
    (a.processor.stop e).tracer r = (e.tracer r).untrackAll (a.behind r)
  | .plain p, e, h => by
    rw [leaves, List.forall_mem_singleton] at h
    rw [processor, behind]
    exact Engine.tracer_congr (h e) r
  | .built routeId tracers parts, e, h => by
    rw [leaves] at h
    rw [stop_built, behind]
    exact tracer_stopParts r tracers parts e h

theorem tracer_stopParts (r : TracerRef) (tracers : List TracerRef) :
    ∀ (parts : List (Node × Assembly)) (e : Engine),
    (∀ p ∈ leavesAll parts, ∀ e : Engine, (p.stop e).tracers = e.tracers) →
    (parts.foldl (fun e part => part.2.processor.stop (e.untrackBy tracers part.1)) e).tracer r =
      (e.tracer r).untrackAll (behindAll r tracers parts)
  | [], e, _ => by rw [behindAll]; rfl
  | (n, a) :: rest, e, h => by
    rw [leavesAll, List.forall_mem_append] at h
    rw [List.foldl_cons, tracer_stopParts r tracers rest _ h.2, tracer_stop r a _ h.1,
      Engine.tracer_untrackBy, behindAll, Tracer.untrackAll_append, Tracer.untrackAll_append]
    split <;> rfl

end

theorem tracer_stop_built (routeId : Option String) (tracers : List TracerRef)
    {parts : List (Node × Assembly)}
    (hleaves : ∀ p ∈ leavesAll parts, ∀ e : Engine, (p.stop e).tracers = e.tracers) (e : Engine)
    (r : TracerRef) : ((built routeId tracers parts).processor.stop e).tracer r =
      (e.tracer r).untrackAll (behindAll r tracers parts) := by
  rw [← behind]
  exact tracer_stop r (built routeId tracers parts) e (by rwa [leaves])

mutual

/-- Tearing down visits every processor that was not built, each once and in its turn. -/
theorem visits_stop : ∀ (a : Assembly) {e e' : Engine}, e.visits = e'.visits →
    (a.processor.stop e).visits = (Processor.stopAll e' a.leaves).visits
  | .plain p, e, e', h => by
    rw [processor, leaves, Processor.stopAll, Processor.stopAll]
    exact p.visits_stop_congr h
  | .built routeId tracers parts, e, e', h => by
    rw [stop_built, leaves]
    exact visits_stopParts tracers parts h

theorem visits_stopParts (tracers : List TracerRef) :
    ∀ (parts : List (Node × Assembly)) {e e' : Engine}, e.visits = e'.visits →
    (parts.foldl (fun e part => part.2.processor.stop (e.untrackBy tracers part.1)) e).visits =
      (Processor.stopAll e' (leavesAll parts)).visits
  | [], e, e', h => by rw [leavesAll, Processor.stopAll]; exact h
  | (n, a) :: rest, e, e', h => by
    rw [List.foldl_cons, leavesAll, Processor.stopAll_append]
    exact visits_stopParts tracers rest (visits_stop a ((e.visits_untrackBy tracers n).trans h))

end

theorem mem_behindAll {r : TracerRef} {tracers : List TracerRef} {n : Node}
    {parts : List (Node × Assembly)} : n ∈ behindAll r tracers parts ↔
      ∃ part ∈ parts, (r ∈ tracers ∧ n = part.1) ∨ n ∈ part.2.behind r := by
  induction parts with
  | nil => simp [behindAll]
  | cons part rest ih =>
    obtain ⟨m, a⟩ := part
    have hfirst : n ∈ (if r ∈ tracers then [m] else []) ↔ r ∈ tracers ∧ n = m := by
      split
      · next hr => simp [hr]
      · next hr => simp [hr]
    rw [behindAll, List.mem_append, List.mem_append, hfirst, ih, List.exists_mem_cons_iff, or_assoc]

end Assembly

/-! ### What a build tracks -/

namespace Engine

section Marks

variable {a : Action} {r : TracerRef} {k : NodeKey} {mark : Mark}

/-- A build marks nodes of its route only, and for its tracers only. -/
theorem of_mem_wrapActions {e : Engine} {route : Option Route} {n : Node} {s : Strategy}
    (ha : a ∈ e.wrapActions route n s) (hmark : a.mark? r k = some mark) :
    s = .trace r ∧ n.key = k := by
  cases s with
  | handle handler => cases ha
  | trace s =>
    rcases List.mem_cons.mp ha with rfl | ha
    · rw [Action.mark?] at hmark
      split at hmark
      · next h => exact ⟨congrArg Strategy.trace h.1, h.2⟩
      · cases hmark
    · split at ha
      · cases ha
      · obtain rfl := List.mem_singleton.mp ha
        cases hmark

theorem of_mem_wrapAllActions {e : Engine} {route : Option Route} {n : Node}
    {strategies : List Strategy} (ha : a ∈ e.wrapAllActions route n strategies)
    (hmark : a.mark? r k = some mark) : .trace r ∈ strategies ∧ n.key = k := by
  induction strategies with
  | nil => cases ha
  | cons s rest ih =>
    rw [wrapAllActions] at ha
    rcases List.mem_append.mp ha with ha | ha
    · obtain ⟨hr, hn⟩ := ih ha
      exact ⟨List.mem_cons_of_mem _ hr, hn⟩
    · split at ha
      · cases ha
      · obtain ⟨hs, hn⟩ := of_mem_wrapActions ha hmark
        exact ⟨hs ▸ List.mem_cons_self, hn⟩

theorem of_mem_stagesActions {e : Engine} {route : Route} {strategies : List Strategy}
    {outputs : List Output} (ha : a ∈ e.stagesActions route strategies outputs)
    (hmark : a.mark? r k = some mark) : .trace r ∈ strategies ∧ ∃ o ∈ outputs, o.node.key = k := by
  induction outputs with
  | nil => cases ha
  | cons o rest ih =>
    rw [stagesActions] at ha
    rcases List.mem_append.mp ha with ha | ha
    · obtain ⟨hr, hn⟩ := of_mem_wrapAllActions ha hmark
      exact ⟨hr, o, List.mem_cons_self, hn⟩
    · split at ha
      · cases ha
      · obtain ⟨hr, other, hmem, hn⟩ := ih ha
        exact ⟨hr, other, List.mem_cons_of_mem _ hmem, hn⟩

theorem of_mem_buildActions {e : Engine} {route : Route} {strategies : List Strategy}
    (ha : a ∈ e.buildActions strategies route) (hmark : a.mark? r k = some mark) :
    .trace r ∈ strategies ∧ ∃ o ∈ route.outputs, o.node.key = k := by
  rcases List.mem_append.mp ha with ha | ha
  · exact of_mem_stagesActions ha hmark
  · split at ha
    · cases ha
    · obtain rfl := List.mem_singleton.mp ha
      cases hmark

/-- Bookkeeping without a mark for a node leaves it tracked or not tracked. -/
theorem tracked_act_of_unmarked (e : Engine) (ha : a.IsBookkeeping) (hmark : a.mark? r k = none) :
    ((e.act a).tracer r).tracked.get? k = (e.tracer r).tracked.get? k := by
  have hkey {n : Node} (h : n.key ≠ k) : n.key.index ≠ k.index := fun hindex =>
    h (congrArg NodeKey.mk hindex)
  cases a with
  | track s n =>
    rw [act, tracer_congr (e.tracers_track s n)]
    by_cases hs : s = r
    · have hn : n.key ≠ k := by simpa [Action.mark?, hs] using hmark
      refine tracer_modifyTracer_keeps (·.tracked.get? k) e s r fun t => ?_
      unfold Tracer.ifLive
      split
      · rfl
      · exact (KeyMap.get?_insert ..).trans (if_neg (hkey hn))
    · rw [tracer_modifyTracer_of_ne e _ hs]
  | untrack s n =>
    by_cases hs : s = r
    · have hn : n.key ≠ k := by simpa [Action.mark?, hs] using hmark
      refine tracer_modifyTracer_keeps (·.tracked.get? k) e s r fun t => ?_
      unfold Tracer.untrack
      split
      · rfl
      · exact (KeyMap.get?_erase ..).trans (if_neg (hkey hn))
    · rw [act, untrack, tracer_modifyTracer_of_ne e _ hs]
  | noteWrapping n first => rfl
  | noteBuilt routeId nodes => rfl
  | visit name kind => rw [act, tracer_congr (e.tracers_visit name kind)]
  | _ => exact ha.elim

theorem tracked_actAll_of_unmarked (e : Engine) {actions : List Action}
    (h : ∀ a ∈ actions, a.IsBookkeeping ∧ a.mark? r k = none) :
    ((e.actAll actions).tracer r).tracked.get? k = (e.tracer r).tracked.get? k := by
  induction actions generalizing e with
  | nil => rfl
  | cons a rest ih =>
    obtain ⟨ha, hmark⟩ := h a List.mem_cons_self
    rw [actAll_cons, ih _ fun b hb => h b (List.mem_cons_of_mem _ hb),
      tracked_act_of_unmarked e ha hmark]

/-- A build leaves the nodes of other routes tracked or not tracked. -/
theorem tracked_build_of_unmarked (e : Engine) {strategies : List Strategy} {route : Route}
    (h : .trace r ∈ strategies → ∀ o ∈ route.outputs, o.node.key ≠ k) :
    ((e.build strategies route).1.tracer r).tracked.get? k =
      (e.tracer r).tracked.get? k := by
  rw [build_eq]
  refine tracked_actAll_of_unmarked e fun a ha => ⟨e.buildActions_isBookkeeping _ _ a ha, ?_⟩
  cases hmark : a.mark? r k with
  | none => rfl
  | some mark =>
    obtain ⟨hr, o, ho, hkey⟩ := of_mem_buildActions ha hmark
    exact absurd hkey (h hr o ho)

end Marks

/-- Of a tracer a build changes only what it tracks. -/
theorem tracer_of_build_eq {e now : Engine} {strategies : List Strategy} {route : Route}
    {result : Except Stop (List Processor)} (hbuild : e.build strategies route = (now, result))
    (r : TracerRef) :
    now.tracer r = { e.tracer r with tracked := (now.tracer r).tracked } := by
  have hkeeps : ({ now.tracer r with tracked := .empty } : Tracer) =
      { e.tracer r with tracked := .empty } := by
    have hnow : e.actAll (e.buildActions strategies route) = now := by
      rw [build_eq] at hbuild
      exact congrArg Prod.fst hbuild
    rw [← hnow]
    exact tracer_actAll_keeps (fun t => { t with tracked := .empty }) (fun _ _ => rfl) e
      (e.buildActions_isBookkeeping strategies route) r
  exact congrArg (fun t : Tracer => { t with tracked := (now.tracer r).tracked }) hkeeps

/-- The tracers of a route with outputs that could be built were not shut down. -/
theorem isLive_of_build {e : Engine} {strategies : List Strategy} {route : Route}
    {stages : List Processor} (hbuild : (e.build strategies route).2 = .ok stages)
    (hne : route.outputs ≠ []) {r : TracerRef} (hr : .trace r ∈ strategies) :
    (e.tracer r).isShutDown = false := by
  have hlive := List.any_eq_false.mp (refuses_of_build hbuild hne) (.trace r) hr
  exact eq_false_of_ne_true hlive

end Engine

namespace Assembly

section Restores

variable {routeId : Option String} {tracers : List TracerRef} {parts : List (Node × Assembly)}

/-- Without nested pipelines a tracer stands in front of the nodes of the route alone. -/
theorem mem_behindAll_of_plain (hplain : ∀ part ∈ parts, ∃ p, part.2 = .plain p) {r : TracerRef}
    {n : Node} : n ∈ behindAll r tracers parts ↔ r ∈ tracers ∧ ∃ part ∈ parts, n = part.1 := by
  rw [mem_behindAll]
  constructor
  · rintro ⟨part, hpart, ⟨hr, hn⟩ | hn⟩
    · exact ⟨hr, part, hpart, hn⟩
    · obtain ⟨p, hp⟩ := hplain part hpart
      rw [hp, behind] at hn
      cases hn
  · rintro ⟨hr, part, hpart, hn⟩
    exact ⟨part, hpart, .inl ⟨hr, hn⟩⟩

variable {e now : Engine} {stages : List Processor}

/-- What a tracer tracks after a build, less the nodes that it was put in front of, is what it
tracked before. -/
theorem tracked_build_restores (hplain : ∀ part ∈ parts, ∃ p, part.2 = .plain p)
    (hbuild : e.build (tracers.map .trace) (route routeId parts) = (now, .ok stages))
    (hnew : ∀ r ∈ tracers, ∀ part ∈ parts, (e.tracer r).tracked.get? part.1.key = none)
    (r : TracerRef) (k : NodeKey) :
    ((now.tracer r).untrackAll (behindAll r tracers parts)).tracked.get? k =
      (e.tracer r).tracked.get? k := by
  have hdown : (now.tracer r).isShutDown = (e.tracer r).isShutDown := by
    rw [Engine.tracer_of_build_eq hbuild r]
    rfl
  rw [Tracer.get?_untrackAll]
  by_cases hk : k ∈ (behindAll r tracers parts).map (·.key)
  · -- such a node is one of the route, and the tracer was live when the route was built
    obtain ⟨n, hn, rfl⟩ := List.mem_map.mp hk
    obtain ⟨hr, part, hpart, rfl⟩ := (mem_behindAll_of_plain hplain).mp hn
    have hne : (route routeId parts).outputs ≠ [] := by
      rw [route, outputs_eq_map]
      exact List.ne_nil_of_mem (List.mem_map_of_mem hpart)
    have hlive : (e.tracer r).isShutDown = false :=
      Engine.isLive_of_build (congrArg Prod.snd hbuild) hne (List.mem_map_of_mem hr)
    rw [if_pos ⟨hdown.trans hlive, hk⟩]
    exact (hnew r hr part hpart).symm
  · rw [if_neg fun h => hk h.2]
    have hother : .trace r ∈ tracers.map Strategy.trace →
        ∀ o ∈ (route routeId parts).outputs, o.node.key ≠ k := by
      rintro hr o ho rfl
      obtain ⟨s, hs, hsr⟩ := List.mem_map.mp hr
      obtain rfl := Strategy.trace.inj hsr
      rw [route, outputs_eq_map] at ho
      obtain ⟨part, hpart, rfl⟩ := List.mem_map.mp ho
      have hbehind := (mem_behindAll_of_plain (n := part.1) hplain).mpr ⟨hs, part, hpart, rfl⟩
      exact hk (List.mem_map.mpr ⟨part.1, hbehind, rfl⟩)
    have hsame := e.tracked_build_of_unmarked hother
    rwa [hbuild] at hsame

/-- **A route that is built and torn down leaves every tracer as it was**, if none of its nodes
was tracked before and none of its processors was built. -/
theorem stop_build_restores
    (hleaves : ∀ p ∈ leavesAll parts, ∀ e : Engine, (p.stop e).tracers = e.tracers)
    (hplain : ∀ part ∈ parts, ∃ p, part.2 = .plain p)
    (hbuild : e.build (tracers.map .trace) (route routeId parts) = (now, .ok stages))
    (hnew : ∀ r ∈ tracers, ∀ part ∈ parts, (e.tracer r).tracked.get? part.1.key = none)
    (r : TracerRef) : ((Processor.pipeline stages).stop now).tracer r = e.tracer r := by
  have hprocessor : .pipeline stages = (built routeId tracers parts).processor := by
    rw [processor_built,
      Engine.eq_stages_of_build (Strategy.looksAt_map_trace _ _ tracers)
        (congrArg Prod.snd hbuild)]
  have htracked : ((now.tracer r).untrackAll (behindAll r tracers parts)).tracked =
      (e.tracer r).tracked :=
    Tracked.eq_of_get? (tracked_build_restores hplain hbuild hnew r)
  rw [hprocessor, tracer_stop_built routeId tracers hleaves, Tracer.untrackAll_eq, htracked,
    Engine.tracer_of_build_eq hbuild r]

end Restores

/-- **Tearing down undoes tracking and reaches every processor once.** Let a route be built with
tracers, some of its processors perhaps being pipelines that were built likewise, to any depth,
and let the processors that were not built touch no tracer when they are torn down. Building
gives this pipeline whenever the tracers are live. Tearing it down, whatever happened to the
tracers since, always ends; it goes through the outputs in their order, and of each the tracers
forget the node and its own processor is torn down; so every processor that was not built, at
any depth, is torn down once and in its turn. A tracer that is not shut down forgets the nodes
that it stands in front of, also those in nested pipelines, and tracks the others as before; one
that was shut down stays as it is; nothing else changes. So if a route without nested pipelines
none of whose nodes was tracked is built and torn down, every tracer is as it was. -/
theorem teardown_undoes_tracking (routeId : Option String) (tracers : List TracerRef)
    (parts : List (Node × Assembly))
    (hleaves : ∀ p ∈ leavesAll parts, ∀ e : Engine, (p.stop e).tracers = e.tracers) :
    let pipeline := (built routeId tracers parts).processor
    let strategies := tracers.map Strategy.trace
    (∃ stages, pipeline = .pipeline stages ∧ ∀ e : Engine,
      (∀ r ∈ tracers, (e.tracer r).isShutDown = false) →
      (e.build strategies (route routeId parts)).2 = .ok stages) ∧
    (∀ e : Engine,
      let after := pipeline.stop e
      after = parts.foldl (fun e part => part.2.processor.stop (e.untrackBy tracers part.1)) e ∧
      after.visits = (Processor.stopAll e (leavesAll parts)).visits ∧
      (∀ r k, (after.tracer r).tracked.get? k =
        if (e.tracer r).isShutDown = false ∧ k ∈ (behindAll r tracers parts).map (·.key) then none
        else (e.tracer r).tracked.get? k) ∧
      (∀ r, after.tracer r = { e.tracer r with tracked := (after.tracer r).tracked }) ∧
      (∀ r, (e.tracer r).isShutDown = true → after.tracer r = e.tracer r) ∧
      after.tracers.length = e.tracers.length ∧ after.ids = e.ids ∧
      after.factories = e.factories ∧ after.journal = e.journal ∧ after.clock = e.clock) ∧
    ((∀ part ∈ parts, ∃ p, part.2 = .plain p) → ∀ (e now : Engine) (stages : List Processor),
      e.build strategies (route routeId parts) = (now, .ok stages) →
      (∀ r ∈ tracers, ∀ part ∈ parts, (e.tracer r).tracked.get? part.1.key = none) →
      ∀ r, ((Processor.pipeline stages).stop now).tracer r = e.tracer r) := by
  intro pipeline strategies
  have hforget : ∀ (e : Engine) (r : TracerRef), (pipeline.stop e).tracer r =
      (e.tracer r).untrackAll (behindAll r tracers parts) :=
    tracer_stop_built routeId tracers hleaves
  have hkeeps {α : Type} (keep : Engine → α) (huntrack : ∀ e r n, keep (e.untrack r n) = keep e)
      (hvisit : ∀ e name, keep (e.visit name .stopped) = keep e) (e : Engine) :
      keep (pipeline.stop e) = keep e := pipeline.stop_keeps keep huntrack hvisit e
  refine ⟨⟨_, processor_built routeId tracers parts, fun e hlive => ?_⟩, fun e => ?_,
    fun hplain e now stages hbuild hnew => stop_build_restores hleaves hplain hbuild hnew⟩
  · have hrefuses : e.refuses strategies = false := by
      refine List.any_eq_false.mpr fun s hs => ?_
      obtain ⟨r, hr, rfl⟩ := List.mem_map.mp hs
      rw [Engine.refusesAt, hlive r hr]
      exact Bool.false_ne_true
    exact Engine.snd_build_eq_stages (Strategy.looksAt_map_trace _ _ tracers) hrefuses
  · intro after
    have hvisits : after.visits = (Processor.stopAll e (leavesAll parts)).visits := by
      rw [← leaves]
      exact visits_stop (built routeId tracers parts) rfl
    refine ⟨stop_built routeId tracers parts e, hvisits, fun r k => ?_, fun r => ?_,
      fun r hdown => ?_, ?_⟩
    · rw [hforget, Tracer.get?_untrackAll]
    · rw [hforget]
      exact Tracer.untrackAll_eq _ _
    · rw [hforget, Tracer.untrackAll_of_isShutDown hdown]
    · have hrest := hkeeps (fun e => (e.tracers.length, e.ids, e.factories, e.journal, e.clock))
        (fun e r n => by rw [Engine.untrack, Engine.length_tracers_modifyTracer]; rfl)
        (fun e name => by cases name <;> rfl) e
      simpa only [Prod.mk.injEq] using hrest

namespace Nest

def first : Node := ⟨⟨0⟩, "to", some "a", []⟩

def second : Node := ⟨⟨1⟩, "to", some "b", []⟩

def inner : Node := ⟨⟨2⟩, "to", some "c", []⟩

def innerParts : List (Node × Assembly) := [(inner, .plain (.leaf (some "q") []))]

/-- The second output is a pipeline that was built with the second tracer. -/
def parts : List (Node × Assembly) :=
  [(first, .plain (.leaf (some "p") [])), (second, .built none [⟨1⟩] innerParts)]

def made : Engine := (((Engine.initial .epoch).newTracer .default none).1.newTracer .default none).1

def innerBuilt : Engine := (made.build [.trace ⟨1⟩] (route none innerParts)).1

def built : Engine := (innerBuilt.build [.trace ⟨0⟩, .trace ⟨1⟩] (route none parts)).1

/-- Both routes were built, and the first tracer was shut down. -/
def now : Engine := (built.perform ⟨0⟩ .shutDown).1

theorem leaf_stop (name : Option String) (e : Engine) :
    ((Processor.leaf name []).stop e).tracers = e.tracers := by
  rw [Processor.stop, Engine.tracers_visit]

theorem quiet_innerParts :
    ∀ p ∈ leavesAll innerParts, ∀ e : Engine, (p.stop e).tracers = e.tracers := by
  simp [innerParts, leavesAll, leaves, leaf_stop]

theorem quiet_parts : ∀ p ∈ leavesAll parts, ∀ e : Engine, (p.stop e).tracers = e.tracers := by
  simp [parts, innerParts, leavesAll, leaves, leaf_stop]

end Nest

/-- A pipeline in a pipeline is torn down after one of the two tracers was shut down: the other
one forgets all three nodes, and both named processors are torn down in their turn. The inner
route alone is built and torn down without a trace. -/
theorem teardown_undoes_tracking_nested :
    (∀ p ∈ leavesAll Nest.parts, ∀ e : Engine, (p.stop e).tracers = e.tracers) ∧
    let pipeline := (Assembly.built none [⟨0⟩, ⟨1⟩] Nest.parts).processor
    let after := pipeline.stop Nest.now
    (Nest.now.tracer ⟨1⟩).trackedNodes.map (·.key) = [⟨0⟩, ⟨1⟩, ⟨2⟩] ∧
    (∀ n ∈ [Nest.first, Nest.second, Nest.inner],
      (after.tracer ⟨1⟩).tracked.get? n.key = none) ∧
    after.tracer ⟨0⟩ = Nest.now.tracer ⟨0⟩ ∧
    after.visits = [⟨"q", .stopped⟩, ⟨"p", .stopped⟩] ∧
    ∃ stages, (Nest.made.build [.trace ⟨1⟩] (route none Nest.innerParts)).2 = .ok stages ∧
      ∀ r, ((Processor.pipeline stages).stop Nest.innerBuilt).tracer r = Nest.made.tracer r := by
  refine ⟨Nest.quiet_parts, ?_⟩
  intro pipeline after
  obtain ⟨-, hstop, -⟩ := teardown_undoes_tracking none [⟨0⟩, ⟨1⟩] Nest.parts Nest.quiet_parts
  obtain ⟨-, hvisits, htracked, -, hdown, -⟩ := hstop Nest.now
  obtain ⟨⟨stages, -, hbuild⟩, -, hrestore⟩ :=
    teardown_undoes_tracking none [⟨1⟩] Nest.innerParts Nest.quiet_innerParts
  have hbuild := hbuild Nest.made (List.forall_mem_singleton.mpr rfl)
  have hplain : ∀ part ∈ Nest.innerParts, ∃ p, part.2 = .plain p :=
    List.forall_mem_singleton.mpr ⟨_, rfl⟩
  have hnew : ∀ r ∈ [(⟨1⟩ : TracerRef)], ∀ part ∈ Nest.innerParts,
      (Nest.made.tracer r).tracked.get? part.1.key = none :=
    List.forall_mem_singleton.mpr (List.forall_mem_singleton.mpr rfl)
  refine ⟨rfl, fun n hn => ?_, hdown ⟨0⟩ rfl, hvisits, stages, hbuild,
    hrestore hplain Nest.made Nest.innerBuilt stages (Prod.ext rfl hbuild) hnew⟩
  have hbehind : behindAll ⟨1⟩ [⟨0⟩, ⟨1⟩] Nest.parts = [Nest.first, Nest.second, Nest.inner] := by
    simp [Nest.parts, Nest.innerParts, behindAll, behind]
  rw [htracked, hbehind]
  exact if_pos ⟨rfl, List.mem_map_of_mem hn⟩

end Assembly

end TraceBacklog
