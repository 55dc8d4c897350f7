/-
# What a build does and what it gives

Whether a build gives a pipeline hangs on one thing only: whether a tracer among the
strategies was shut down. If none was, every output gets all strategies in front of it; if
one was, the build aborts (`Engine.build_eq`). What it does on the way is bookkeeping, nodes
that are remembered and reports, and no part of it bears on whether it goes on. So the actions
of a build can be listed from the engine before it.

What the strategies put in front of the outputs may hang on the ids that nodes have at that
moment, and an enabled tracer among them gives ids to the nodes that it is put in front of
(`Engine.stagesOf`). Strategies that look only at ids which nodes have all the time put the same
in front of every output, whatever the engine is: `Route.stages` if these are the ids from the
definitions (`Engine.eq_stages_of_build`).

Key definitions: `Strategy.inFront`, `Route.stages`, `Engine.refuses`, `Engine.stagesOf`,
`Action.IsBookkeeping`, `Engine.wrapAllActions`, `Engine.buildActions`.
Key theorems: `Engine.tracer_actAll_keeps`, `Engine.wrapAll_eq`, `Engine.build_eq`,
`Engine.stagesOf_eq`, `Engine.eq_stages_of_build`.
-/
import TraceBacklog.Proofs.Engine.View

namespace TraceBacklog

/-- A target with a strategy in front of it, where nodes have these ids. -/
def Strategy.put (ids : NodeIds) (route : Option Route) (n : Node) (target : Processor) :
    Strategy → Processor
  | .trace r => .traced (Engine.interceptor r route n) target
  | .handle choose => target.behind (choose (route.map (·.outline)) n ids)

/-- A target with the strategies in front of it, the first one outermost. -/
def Strategy.inFront (ids : NodeIds) (route : Option Route) (n : Node) (target : Processor) :
    List Strategy → Processor
  | [] => target
  | s :: rest => s.put ids route n (inFront ids route n target rest)

/-- What a route is built into while nodes have these ids, if no tracer is in the way. -/
def Route.stagesBy (ids : NodeIds) (route : Route) (strategies : List Strategy) :
    List Processor :=
  route.outputs.map fun o => Strategy.inFront ids (some route) o.node o.processor strategies

/-- What a route is built into by the ids from the definitions of its nodes. -/
def Route.stages (route : Route) (strategies : List Strategy) : List Processor :=
  route.stagesBy Node.givenId strategies

namespace Engine

/-- Was this a tracer that was shut down? -/
def refusesAt (e : Engine) : Strategy → Bool
  | .trace r => (e.tracer r).isShutDown
  | .handle _ => false

/-- Is one of the strategies a tracer that was shut down? -/
def refuses (e : Engine) (strategies : List Strategy) : Bool := strategies.any e.refusesAt

theorem refuses_cons (e : Engine) (s : Strategy) (rest : List Strategy) :
    e.refuses (s :: rest) = (e.refusesAt s || e.refuses rest) := List.any_cons

/-- Engines in which the same tracers were shut down refuse alike. -/
theorem refuses_congr {e e' : Engine} {strategies : List Strategy}
    (h : ∀ r, .trace r ∈ strategies → (e.tracer r).isShutDown = (e'.tracer r).isShutDown) :
    e.refuses strategies = e'.refuses strategies := by
  induction strategies with
  | nil => rfl
  | cons s rest ih =>
    have hrest := ih fun r hr => h r (List.mem_cons_of_mem _ hr)
    rw [refuses_cons, refuses_cons, hrest]
    cases s with
    | trace r => rw [refusesAt, refusesAt, h r List.mem_cons_self]
    | handle handler => rfl

/-! ### The actions of a build -/

/-- The actions that put a strategy in front of a node. -/
def wrapActions (e : Engine) (route : Option Route) (n : Node) : Strategy → List Action
  | .handle _ => []
  | .trace r =>
    .track r n :: if (e.tracer r).isShutDown then []
      else [.noteWrapping n (interceptor r route n).firstInRoute]

def wrapAllActions (e : Engine) (route : Option Route) (n : Node) : List Strategy → List Action
  | [] => []
  | s :: rest =>
    wrapAllActions e route n rest ++ if e.refuses rest then [] else e.wrapActions route n s

def stagesActions (e : Engine) (route : Route) (strategies : List Strategy) :
    List Output → List Action
  | [] => []
  | o :: rest =>
    wrapAllActions e (some route) o.node strategies ++
      if e.refuses strategies then [] else stagesActions e route strategies rest

def buildActions (e : Engine) (strategies : List Strategy) (route : Route) : List Action :=
  stagesActions e route strategies route.outputs ++
    if e.refuses strategies ∧ route.outputs ≠ [] then []
    else [.noteBuilt route.id route.outputs.length]

/-- A target with the strategies in front of it. Each sees the ids that there are when the
strategies behind it have been put there. -/
def inFront (e : Engine) (route : Option Route) (n : Node) (target : Processor) :
    List Strategy → Processor
  | [] => target
  | s :: rest =>
    s.put (e.actAll (e.wrapAllActions route n rest)).nodeIds route n
      (inFront e route n target rest)

/-- What outputs of a route are built into, one after the other. -/
def stagesOf (e : Engine) (route : Route) (strategies : List Strategy) :
    List Output → List Processor
  | [] => []
  | o :: rest => e.inFront (some route) o.node o.processor strategies ::
    (e.actAll (e.wrapAllActions (some route) o.node strategies)).stagesOf route strategies rest

section Congr

variable {e e' : Engine} (h : ∀ r, (e.tracer r).isShutDown = (e'.tracer r).isShutDown)

include h

theorem wrapActions_congr (route : Option Route) (n : Node) (s : Strategy) :
    e.wrapActions route n s = e'.wrapActions route n s := by
  cases s with
  | handle handler => rfl
  | trace r => rw [wrapActions, wrapActions, h r]

theorem wrapAllActions_congr (route : Option Route) (n : Node) (strategies : List Strategy) :
    e.wrapAllActions route n strategies = e'.wrapAllActions route n strategies := by
  induction strategies with
  | nil => rfl
  | cons s rest ih =>
    rw [wrapAllActions, wrapAllActions, ih, refuses_congr fun r _ => h r, wrapActions_congr h]

theorem stagesActions_congr (route : Route) (strategies : List Strategy)
    (outputs : List Output) :
    e.stagesActions route strategies outputs = e'.stagesActions route strategies outputs := by
  induction outputs with
  | nil => rfl
  | cons o rest ih =>
    rw [stagesActions, stagesActions, ih, refuses_congr fun r _ => h r, wrapAllActions_congr h]

end Congr

end Engine

/-! ### Bookkeeping -/

/-- Remembers or forgets a node, or reports something. -/
def Action.IsBookkeeping : Action → Prop
  | .track _ _ => True
  | .untrack _ _ => True
  | .noteWrapping _ _ => True
  | .noteBuilt _ _ => True
  | .visit _ _ => True
  | _ => False

namespace Engine

theorem wrapActions_isBookkeeping (e : Engine) (route : Option Route) (n : Node) (s : Strategy) :
    ∀ a ∈ e.wrapActions route n s, a.IsBookkeeping := by
  intro a ha
  cases s with
  | handle handler => cases ha
  | trace r =>
    rcases List.mem_cons.mp ha with rfl | ha
    · trivial
    · split at ha
      · cases ha
      · obtain rfl := List.mem_singleton.mp ha
        trivial

theorem wrapAllActions_isBookkeeping (e : Engine) (route : Option Route) (n : Node)
    (strategies : List Strategy) :
    ∀ a ∈ e.wrapAllActions route n strategies, a.IsBookkeeping := by
  induction strategies with
  | nil => exact fun a ha => absurd ha List.not_mem_nil
  | cons s rest ih =>
    intro a ha
    rw [wrapAllActions] at ha
    rcases List.mem_append.mp ha with ha | ha
    · exact ih a ha
    · split at ha
      · cases ha
      · exact e.wrapActions_isBookkeeping route n s a ha

theorem stagesActions_isBookkeeping (e : Engine) (route : Route) (strategies : List Strategy)
    (outputs : List Output) :
    ∀ a ∈ e.stagesActions route strategies outputs, a.IsBookkeeping := by
  induction outputs with
  | nil => exact fun a ha => absurd ha List.not_mem_nil
  | cons o rest ih =>
    intro a ha
    rw [stagesActions] at ha
    rcases List.mem_append.mp ha with ha | ha
    · exact e.wrapAllActions_isBookkeeping (some route) o.node strategies a ha
    · split at ha
      · cases ha
      · exact ih a ha

theorem buildActions_isBookkeeping (e : Engine) (strategies : List Strategy) (route : Route) :
    ∀ a ∈ e.buildActions strategies route, a.IsBookkeeping := by
  intro a ha
  rcases List.mem_append.mp ha with ha | ha
  · exact e.stagesActions_isBookkeeping route strategies route.outputs a ha
  · split at ha
    · cases ha
    · obtain rfl := List.mem_singleton.mp ha
      trivial

section Keeps

variable {α : Type} (keep : Tracer → α)
  (hkeep : ∀ (t : Tracer) (tracked : Tracked), keep { t with tracked := tracked } = keep t)

include hkeep

theorem tracer_act_keeps (e : Engine) {a : Action} (ha : a.IsBookkeeping) (r : TracerRef) :
    keep ((e.act a).tracer r) = keep (e.tracer r) := by
  cases a with
  | track s n =>
    rw [act, tracer_congr (e.tracers_track s n)]
    refine tracer_modifyTracer_keeps keep e s r fun t => ?_
    unfold Tracer.ifLive
    split
    · rfl
    · exact hkeep t _
  | untrack s n =>
    refine tracer_modifyTracer_keeps keep e s r fun t => ?_
    unfold Tracer.untrack
    split
    · rfl
    · exact hkeep t _
  | noteWrapping n first => rfl
  | noteBuilt routeId nodes => rfl
  | visit name kind => rw [act, tracer_congr (e.tracers_visit name kind)]
  | _ => exact ha.elim

/-- Of a tracer bookkeeping changes only which nodes it remembers. -/
theorem tracer_actAll_keeps (e : Engine) {actions : List Action}
    (h : ∀ a ∈ actions, a.IsBookkeeping) (r : TracerRef) :
    keep ((e.actAll actions).tracer r) = keep (e.tracer r) := by
  induction actions generalizing e with
  | nil => rfl
  | cons a rest ih =>
    rw [actAll_cons, ih _ fun b hb => h b (List.mem_cons_of_mem _ hb)]
    exact tracer_act_keeps keep hkeep e (h a List.mem_cons_self) r

end Keeps

/-- A build changes nothing that it looks at. -/
theorem isShutDown_wrapAll (e : Engine) (route : Option Route) (n : Node)
    (strategies : List Strategy) (r : TracerRef) :
    ((e.actAll (e.wrapAllActions route n strategies)).tracer r).isShutDown =
      (e.tracer r).isShutDown :=
  tracer_actAll_keeps (·.isShutDown) (fun _ _ => rfl) e
    (e.wrapAllActions_isBookkeeping route n strategies) r

/-! ### What a build gives -/

theorem snd_track (e : Engine) (r : TracerRef) (n : Node) :
    (e.track r n).2 =
      if (e.tracer r).isShutDown then .error (.aborted .usedAfterShutdown) else .ok () := by
  unfold track useTracer withUsable
  split <;> rfl

theorem wrap_eq (e : Engine) (route : Option Route) (n : Node) (s : Strategy)
    (target : Processor) :
    e.wrap route n s target = (e.actAll (e.wrapActions route n s),
      if e.refusesAt s then .error (.aborted .usedAfterShutdown)
      else .ok (s.put e.nodeIds route n target)) := by
  cases s with
  | handle choose => rfl
  | trace r =>
    have htrack := e.snd_track r n
    rw [wrap, wrapActions, actAll_cons, act, refusesAt]
    generalize e.track r n = result at htrack
    obtain ⟨e', outcome⟩ := result
    dsimp only at htrack
    by_cases hr : (e.tracer r).isShutDown = true
    · rw [if_pos hr] at htrack
      rw [htrack, if_pos hr, if_pos hr]
      rfl
    · rw [if_neg hr] at htrack
      rw [htrack, if_neg hr, if_neg hr]
      rfl

/-- Strategies are put in front of a target all together or not at all. -/
theorem wrapAll_eq (e : Engine) (route : Option Route) (n : Node) (strategies : List Strategy)
    (target : Processor) :
    e.wrapAll route n strategies target = (e.actAll (e.wrapAllActions route n strategies),
      if e.refuses strategies then .error (.aborted .usedAfterShutdown)
      else .ok (e.inFront route n target strategies)) := by
  induction strategies with
  | nil => rfl
  | cons s rest ih =>
    have hkeeps := e.isShutDown_wrapAll route n rest
    have hat : (e.actAll (e.wrapAllActions route n rest)).refusesAt s = e.refusesAt s := by
      cases s with
      | trace r => exact hkeeps r
      | handle handler => rfl
    rw [wrapAll, ih, wrapAllActions, actAll_append, refuses_cons]
    cases hrest : e.refuses rest with
    | true =>
      rw [Bool.or_true]
      rfl
    | false =>
      rw [Bool.or_false]
      show wrap _ route n s _ = _
      rw [wrap_eq, hat, wrapActions_congr hkeeps]
      rfl

theorem buildStages_eq (e : Engine) (route : Route) (strategies : List Strategy)
    (outputs : List Output) :
    e.buildStages route strategies outputs = (e.actAll (e.stagesActions route strategies outputs),
      if e.refuses strategies ∧ outputs ≠ [] then .error (.aborted .usedAfterShutdown)
      else .ok (e.stagesOf route strategies outputs)) := by
  induction outputs generalizing e with
  | nil =>
    rw [if_neg fun h => h.2 rfl]
    rfl
  | cons o rest ih =>
    have hkeeps := e.isShutDown_wrapAll (some route) o.node strategies
    have hrefuses : (e.actAll (e.wrapAllActions (some route) o.node strategies)).refuses
        strategies = e.refuses strategies := refuses_congr fun r _ => hkeeps r
    rw [buildStages, wrapAll_eq, stagesActions, actAll_append]
    cases hstop : e.refuses strategies with
    | true =>
      rw [if_pos rfl, if_pos rfl, if_pos ⟨rfl, List.cons_ne_nil _ _⟩]
      rfl
    | false =>
      rw [if_neg Bool.false_ne_true, if_neg Bool.false_ne_true,
        if_neg fun h => Bool.false_ne_true h.1]
      dsimp only
      rw [ih, hrefuses, hstop, if_neg fun h => Bool.false_ne_true h.1, stagesActions_congr hkeeps]
      rfl

/-- **What a build does and gives.** It aborts if there is an output and one of the tracers
was shut down; otherwise every output gets all strategies in front of it. -/
theorem build_eq (e : Engine) (strategies : List Strategy) (route : Route) :
    e.build strategies route = (e.actAll (e.buildActions strategies route),
      if e.refuses strategies ∧ route.outputs ≠ [] then .error (.aborted .usedAfterShutdown)
      else .ok (e.stagesOf route strategies route.outputs)) := by
  rw [build, buildStages_eq, buildActions, actAll_append]
  by_cases h : e.refuses strategies = true ∧ route.outputs ≠ []
  · rw [if_pos h, if_pos h]
    rfl
  · rw [if_neg h, if_neg h]
    rfl

section Built

variable {e : Engine} {strategies : List Strategy} {route : Route} {stages : List Processor}
  (h : (e.build strategies route).2 = .ok stages)

include h

/-- A build that gives a pipeline meets no tracer in its way. -/
theorem not_refuses_of_build : ¬ (e.refuses strategies = true ∧ route.outputs ≠ []) := by
  intro hstop
  rw [build_eq, if_pos hstop] at h
  cases h

theorem refuses_of_build (hne : route.outputs ≠ []) : e.refuses strategies = false := by
  rw [← Bool.not_eq_true]
  exact fun hstop => not_refuses_of_build h ⟨hstop, hne⟩

theorem eq_stagesOf_of_build : stages = e.stagesOf route strategies route.outputs := by
  have hok := not_refuses_of_build h
  rw [build_eq, if_neg hok] at h
  exact (Except.ok.inj h).symm

end Built

end Engine

/-! ### What can happen in what is built -/

section Within

variable {ok : Action → Prop} {v : View}

theorem Processor.within_behind {target : Processor} (htarget : target.Within ok)
    {handler? : Option (Exchange → Handling Unit)}
    (h : ∀ handler, handler? = some handler → ∀ x, (handler x).Within ok) :
    (target.behind handler?).Within ok := by
  cases handler? with
  | none => exact htarget
  | some handler =>
    rw [behind, Within]
    exact ⟨h handler rfl, htarget⟩

/-- What can happen in front of a target: exchanges reach interceptors of the tracers among the
strategies, and the other strategies do what they do. -/
theorem Strategy.within_inFront (ids : NodeIds) {route : Route} {n : Node} (hn : n ∈ route.nodes)
    {target : Processor} (htarget : target.Within ok) {strategies : List Strategy}
    (hs : ∀ s ∈ strategies, s.Within ok route.outline)
    (henter : ∀ r, .trace r ∈ strategies →
      ∀ x, ok (.enter (Engine.interceptor r (some route) n) x)) :
    (inFront ids (some route) n target strategies).Within ok := by
  induction strategies with
  | nil => exact htarget
  | cons s rest ih =>
    have hrest := ih (fun s' hs' => hs s' (List.mem_cons_of_mem _ hs'))
      fun r hr => henter r (List.mem_cons_of_mem _ hr)
    have hfirst := hs s List.mem_cons_self
    cases s with
    | trace r =>
      rw [inFront, put, Processor.Within]
      exact ⟨henter r List.mem_cons_self, hrest⟩
    | handle choose => exact Processor.within_behind hrest fun handler => hfirst n hn ids handler

namespace Route

theorem forall_node_mem_nodes (route : Route) : ∀ o ∈ route.outputs, o.node ∈ route.nodes :=
  fun _ ho => List.mem_map_of_mem ho

theorem within_stagesBy (ids : NodeIds) {route : Route} {strategies : List Strategy}
    (hroute : ∀ o ∈ route.outputs, o.processor.Within ok)
    (hs : ∀ s ∈ strategies, s.Within ok route.outline)
    (henter : ∀ r, .trace r ∈ strategies → ∀ o ∈ route.outputs, ∀ x,
      ok (.enter (Engine.interceptor r (some route) o.node) x)) :
    (Processor.pipeline (route.stagesBy ids strategies)).Within ok := by
  rw [Processor.Within, Processor.allWithin_iff]
  refine List.forall_mem_map.mpr fun o ho => ?_
  exact Strategy.within_inFront ids (route.forall_node_mem_nodes o ho) (hroute o ho) hs
    fun r hr => henter r hr o ho

end Route

end Within

/-! ### Strategies that look at few ids -/

namespace Engine

section LooksAt

variable {named : Node → Prop} {ids : NodeIds} {route : Route} {strategies : List Strategy}
  (hs : ∀ s ∈ strategies, s.LooksAt named route.outline)

include hs

/-- Strategies put the same in front of a target if the nodes that they look at have these ids
all the time. -/
theorem inFront_eq {e : Engine}
    (hids : ∀ actions : List Action, (∀ a ∈ actions, a.IsBookkeeping) →
      ∀ m, named m → (e.actAll actions).nodeIds m = ids m)
    {n : Node} (hn : n ∈ route.nodes) (target : Processor) :
    e.inFront (some route) n target strategies =
      Strategy.inFront ids (some route) n target strategies := by
  induction strategies with
  | nil => rfl
  | cons s rest ih =>
    have hnow := hids _ (e.wrapAllActions_isBookkeeping (some route) n rest)
    rw [inFront, Strategy.inFront, ih fun s' hs' => hs s' (List.mem_cons_of_mem _ hs')]
    cases s with
    | trace r => rfl
    | handle choose =>
      have hlooks : (Strategy.handle choose).LooksAt named route.outline :=
        hs _ List.mem_cons_self
      exact congrArg (Processor.behind _) (hlooks n hn _ ids hnow)

theorem stagesOf_eq {e : Engine}
    (hids : ∀ actions : List Action, (∀ a ∈ actions, a.IsBookkeeping) →
      ∀ m, named m → (e.actAll actions).nodeIds m = ids m)
    {outputs : List Output} (houtputs : ∀ o ∈ outputs, o.node ∈ route.nodes) :
    e.stagesOf route strategies outputs = outputs.map fun o =>
      Strategy.inFront ids (some route) o.node o.processor strategies := by
  induction outputs generalizing e with
  | nil => rfl
  | cons o rest ih =>
    have hwrapped := e.wrapAllActions_isBookkeeping (some route) o.node strategies
    rw [stagesOf, List.map_cons, inFront_eq hs hids (houtputs o List.mem_cons_self),
      ih (fun actions hactions => ?_) fun o' ho' => houtputs o' (List.mem_cons_of_mem _ ho')]
    rw [← actAll_append]
    exact hids _ (List.forall_mem_append.mpr ⟨hwrapped, hactions⟩)

end LooksAt

/-- Ids from definitions do not change. -/
theorem nodeIds_of_hasCustomId (e : Engine) {n : Node} (h : n.hasCustomId = true) :
    e.nodeIds n = n.givenId := by
  obtain ⟨id, hid⟩ := Option.isSome_iff_exists.mp h
  rw [nodeIds, Node.id?, hid]

/-- If none of the tracers was shut down the route is built. -/
theorem snd_build_eq_stages {e : Engine} {strategies : List Strategy} {route : Route}
    (hs : ∀ s ∈ strategies, s.LooksAt View.given.named route.outline)
    (hlive : e.refuses strategies = false) :
    (e.build strategies route).2 = .ok (route.stages strategies) := by
  rw [build_eq, hlive, if_neg fun h => Bool.false_ne_true h.1]
  exact congrArg Except.ok
    (stagesOf_eq hs (fun _ _ _ hm => nodeIds_of_hasCustomId _ hm) route.forall_node_mem_nodes)

theorem eq_stages_of_build {e : Engine} {strategies : List Strategy} {route : Route}
    (hs : ∀ s ∈ strategies, s.LooksAt View.given.named route.outline)
    {stages : List Processor} (h : (e.build strategies route).2 = .ok stages) :
    stages = route.stages strategies :=
  (eq_stagesOf_of_build h).trans
    (stagesOf_eq hs (fun _ _ _ hm => nodeIds_of_hasCustomId _ hm) route.forall_node_mem_nodes)

end Engine

end TraceBacklog
