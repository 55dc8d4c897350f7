/-
# Without a tracer

What is left of strategies, of processors and of routes if one tracer is taken out of them. An
exchange that reaches an interceptor of the tracer changes nothing that is seen, and every
other step happens on both sides. So in engines that are equal but for the tracer a processor
and the same processor without its interceptors send exchanges through alike
(`Processor.process_without_related`).

A build takes the tracer out as well. The engines are equal but for the tracer afterwards
(`Engine.equalBut_build`), and what it gives without the tracer is what it gives with it, less
these interceptors (`Engine.snd_build_without`), if the strategies look at no ids but those
that are seen; for the tracer may have named nodes on the way.

Key definitions: `Strategy.without`, `Route.without`.
Key theorems: `Processor.process_without_related`, `Processor.stop_without_equalBut`,
`Route.withoutAll_stagesBy`, `Engine.equalBut_build`, `Engine.snd_build_without`.
-/
import TraceBacklog.Proofs.Engine.Alike
import TraceBacklog.Proofs.Engine.Shutdown

namespace TraceBacklog

/-! ### Strategies -/

namespace Strategy

def isTrace (r : TracerRef) : Strategy → Bool
  | .trace s => s = r
  | .handle _ => false

/-- The strategies without a tracer, wherever it stands among them. -/
def without (r : TracerRef) (strategies : List Strategy) : List Strategy :=
  strategies.filter fun s => !s.isTrace r

theorem mem_of_mem_without {r : TracerRef} {s : Strategy} {strategies : List Strategy}
    (h : s ∈ without r strategies) : s ∈ strategies := (List.mem_filter.mp h).1

theorem without_trace_self (r : TracerRef) (rest : List Strategy) :
    without r (.trace r :: rest) = without r rest := by
  simp [without, isTrace]

theorem without_cons_of_not_isTrace {r : TracerRef} {s : Strategy} (h : s.isTrace r = false)
    (rest : List Strategy) : without r (s :: rest) = s :: without r rest := by
  simp [without, h]

theorem eq_trace_of_isTrace {r : TracerRef} {s : Strategy} (h : s.isTrace r = true) :
    s = .trace r := by
  cases s with
  | trace s => exact congrArg Strategy.trace (of_decide_eq_true h)
  | handle choose => cases h

end Strategy

/-! ### Processors -/

namespace Processor

theorem withoutAll_eq_map (r : TracerRef) (ps : List Processor) :
    withoutAll r ps = ps.map (·.without r) := by
  induction ps with
  | nil => rfl
  | cons p rest ih => rw [withoutAll, ih, List.map_cons]

theorem without_behind (r : TracerRef) (target : Processor)
    (handler? : Option (Exchange → Handling Unit)) :
    (target.behind handler?).without r = (target.without r).behind handler? := by
  cases handler? with
  | none => rfl
  | some handler => rw [behind, without, behind]

section Process

variable {v : View} {b : TracerRef}

mutual

/-- Exchanges go through a processor alike with the interceptors of a tracer and without them. -/
theorem process_without_related {e e' : Engine} (he : e.EqualBut v b e') (x : Exchange) :
    ∀ {p : Processor}, p.Within (Action.Apart v b) → p.GoesBy v →
      (p.process e x).Related (Engine.EqualBut v b) ((p.without b).process e' x)
  | .leaf name steps, hp, hv => by
    rw [without]
    exact process_related (Engine.respects_equalBut v b) he x hp hv
  | .pipeline stages, hp, hv => by
    rw [Within] at hp
    rw [GoesBy] at hv
    rw [without, process, process]
    exact processAll_without_related he x hp hv
  | .traced i target, hp, hv => by
    rw [Within] at hp
    rw [GoesBy] at hv
    rw [without, process]
    split
    · -- Only the run on the left meets this interceptor.
      next hi =>
      have henter := he.act_left (a := .enter i x) (decide_eq_true hi) (hp.1 x)
      exact process_without_related henter x hp.2 hv
    · rw [process]
      exact process_without_related ((Engine.respects_equalBut v b).act (hp.1 x) he) x hp.2 hv
  | .handled handler target, hp, hv => by
    rw [Within] at hp
    rw [GoesBy] at hv
    rw [without, process, process]
    exact Handling.run_related (Engine.respects_equalBut v b)
      (fun _ _ _ x he => process_without_related he x hp.2 hv.2) (hp.1 x) (hv.1 x) he

theorem processAll_without_related {e e' : Engine} (he : e.EqualBut v b e') (x : Exchange) :
    ∀ {ps : List Processor}, AllWithin (Action.Apart v b) ps → AllGoBy v ps →
      (processAll e x ps).Related (Engine.EqualBut v b) (processAll e' x (withoutAll b ps))
  | [], _, _ => ⟨he, rfl, rfl⟩
  | p :: rest, hp, hv => by
    rw [AllWithin] at hp
    rw [AllGoBy] at hv
    rw [withoutAll, processAll, processAll]
    exact (process_without_related he x hp.1 hv.1).andThen fun x he =>
      processAll_without_related he x hp.2 hv.2

end

mutual

/-- So it is when a processor is torn down. -/
theorem stop_without_equalBut {e e' : Engine} (he : e.EqualBut v b e') :
    ∀ p : Processor, (p.stop e).EqualBut v b ((p.without b).stop e')
  | .leaf name steps => by
    rw [without, stop, stop]
    exact he.act (a := .visit name .stopped) trivial
  | .pipeline stages => by
    rw [without, stop, stop]
    exact stopAll_without_equalBut he stages
  | .traced i target => by
    rw [without, stop]
    split
    · next hi =>
      have huntrack := he.act_left (a := .untrack i.tracer i.node) (decide_eq_true hi) trivial
      exact stop_without_equalBut huntrack target
    · rw [stop]
      exact stop_without_equalBut (he.act (a := .untrack i.tracer i.node) trivial) target
  | .handled handler target => by
    rw [without, stop, stop]
    exact he

theorem stopAll_without_equalBut {e e' : Engine} (he : e.EqualBut v b e') :
    ∀ ps : List Processor, (stopAll e ps).EqualBut v b (stopAll e' (withoutAll b ps))
  | [] => he
  | p :: rest => by
    rw [withoutAll, stopAll, stopAll]
    exact stopAll_without_equalBut (stop_without_equalBut he p) rest

end

end Process

end Processor

/-! ### Routes -/

/-- A route whose processors have no interceptors of a tracer. -/
def Route.without (b : TracerRef) (route : Route) : Route :=
  { route with outputs := route.outputs.map fun o => { o with processor := o.processor.without b } }

/-- A route has the same nodes without a tracer. -/
theorem Route.outline_without (b : TracerRef) (route : Route) :
    (route.without b).outline = route.outline := by
  rw [outline, outline, nodes, nodes, without, List.map_map]
  rfl

theorem Engine.interceptor_without (r b : TracerRef) (route : Option Route) (n : Node) :
    interceptor r (route.map (·.without b)) n = interceptor r route n := by
  obtain _ | ⟨id, _ | ⟨o, rest⟩⟩ := route <;> rfl

theorem Strategy.without_inFront (b : TracerRef) (ids : NodeIds) (route : Option Route) (n : Node)
    (target : Processor) (strategies : List Strategy) :
    (inFront ids route n target strategies).without b =
      inFront ids (route.map (·.without b)) n (target.without b) (without b strategies) := by
  induction strategies with
  | nil => rfl
  | cons s rest ih =>
    cases hs : s.isTrace b with
    | true =>
      obtain rfl := eq_trace_of_isTrace hs
      rw [inFront, put, Processor.without,
        if_pos (show (Engine.interceptor b route n).tracer = b from rfl), without_trace_self, ih]
    | false =>
      rw [without_cons_of_not_isTrace hs, inFront, inFront, ← ih]
      cases s with
      | trace r =>
        have hr : ¬ (Engine.interceptor r route n).tracer = b := of_decide_eq_false hs
        rw [put, put, Processor.without, if_neg hr, Engine.interceptor_without]
      | handle choose =>
        have houtline : (route.map (·.without b)).map (·.outline) = route.map (·.outline) := by
          cases route with
          | none => rfl
          | some route => exact congrArg some (route.outline_without b)
        rw [put, put, Processor.without_behind, houtline]

theorem Route.withoutAll_stagesBy (b : TracerRef) (ids : NodeIds) (route : Route)
    (strategies : List Strategy) : Processor.withoutAll b (route.stagesBy ids strategies) =
      (route.without b).stagesBy ids (Strategy.without b strategies) := by
  rw [Processor.withoutAll_eq_map, stagesBy, stagesBy, without, List.map_map, List.map_map]
  refine List.map_congr_left fun o _ => ?_
  exact Strategy.without_inFront b ids (some route) o.node o.processor strategies

/-! ### Builds -/

namespace Engine

variable {v : View} {b : TracerRef} {e e' : Engine}

/-- If no tracer is in the way, none is in the way without one of them. -/
theorem refuses_without_of_false (h : e.AlikeBut v b e') {strategies : List Strategy}
    (hs : e.refuses strategies = false) : e'.refuses (Strategy.without b strategies) = false := by
  rw [refuses, List.any_eq_false] at hs ⊢
  intro s hmem
  obtain ⟨hold, hother⟩ := List.mem_filter.mp hmem
  cases s with
  | handle choose => exact Bool.false_ne_true
  | trace r =>
    have hr : r ≠ b := by simpa [Strategy.isTrace] using hother
    have hlive := hs _ hold
    rwa [refusesAt, (h.tracer r hr).isShutDown] at hlive

/-- The tracer itself is put in front of a node on one side only. -/
theorem equalBut_wrapActions_left (e : Engine) (route : Option Route) (n : Node) {c c' : Engine}
    (hc : c.EqualBut v b c') :
    (c.actAll (e.wrapActions route n (.trace b))).EqualBut v b c' := by
  have htrack : (c.act (.track b n)).EqualBut v b c' :=
    hc.act_left (decide_eq_true rfl) trivial
  rw [wrapActions]
  split
  · exact htrack
  · exact htrack.log_left _

section Wrap

variable (h : e.AlikeBut v b e') (route : Option Route) (n : Node)

include h

/-- To put a strategy in front of a node leaves engines equal that were equal before. What is
done is told from other engines, those in which the build began. -/
theorem equalBut_wrapActions {c c' : Engine} (hc : c.EqualBut v b c') {s : Strategy}
    (hs : s.isTrace b = false) :
    (c.actAll (e.wrapActions route n s)).EqualBut v b
      (c'.actAll (e'.wrapActions (route.map (·.without b)) n s)) := by
  cases s with
  | handle choose => exact hc
  | trace r =>
    have hr : r ≠ b := of_decide_eq_false hs
    have htrack : (c.act (.track r n)).EqualBut v b (c'.act (.track r n)) := hc.act trivial
    rw [wrapActions, wrapActions, (h.tracer r hr).isShutDown, interceptor_without]
    split
    · exact htrack
    · exact htrack.act (a := .noteWrapping n _) trivial

theorem equalBut_wrapAllActions {c c' : Engine} (hc : c.EqualBut v b c')
    {strategies : List Strategy} (hs : e.refuses strategies = false) :
    (c.actAll (e.wrapAllActions route n strategies)).EqualBut v b
      (c'.actAll (e'.wrapAllActions (route.map (·.without b)) n
        (Strategy.without b strategies))) := by
  induction strategies with
  | nil => exact hc
  | cons s rest ih =>
    rw [refuses_cons, Bool.or_eq_false_iff] at hs
    have hrest := ih hs.2
    rw [wrapAllActions, if_neg (by rw [hs.2]; exact Bool.false_ne_true), actAll_append]
    cases hother : s.isTrace b with
    | true =>
      obtain rfl := Strategy.eq_trace_of_isTrace hother
      rw [Strategy.without_trace_self]
      exact equalBut_wrapActions_left e route n hrest
    | false =>
      rw [Strategy.without_cons_of_not_isTrace hother, wrapAllActions,
        refuses_without_of_false h hs.2, if_neg Bool.false_ne_true, actAll_append]
      exact equalBut_wrapActions h route n hrest hother

end Wrap

theorem equalBut_stagesActions (h : e.AlikeBut v b e') (route : Route)
    {strategies : List Strategy} (hs : e.refuses strategies = false) {c c' : Engine}
    (hc : c.EqualBut v b c') (outputs : List Output) :
    (c.actAll (e.stagesActions route strategies outputs)).EqualBut v b
      (c'.actAll (e'.stagesActions (route.without b) (Strategy.without b strategies)
        (outputs.map fun o => { o with processor := o.processor.without b }))) := by
  induction outputs generalizing c c' with
  | nil => exact hc
  | cons o rest ih =>
    rw [List.map_cons, stagesActions, stagesActions, refuses_without_of_false h hs, hs,
      if_neg Bool.false_ne_true, if_neg Bool.false_ne_true, actAll_append, actAll_append]
    exact ih (equalBut_wrapAllActions h (some route) o.node hc hs)

/-- What is built in engines that are equal but for a tracer hangs on the ids that are seen, and
these are the same in both all the time. -/
theorem stagesOf_eq_of_equalBut (h : e.EqualBut v b e') {strategies : List Strategy}
    {route : Route} (hs : ∀ s ∈ strategies, s.LooksAt v.named route.outline) :
    e'.stagesOf route strategies route.outputs = route.stagesBy e.nodeIds strategies := by
  refine stagesOf_eq hs (fun actions _ m hm => ?_) route.forall_node_mem_nodes
  obtain ⟨id, hid, hid'⟩ := h.named m hm
  rw [nodeIds, nodeIds, hid, e'.keptBy_actAll actions m id hid']

section Build

variable {strategies : List Strategy} {route : Route} {stages : List Processor}
  (hbuild : (e.build strategies route).2 = .ok stages) (h : e.EqualBut v b e')

include hbuild h

theorem not_refuses_without_of_build :
    ¬ (e'.refuses (Strategy.without b strategies) = true ∧ (route.without b).outputs ≠ []) := by
  rintro ⟨hstop, hne⟩
  have hsome : route.outputs ≠ [] := fun hnil => hne (congrArg (List.map _) hnil)
  rw [refuses_without_of_false h.toAlikeBut (refuses_of_build hbuild hsome)] at hstop
  cases hstop

/-- **A build leaves engines equal without a tracer.** -/
theorem equalBut_build : (e.build strategies route).1.EqualBut v b
    (e'.build (Strategy.without b strategies) (route.without b)).1 := by
  have hstages : (e.actAll (e.stagesActions route strategies route.outputs)).EqualBut v b
      (e'.actAll (e'.stagesActions (route.without b) (Strategy.without b strategies)
        (route.without b).outputs)) := by
    by_cases hnil : route.outputs = []
    · rw [Route.without, hnil]
      exact h
    · have hlive := refuses_of_build hbuild hnil
      exact equalBut_stagesActions h.toAlikeBut route hlive h route.outputs
  rw [build_eq, build_eq, buildActions, buildActions, if_neg (not_refuses_of_build hbuild),
    if_neg (not_refuses_without_of_build hbuild h), actAll_append, actAll_append,
    show (route.without b).outputs.length = route.outputs.length from List.length_map _]
  exact hstages.act (a := .noteBuilt route.id _) trivial

/-- **And it gives the same pipeline, less the interceptors of the tracer.** -/
theorem snd_build_without (hs : ∀ s ∈ strategies, s.LooksAt v.named route.outline) :
    (e'.build (Strategy.without b strategies) (route.without b)).2 =
      .ok (Processor.withoutAll b stages) := by
  have hspared : ∀ s ∈ Strategy.without b strategies,
      s.LooksAt v.named (route.without b).outline := by
    rw [route.outline_without]
    exact fun s hmem => hs s (Strategy.mem_of_mem_without hmem)
  rw [build_eq, if_neg (not_refuses_without_of_build hbuild h), stagesOf_eq_of_equalBut h hspared,
    eq_stagesOf_of_build hbuild, stagesOf_eq_of_equalBut (h.trans h.symm) hs,
    Route.withoutAll_stagesBy]

end Build

end Engine

end TraceBacklog
