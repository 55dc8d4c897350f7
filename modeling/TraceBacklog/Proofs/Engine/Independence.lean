/-
# Tracers are independent

Two tracers of one engine do not influence each other, although they stand in front of the same
nodes and see the same exchanges. Take a run and leave everything out that concerns one of
them: what it is asked, and its place among the strategies of every route. Then the other one
goes through the same states, step by step, with the same events but for their times
(`Engine.independent_of_others`). Only the ids of nodes could tell it that the other tracer is
there, so nodes are to have ids from their definition; and nothing in a route may ask the
tracer that is left out, for what it answers decides how an exchange goes on.

The full run and the other one go through engines that are equal but for that tracer, in a
view of ids from definitions (`View.given`), and every operation keeps them so
(`Engine.equalBut_operate`).

Key definitions: `Operation.without`, `Operation.Apart`, `withoutTicks`.
Key theorems: `Engine.equalBut_operate`, `Engine.equalBut_operateAll`,
`Engine.independent_of_others`.
-/
import TraceBacklog.Proofs.Route.Without

namespace TraceBacklog

namespace Operation

/-- What is left of an operation without a tracer: its place among strategies is closed, its
interceptors are taken out of processors, and what is asked of it alone is left out. -/
def without (b : TracerRef) : Operation → Option Operation
  | .act a => if a.isOf b then none else some (.act a)
  | .wrap route n s target =>
    if s.isTrace b then none
    else some (.wrap (route.map (·.without b)) n s (target.without b))
  | .build strategies route => some (.build (Strategy.without b strategies) (route.without b))
  | .process p x => some (.process (p.without b) x)
  | .stop p => some (.stop (p.without b))

/-- Exchanges are recorded apart, and a processor that one is sent through asks nothing of the
tracer and looks neither at times nor at ids that are not from definitions. Outside of processors
the tracer may be asked anything. -/
def Apart (b : TracerRef) : Operation → Prop
  | .act a => a.RecordsApart .given b
  | .process p _ => p.Within (Action.Apart .given b) ∧ p.GoesBy .given
  | _ => True

/-- Does nothing happen but that time goes on? -/
def isTick : Operation → Bool
  | .act (.tick _) => true
  | _ => false

end Operation

/-- A run as if it took no time. -/
def withoutTicks (ops : List Operation) : List Operation := ops.filter (!·.isTick)

namespace Engine

variable {b : TracerRef} {e e' : Engine}

/-- **An operation leaves engines equal without the tracer.** -/
theorem equalBut_operate (h : e.EqualBut .given b e') {op : Operation} (hop : op.Apart b)
    (hbuild : ∀ strategies route, op = .build strategies route →
      ∃ stages, (e.build strategies route).2 = .ok stages) :
    match op.without b with
    | some op' => (e.operate op).EqualBut .given b (e'.operate op')
    | none => (e.operate op).EqualBut .given b e' := by
  cases op with
  | act a =>
    cases hof : a.isOf b with
    | true =>
      rw [Operation.without, hof, if_pos rfl]
      exact h.act_left hof hop
    | false =>
      rw [Operation.without, hof, if_neg Bool.false_ne_true]
      exact h.act hop
  | wrap route n s target =>
    rw [operate, wrap_eq, Operation.without]
    cases hs : s.isTrace b with
    | true =>
      obtain rfl := Strategy.eq_trace_of_isTrace hs
      exact equalBut_wrapActions_left e route n h
    | false =>
      rw [if_neg Bool.false_ne_true]
      show EqualBut .given b _ (e'.wrap _ n s _).1
      rw [wrap_eq]
      exact equalBut_wrapActions h.toAlikeBut route n h hs
  | build strategies route =>
    obtain ⟨stages, hstages⟩ := hbuild strategies route rfl
    exact equalBut_build hstages h
  | process p x => exact (Processor.process_without_related h x hop.1 hop.2).engine
  | stop p => exact Processor.stop_without_equalBut h p

/-- That time goes on does not show. -/
theorem equalBut_operate_of_isTick {op : Operation} (hop : op.isTick = true) :
    e.EqualBut .given b (e'.operate op) ↔ e.EqualBut .given b e' := by
  unfold Operation.isTick at hop
  split at hop
  · exact ⟨fun h => h.of_alikeBut (h.toAlikeBut.congr_tracers rfl rfl) (.refl _) (.refl _),
      fun h => h.of_alikeBut (h.toAlikeBut.congr_tracers rfl rfl) (.refl _) (.refl _)⟩
  · cases hop

theorem equalBut_ticks (h : e.EqualBut .given b e') {ticks : List Operation}
    (hticks : ∀ op ∈ ticks, op.isTick = true) : e.EqualBut .given b (e'.operateAll ticks) := by
  induction ticks generalizing e' with
  | nil => exact h
  | cons op rest ih =>
    have htick := (equalBut_operate_of_isTick (hticks op List.mem_cons_self)).mpr h
    exact ih htick fun op' hop' => hticks op' (List.mem_cons_of_mem _ hop')

/-- So does a run, however the time goes on. -/
theorem equalBut_operateAll (h : e.EqualBut .given b e') {ops : List Operation}
    (hops : ∀ op ∈ ops, op.Apart b)
    (hbuilds : ∀ first strategies route, first ++ [.build strategies route] <+: ops →
      ∃ stages, ((e.operateAll first).build strategies route).2 = .ok stages)
    {spared : List Operation}
    (hspared : withoutTicks spared = withoutTicks (ops.filterMap (·.without b))) :
    (e.operateAll ops).EqualBut .given b (e'.operateAll spared) := by
  induction ops generalizing e e' spared with
  | nil =>
    refine equalBut_ticks h fun op hop => ?_
    have hnone := List.filter_eq_nil_iff.mp hspared op hop
    simpa using hnone
  | cons op rest ih =>
    have hstep {e' : Engine} (he : e.EqualBut .given b e') :=
      equalBut_operate he (hops op List.mem_cons_self) fun strategies route hop =>
        hbuilds [] strategies route (hop ▸ List.prefix_append [_] rest)
    have hrest {e' : Engine} {spared : List Operation}
        (he : (e.operate op).EqualBut .given b e')
        (hspared : withoutTicks spared = withoutTicks (rest.filterMap (·.without b))) :
        ((e.operate op).operateAll rest).EqualBut .given b (e'.operateAll spared) :=
      ih he (fun op' hop' => hops op' (List.mem_cons_of_mem _ hop'))
        (fun first strategies route hfirst => hbuilds (op :: first) strategies route
          (List.cons_prefix_cons.mpr ⟨rfl, hfirst⟩)) hspared
    cases hwithout : op.without b with
    | none =>
      simp only [hwithout] at hstep
      rw [List.filterMap_cons_none hwithout] at hspared
      exact hrest (hstep h) hspared
    | some op' =>
      simp only [hwithout] at hstep
      rw [List.filterMap_cons_some hwithout] at hspared
      cases htick : op'.isTick with
      | true =>
        rw [withoutTicks, withoutTicks, List.filter_cons_of_neg (by rw [htick]; decide)] at hspared
        exact hrest ((equalBut_operate_of_isTick htick).mp (hstep h)) hspared
      | false =>
        -- The other run comes to the same operation, after some time perhaps.
        rw [withoutTicks, withoutTicks, List.filter_cons_of_pos (by rw [htick]; rfl)] at hspared
        obtain ⟨ticks, later, rfl, hticks, -, hlater⟩ := List.filter_eq_cons_iff.mp hspared
        have hwaited := equalBut_ticks h fun op hop => by simpa using hticks op hop
        rw [show e'.operateAll (ticks ++ op' :: later) =
          ((e'.operateAll ticks).operate op').operateAll later from List.foldl_append]
        exact hrest (hstep hwaited) hlater

/-- **Tracers are independent.** Take a run in which two tracers, and others, are asked one thing
or another, routes are built with any of them, in any order, and exchanges go through pipelines
that are torn down in the end. Interceptors of the second tracer store with it, the others record
at nodes that have ids from their definition, no processor asks anything of the second tracer or
looks at times or at other ids, and no build aborts. Then without the second tracer, whatever
time anything takes, the first one shows the same at every moment of the run: the same state and
settings, the same counters and nodes, a backlog with the same counters and, but for their times,
the same events. And what is built with strategies that look at ids from definitions alone is the
same, less the interceptors of the second tracer. -/
theorem independent_of_others {a b : TracerRef} (hab : a ≠ b) {e : Engine} {ops : List Operation}
    (hops : ∀ op ∈ ops, op.Apart b)
    (hbuilds : ∀ first strategies route, first ++ [.build strategies route] <+: ops →
      ∃ stages, ((e.operateAll first).build strategies route).2 = .ok stages)
    {moment spared : List Operation} (hmoment : moment <+: ops)
    (hspared : withoutTicks spared = withoutTicks (moment.filterMap (·.without b))) :
    ((e.operateAll moment).tracer a).Alike .given ((e.operateAll spared).tracer a) ∧
    ∀ strategies route stages, (∀ s ∈ strategies, s.LooksAt View.given.named route.outline) →
      ((e.operateAll moment).build strategies route).2 = .ok stages →
      ((e.operateAll spared).build (Strategy.without b strategies) (route.without b)).2 =
        .ok (Processor.withoutAll b stages) := by
  have h := equalBut_operateAll (.refl_given b e) (fun op hop => hops op (hmoment.subset hop))
    (fun first strategies route hfirst => hbuilds first strategies route (hfirst.trans hmoment))
    hspared
  exact ⟨h.tracer a hab, fun _ _ _ hs hbuild => snd_build_without hbuild h hs⟩

/-- Two tracers stand in front of a node, the second one outside. It is asked for less, records
one exchange and is shut down before the next one comes. -/
theorem independent_of_others_sample :
    let e := ((((initial .epoch).newFactory .fresh).1.newTracer
      { Config.default with enabled := true } (some ⟨0⟩)).1.newTracer
      { Config.default with enabled := true } (some ⟨0⟩)).1
    let route : Route := ⟨some "orders", [⟨⟨⟨0⟩, "to", some "to1", []⟩, .leaf none []⟩]⟩
    let strategies : List Strategy := [.trace ⟨1⟩, .trace ⟨0⟩]
    let p := Processor.pipeline (route.stages strategies)
    let later : List Operation := [.act (.perform ⟨1⟩ (.setBacklogSize 1)),
      .process p (.new "X1" (.text "A")), .act (.perform ⟨1⟩ .shutDown),
      .process p (.new "X2" .opaqueValue), .stop p]
    let ops := .build strategies route :: later
    let spared := ops.filterMap (·.without ⟨1⟩)
    (∀ op ∈ ops, op.Apart ⟨1⟩) ∧
    (∀ first strategies route, first ++ [.build strategies route] <+: ops →
      ∃ stages, ((e.operateAll first).build strategies route).2 = .ok stages) ∧
    spared.length = 4 ∧ ((e.operateAll spared).tracer ⟨1⟩).isShutDown = false ∧
    ((e.operateAll spared).tracer ⟨0⟩).traceCounter = 2 ∧
    ((e.operateAll spared).tracer ⟨0⟩).captureFailures = 1 := by
  intro e route strategies p later ops spared
  have hp : p.Within (Action.Apart .given ⟨1⟩) ∧ p.GoesBy .given := by
    simp [p, route, strategies, Route.stages, Route.stagesBy, Strategy.inFront, Strategy.put,
      interceptor, Processor.Within, Processor.AllWithin, Processor.GoesBy, Processor.AllGoBy,
      Action.Apart, Action.RecordsApart, View.given, Node.hasCustomId]
  have hops : ∀ op ∈ ops, op.Apart ⟨1⟩ := by
    simp only [ops, later, List.forall_mem_cons]
    exact ⟨trivial, trivial, hp, trivial, hp, trivial, List.forall_mem_nil _⟩
  have hbuilds : ∀ first strategies route, first ++ [.build strategies route] <+: ops →
      ∃ stages, ((e.operateAll first).build strategies route).2 = .ok stages := by
    rintro (_ | ⟨op, first⟩) strategies' route' hfirst
    · obtain ⟨heq, -⟩ := List.cons_prefix_cons.mp hfirst
      cases heq
      exact ⟨_, rfl⟩
    · -- There is only one build.
      have hmem : Operation.build strategies' route' ∈ later :=
        (List.cons_prefix_cons.mp hfirst).2.subset (List.mem_append_right _ List.mem_cons_self)
      simp [later] at hmem
  obtain ⟨h, -⟩ := independent_of_others (a := ⟨0⟩) (by decide) hops hbuilds List.prefix_rfl
    (show withoutTicks spared = _ from rfl)
  refine ⟨hops, hbuilds, rfl, by decide +kernel, ?_, ?_⟩
  · rw [← h.traceCounter]
    decide +kernel
  · rw [← h.captureFailures]
    decide +kernel

end Engine

end TraceBacklog
