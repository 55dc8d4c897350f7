/-
# What processing does, action by action

Sending an exchange through a processor changes the engine by elementary actions:
exchanges reach interceptors, tracers are asked things, named leaves are visited.
`Processor.actions` lists them in their order and `Processor.engine_process` says that
the engine afterwards is the engine before with these actions done. So what every action
keeps, processing keeps, and a history of actions is a history of the processing. A look
at the id of a node is listed as well, although it changes nothing.

A processor is `Within` a kind of actions if nothing else can happen in it, whatever the
programs in it are answered.

Key definitions: `Action`, `Engine.act`, `Engine.actAll`, `Processor.actions`,
`Processor.Within`.
Key theorems: `Processor.engine_process`, `Processor.within_actions`.
-/
import TraceBacklog.Processor
import TraceBacklog.Proofs.Engine.Frame

namespace TraceBacklog

/-- What an operation of an engine is made of. -/
inductive Action where
  /-- An exchange reaches an interceptor. -/
  | enter (i : Interceptor) (x : Exchange)
  | perform (r : TracerRef) (c : Command)
  /-- Somebody looks at the id of a node. -/
  | look (n : Node)
  | track (r : TracerRef) (n : Node)
  | untrack (r : TracerRef) (n : Node)
  | noteWrapping (n : Node) (first : Bool)
  | noteBuilt (routeId : Option String) (nodes : ℕ)
  | visit (name : Option String) (kind : VisitKind)
  | newFactory (f : IdFactory)
  | newTracer (c : Config) (f : Option FactoryRef)
  | nameNode (f : FactoryRef) (n : Node)
  | createId (f : FactoryRef) (label : String)
  | initNodeId (n : Node) (id : String)
  /-- The time goes on. -/
  | tick (clock : Clock)

namespace Engine

def act (e : Engine) : Action → Engine
  | .enter i x => e.enter i x
  | .perform r c => (e.perform r c).1
  | .look _ => e
  | .track r n => (e.track r n).1
  | .untrack r n => e.untrack r n
  | .noteWrapping n first => e.log (.wrapping (n.display e.ids) first)
  | .noteBuilt routeId nodes => e.log (.routeBuilt routeId nodes)
  | .visit name kind => e.visit name kind
  | .newFactory f => (e.newFactory f).1
  | .newTracer c f => (e.newTracer c f).1
  | .nameNode f n => e.nameNode f n
  | .createId f label => (e.createId f label).1
  | .initNodeId n id => (e.initNodeId n id).1
  | .tick clock => { e with clock := clock }

/-- Does one action after the other. -/
def actAll (e : Engine) (actions : List Action) : Engine := actions.foldl act e

@[simp] theorem actAll_nil (e : Engine) : e.actAll [] = e := rfl

theorem actAll_cons (e : Engine) (a : Action) (rest : List Action) :
    e.actAll (a :: rest) = (e.act a).actAll rest := rfl

theorem actAll_append (e : Engine) (first rest : List Action) :
    e.actAll (first ++ rest) = (e.actAll first).actAll rest := List.foldl_append

end Engine

/-! ### The actions of a passage -/

namespace Passage

/-- The actions of what comes after a passage, if it goes on. -/
def actionsThen (p : Passage) (next : Engine → Exchange → List Action) : List Action :=
  match p.outcome with
  | .ok () => next p.engine p.exchange
  | .error _ => []

theorem andThen_of_ok {p : Passage} (h : p.outcome = .ok ())
    (next : Engine → Exchange → Passage) : p.andThen next = next p.engine p.exchange := by
  rw [andThen, h]

theorem andThen_of_error {p : Passage} {stop : Stop} (h : p.outcome = .error stop)
    (next : Engine → Exchange → Passage) : p.andThen next = p := by
  rw [andThen, h]

theorem engine_andThen {p : Passage} {next : Engine → Exchange → Passage}
    {nextActions : Engine → Exchange → List Action}
    (h : ∀ e x, (next e x).engine = e.actAll (nextActions e x)) :
    (p.andThen next).engine = p.engine.actAll (p.actionsThen nextActions) := by
  obtain ⟨e, x, outcome⟩ := p
  cases outcome with
  | ok => exact h e x
  | error stop => rfl

end Passage

namespace Handling

variable {τ : Type}

/-- What an engine goes through while a program deals with an exchange. -/
def actions (target : τ → Engine → Exchange → Passage)
    (targetActions : τ → Engine → Exchange → List Action) (e : Engine) : Handling τ → List Action
  | .finish _ _ => []
  | .send t x next =>
    let p := target t e x
    targetActions t e x ++ (next p.exchange p.outcome).actions target targetActions p.engine
  | .ask r c next =>
    let (after, answer) := e.perform r c
    .perform r c :: (next answer).actions target targetActions after
  | .look n next => .look n :: (next (n.id? e.ids)).actions target targetActions e

theorem engine_run {target : τ → Engine → Exchange → Passage}
    {targetActions : τ → Engine → Exchange → List Action}
    (h : ∀ t e x, (target t e x).engine = e.actAll (targetActions t e x)) (e : Engine)
    (s : Handling τ) : (s.run target e).engine = e.actAll (s.actions target targetActions e) := by
  induction s generalizing e with
  | finish x outcome => rfl
  | send t x next ih =>
    rw [run, actions, Engine.actAll_append, ← h]
    exact ih _ _ _
  | ask r c next ih => exact ih _ (e.perform r c).1
  | look n next ih => exact ih _ e

end Handling

namespace Step

def actions (e : Engine) (x : Exchange) (s : Step) : List Action :=
  (s x).actions Empty.elim Empty.elim e

def actionsAll (e : Engine) (x : Exchange) : List Step → List Action
  | [] => []
  | s :: rest => s.actions e x ++ (s.run e x).actionsThen fun e x => actionsAll e x rest

theorem engine_run (e : Engine) (x : Exchange) (s : Step) :
    (s.run e x).engine = e.actAll (s.actions e x) :=
  Handling.engine_run nofun e (s x)

theorem engine_runAll (e : Engine) (x : Exchange) (steps : List Step) :
    (runAll e x steps).engine = e.actAll (actionsAll e x steps) := by
  induction steps generalizing e x with
  | nil => rfl
  | cons s rest ih =>
    rw [runAll, actionsAll, Engine.actAll_append, ← engine_run e x]
    exact Passage.engine_andThen ih

end Step

namespace Processor

mutual

/-- What an engine goes through while an exchange is sent through. -/
def actions (e : Engine) (x : Exchange) : Processor → List Action
  | .leaf name steps =>
    .visit name .called :: Step.actionsAll (e.visit name .called) x steps
  | .pipeline stages => actionsAll e x stages
  | .traced i target => .enter i x :: target.actions (e.enter i x) x
  | .handled handler target =>
    (handler x).actions (fun _ e x => target.process e x) (fun _ e x => target.actions e x) e

def actionsAll (e : Engine) (x : Exchange) : List Processor → List Action
  | [] => []
  | p :: rest => p.actions e x ++ (p.process e x).actionsThen fun e x => actionsAll e x rest

end

mutual

/-- An engine after an exchange was sent through is the engine before, after the actions
of the passage. -/
theorem engine_process (e : Engine) (x : Exchange) :
    ∀ p : Processor, (p.process e x).engine = e.actAll (p.actions e x)
  | .leaf name steps => by
    rw [process, actions, Engine.actAll_cons]
    exact Step.engine_runAll _ x steps
  | .pipeline stages => by
    rw [process, actions]
    exact engine_processAll e x stages
  | .traced i target => by
    rw [process, actions, Engine.actAll_cons]
    exact engine_process _ x target
  | .handled handler target => by
    rw [process, actions]
    exact Handling.engine_run (fun _ e x => engine_process e x target) e (handler x)

theorem engine_processAll (e : Engine) (x : Exchange) :
    ∀ ps : List Processor, (processAll e x ps).engine = e.actAll (actionsAll e x ps)
  | [] => rfl
  | p :: rest => by
    rw [processAll, actionsAll, Engine.actAll_append, ← engine_process e x p]
    exact Passage.engine_andThen fun e x => engine_processAll e x rest

end

end Processor

/-! ### Kinds of actions -/

/-- Nothing but such actions can happen in what a program does, whatever it is answered. What
its targets do is left out. -/
def Handling.Within {τ : Type} (ok : Action → Prop) : Handling τ → Prop
  | .finish _ _ => True
  | .send _ _ next => ∀ x outcome, (next x outcome).Within ok
  | .ask r c next => ok (.perform r c) ∧ ∀ answer, (next answer).Within ok
  | .look n next => ok (.look n) ∧ ∀ id?, (next id?).Within ok

/-- Nothing but such actions can happen in the step. -/
def Step.Within (ok : Action → Prop) (s : Step) : Prop := ∀ x, (s x).Within ok

@[simp]
theorem Handling.within_tag (ok : Action → Prop) (t : String) (x : Exchange) :
    (Handling.tag t x).Within ok := fun _ _ => trivial

@[simp]
theorem Step.within_edit (ok : Action → Prop) (change : Exchange → Exchange × Outcome) :
    (edit change).Within ok := fun _ => trivial

@[simp]
theorem Step.within_operate {ok : Action → Prop} {r : TracerRef} {c : Command} :
    (operate r c).Within ok ↔ ok (.perform r c) := by
  refine ⟨fun h => (h default).1, fun h x => ⟨h, fun answer => ?_⟩⟩
  rcases answer with ⟨_ | _⟩ | _ <;> trivial

namespace Processor

mutual

/-- Nothing but such actions can happen in the processor. -/
def Within (ok : Action → Prop) : Processor → Prop
  | .leaf name steps => ok (.visit name .called) ∧ ∀ s ∈ steps, s.Within ok
  | .pipeline stages => AllWithin ok stages
  | .traced i target => (∀ x, ok (.enter i x)) ∧ target.Within ok
  | .handled handler target => (∀ x, (handler x).Within ok) ∧ target.Within ok

def AllWithin (ok : Action → Prop) : List Processor → Prop
  | [] => True
  | p :: rest => p.Within ok ∧ AllWithin ok rest

end

end Processor

/-- A program does nothing but to ask and to look. -/
theorem Handling.Within.mono {τ : Type} {ok ok' : Action → Prop}
    (hperform : ∀ r c, ok (.perform r c) → ok' (.perform r c))
    (hlook : ∀ n, ok (.look n) → ok' (.look n)) {s : Handling τ} (h : s.Within ok) :
    s.Within ok' := by
  induction s with
  | finish x outcome => trivial
  | send t x next ih => exact fun y outcome => ih _ _ (h y outcome)
  | ask r c next ih => exact ⟨hperform r c h.1, fun answer => ih _ (h.2 answer)⟩
  | look n next ih => exact ⟨hlook n h.1, fun id? => ih _ (h.2 id?)⟩

namespace Processor

theorem allWithin_iff (ok : Action → Prop) (ps : List Processor) :
    AllWithin ok ps ↔ ∀ p ∈ ps, p.Within ok := by
  induction ps with
  | nil => exact ⟨fun _ p hp => absurd hp List.not_mem_nil, fun _ => by rw [AllWithin]; trivial⟩
  | cons p rest ih => rw [AllWithin, ih, List.forall_mem_cons]

mutual

/-- A processor within a kind of actions is within every wider kind. -/
theorem Within.mono {ok ok' : Action → Prop} (h : ∀ a, ok a → ok' a) :
    ∀ {p : Processor}, p.Within ok → p.Within ok'
  | .leaf name steps, hp => by
    rw [Within] at hp ⊢
    exact ⟨h _ hp.1, fun s hs x => (hp.2 s hs x).mono (fun _ _ => h _) fun _ => h _⟩
  | .pipeline stages, hp => by
    rw [Within] at hp ⊢
    exact AllWithin.mono h hp
  | .traced i target, hp => by
    rw [Within] at hp ⊢
    exact ⟨fun x => h _ (hp.1 x), Within.mono h hp.2⟩
  | .handled handler target, hp => by
    rw [Within] at hp ⊢
    exact ⟨fun x => (hp.1 x).mono (fun _ _ => h _) fun _ => h _, Within.mono h hp.2⟩

theorem AllWithin.mono {ok ok' : Action → Prop} (h : ∀ a, ok a → ok' a) :
    ∀ {ps : List Processor}, AllWithin ok ps → AllWithin ok' ps
  | [], _ => by
    rw [AllWithin]
    trivial
  | p :: rest, hp => by
    rw [AllWithin] at hp ⊢
    exact ⟨Within.mono h hp.1, AllWithin.mono h hp.2⟩

end

end Processor

theorem Passage.actionsThen_within {ok : Action → Prop} {p : Passage}
    {next : Engine → Exchange → List Action} (h : ∀ e x, ∀ a ∈ next e x, ok a) :
    ∀ a ∈ p.actionsThen next, ok a := by
  obtain ⟨e, x, outcome⟩ := p
  cases outcome with
  | ok => exact h e x
  | error stop => exact fun a ha => absurd ha List.not_mem_nil

theorem Handling.actions_within {τ : Type} {ok : Action → Prop}
    {target : τ → Engine → Exchange → Passage}
    {targetActions : τ → Engine → Exchange → List Action}
    (h : ∀ t e x, ∀ a ∈ targetActions t e x, ok a) (e : Engine) {s : Handling τ}
    (hs : s.Within ok) : ∀ a ∈ s.actions target targetActions e, ok a := by
  induction s generalizing e with
  | finish x outcome => exact fun a ha => absurd ha List.not_mem_nil
  | send t x next ih =>
    intro a ha
    rw [actions] at ha
    rcases List.mem_append.mp ha with ha | ha
    · exact h t e x a ha
    · exact ih _ _ _ (hs _ _) a ha
  | ask r c next ih => exact List.forall_mem_cons.mpr ⟨hs.1, ih _ (e.perform r c).1 (hs.2 _)⟩
  | look n next ih => exact List.forall_mem_cons.mpr ⟨hs.1, ih _ e (hs.2 _)⟩

theorem Step.actionsAll_within {ok : Action → Prop} (e : Engine) (x : Exchange)
    {steps : List Step} (h : ∀ s ∈ steps, s.Within ok) : ∀ a ∈ actionsAll e x steps, ok a := by
  induction steps generalizing e x with
  | nil => exact fun a ha => absurd ha List.not_mem_nil
  | cons s rest ih =>
    intro a ha
    rw [actionsAll] at ha
    rcases List.mem_append.mp ha with ha | ha
    · exact Handling.actions_within nofun e (h s List.mem_cons_self x) a ha
    · refine Passage.actionsThen_within (fun e x => ?_) a ha
      exact ih e x fun s hs => h s (List.mem_cons_of_mem _ hs)

namespace Processor

mutual

/-- What happens in a processor is of the kind that it is within. -/
theorem within_actions {ok : Action → Prop} (e : Engine) (x : Exchange) :
    ∀ {p : Processor}, p.Within ok → ∀ a ∈ p.actions e x, ok a
  | .leaf name steps, h => by
    rw [Within] at h
    rw [actions]
    intro a ha
    rcases List.mem_cons.mp ha with rfl | ha
    · exact h.1
    · exact Step.actionsAll_within _ x h.2 a ha
  | .pipeline stages, h => by
    rw [Within] at h
    rw [actions]
    exact within_actionsAll e x h
  | .traced i target, h => by
    rw [Within] at h
    rw [actions]
    intro a ha
    rcases List.mem_cons.mp ha with rfl | ha
    · exact h.1 x
    · exact within_actions _ x h.2 a ha
  | .handled handler target, h => by
    rw [Within] at h
    rw [actions]
    exact Handling.actions_within (fun _ e x => within_actions e x h.2) e (h.1 x)

theorem within_actionsAll {ok : Action → Prop} (e : Engine) (x : Exchange) :
    ∀ {ps : List Processor}, AllWithin ok ps → ∀ a ∈ actionsAll e x ps, ok a
  | [], _ => fun a ha => by
    rw [actionsAll] at ha
    exact absurd ha List.not_mem_nil
  | p :: rest, h => by
    rw [AllWithin] at h
    rw [actionsAll]
    intro a ha
    rcases List.mem_append.mp ha with ha | ha
    · exact within_actions e x h.1 a ha
    · exact Passage.actionsThen_within (fun e x => within_actionsAll e x h.2) a ha

end

end Processor

end TraceBacklog
