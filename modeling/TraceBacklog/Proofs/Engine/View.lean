/-
# What programs go by

The programs in processors learn of the engine from the answers of tracers and from the ids
of nodes. A `View` is a part of this: the ids of some nodes, and of events everything but
their times, the node that an event belongs to included or not. A program goes by a view if
it does the same whenever the view shows the same.

Two engines that are related, by a relation that actions of a kind respect and in which a
view shows the same, process alike, if nothing else happens in the processor and its programs
go by the view: the engines stay related and the exchange comes out the same
(`Processor.process_related`).

Key definitions: `View`, `View.shown`, `Processor.GoesBy`, `Strategy.GoesBy`, `Respects`,
`Passage.Related`.
Key theorems: `Processor.Within.goesBy`, `Processor.process_related`.
-/
import TraceBacklog.Proofs.Engine.Action
import TraceBacklog.Route

namespace TraceBacklog

/-- Does the answer hang on which nodes the events belong to? -/
def Command.looksUp : Command → Bool
  | .dump _ => true
  | .latest _ => true
  | .backlog (.filter s) => s.node.isSome
  | _ => false

/-- What is seen of an engine. -/
structure View where
  /-- The nodes whose ids are seen. -/
  named : Node → Prop
  /-- Is it seen which node an event belongs to? -/
  byNode : Bool

namespace View

/-- What is seen of an event; its time never is. -/
def event (v : View) (event : Event) : Event :=
  { event with timestamp := .epoch, toNode := bif v.byNode then event.toNode else "" }

def reply (v : View) : Reply → Reply
  | .events events => .events (events.map v.event)
  | .backlog (.events events) => .backlog (.events (events.map v.event))
  | .backlog (.evicted event?) => .backlog (.evicted (event?.map v.event))
  | reply => reply

/-- What is seen of the answer to a command. -/
def shown (v : View) (c : Command) (reply : Reply) : Reply :=
  bif c.looksUp && !v.byNode then .done else v.reply reply

theorem shown_congr {v : View} {c : Command} {reply reply' : Reply}
    (h : v.byNode = true ∨ c.looksUp = false → v.reply reply = v.reply reply') :
    v.shown c reply = v.shown c reply' := by
  unfold shown
  cases hv : v.byNode with
  | true => simpa using h (.inl hv)
  | false =>
    cases hc : c.looksUp with
    | true => rfl
    | false => exact h (.inr hc)

/-- The ids from definitions are seen, and in events all ids are. -/
def given : View := ⟨fun n => n.hasCustomId = true, true⟩

end View

/-! ### Going by a view -/

/-- The program does the same whenever the view shows the same. -/
def Handling.GoesBy {τ : Type} (v : View) : Handling τ → Prop
  | .finish _ _ => True
  | .send _ _ next => ∀ x outcome, (next x outcome).GoesBy v
  | .ask _ c next =>
    (∀ a b : Except Stop Reply, a.map (v.shown c) = b.map (v.shown c) → next a = next b) ∧
      ∀ answer, (next answer).GoesBy v
  | .look n next => (v.named n ∨ ∀ a b, next a = next b) ∧ ∀ id?, (next id?).GoesBy v

def Step.GoesBy (v : View) (s : Step) : Prop := ∀ x, (s x).GoesBy v

namespace Processor

mutual

/-- All programs in the processor go by the view. -/
def GoesBy (v : View) : Processor → Prop
  | .leaf _ steps => ∀ s ∈ steps, s.GoesBy v
  | .pipeline stages => AllGoBy v stages
  | .traced _ target => target.GoesBy v
  | .handled handler target => (∀ x, (handler x).GoesBy v) ∧ target.GoesBy v

def AllGoBy (v : View) : List Processor → Prop
  | [] => True
  | p :: rest => p.GoesBy v ∧ AllGoBy v rest

end

end Processor

namespace Strategy

/-- What the strategy puts in front of the nodes of a route hangs on the ids of no others. -/
def LooksAt (named : Node → Prop) (route : Outline) : Strategy → Prop
  | .trace _ => True
  | .handle choose => ∀ n ∈ route.nodes, ∀ ids ids' : NodeIds, (∀ m, named m → ids m = ids' m) →
    choose (some route) n ids = choose (some route) n ids'

/-- Whatever the strategy puts in front of the nodes of a route is of this kind. -/
def Puts (kind : (Exchange → Handling Unit) → Prop) (route : Outline) : Strategy → Prop
  | .trace _ => True
  | .handle choose => ∀ n ∈ route.nodes, ∀ ids handler,
    choose (some route) n ids = some handler → kind handler

/-- On a route the strategy goes by the view, and so does what it puts in front of the nodes. -/
def GoesBy (v : View) (route : Outline) (s : Strategy) : Prop :=
  s.LooksAt v.named route ∧ s.Puts (fun handler => ∀ x, (handler x).GoesBy v) route

/-- Nothing but such actions can happen in what the strategy puts in front of the nodes. -/
def Within (ok : Action → Prop) (route : Outline) (s : Strategy) : Prop :=
  s.Puts (fun handler => ∀ x, (handler x).Within ok) route

theorem Within.mono {ok ok' : Action → Prop} (h : ∀ a, ok a → ok' a) {route : Outline}
    {s : Strategy} (hs : s.Within ok route) : s.Within ok' route := by
  cases s with
  | trace r => trivial
  | handle choose =>
    exact fun n hn ids handler hput x =>
      (hs n hn ids handler hput x).mono (fun _ _ => h _) fun _ => h _

end Strategy

section GoesBy

variable (v : View)

@[simp]
theorem Step.goesBy_edit (change : Exchange → Exchange × Outcome) : (edit change).GoesBy v :=
  fun _ => trivial

/-- What is asked for its effect alone is asked by every view: all of them show aborts. -/
@[simp]
theorem Step.goesBy_operate (r : TracerRef) (c : Command) : (operate r c).GoesBy v := by
  refine fun x => ⟨fun a b h => ?_, fun answer => ?_⟩
  · rcases a with stop | reply <;> rcases b with stop' | reply'
    · cases h
      rfl
    · cases h
    · cases h
    · rfl
  · rcases answer with ⟨_ | _⟩ | _ <;> trivial

@[simp]
theorem Strategy.looksAt_trace (named : Node → Prop) (route : Outline) (r : TracerRef) :
    (Strategy.trace r).LooksAt named route := trivial

@[simp]
theorem Strategy.looksAt_tag (named : Node → Prop) (route : Outline) (t : String) :
    (Strategy.tag t).LooksAt named route := fun _ _ _ _ _ => rfl

theorem Strategy.looksAt_map_trace (named : Node → Prop) (route : Outline)
    (tracers : List TracerRef) : ∀ s ∈ tracers.map Strategy.trace, s.LooksAt named route :=
  List.forall_mem_map.mpr fun r _ => looksAt_trace named route r

@[simp]
theorem Strategy.goesBy_trace (route : Outline) (r : TracerRef) :
    (Strategy.trace r).GoesBy v route := ⟨trivial, trivial⟩

@[simp]
theorem Strategy.within_trace (ok : Action → Prop) (route : Outline) (r : TracerRef) :
    (Strategy.trace r).Within ok route := trivial

@[simp]
theorem Strategy.within_tag (ok : Action → Prop) (route : Outline) (t : String) :
    (Strategy.tag t).Within ok route :=
  fun _ _ _ _ h x => Option.some.inj h ▸ Handling.within_tag ok t x

end GoesBy

/-! ### Programs that find out nothing -/

theorem Handling.Within.goesBy {τ : Type} {ok : Action → Prop}
    (hperform : ∀ r c, ¬ ok (.perform r c)) (hlook : ∀ n, ¬ ok (.look n)) (v : View)
    {s : Handling τ} (h : s.Within ok) : s.GoesBy v := by
  induction s with
  | finish x outcome => trivial
  | send t x next ih => exact fun y outcome => ih _ _ (h y outcome)
  | ask r c next ih => exact absurd h.1 (hperform r c)
  | look n next ih => exact absurd h.1 (hlook n)

namespace Processor

mutual

/-- If programs of a kind go by a view, such as those that find out nothing, so do processors of
this kind. -/
theorem Within.goesBy {ok : Action → Prop} {v : View}
    (hv : ∀ {τ : Type} {s : Handling τ}, s.Within ok → s.GoesBy v) :
    ∀ {p : Processor}, p.Within ok → p.GoesBy v
  | .leaf name steps, h => by
    rw [Within] at h
    rw [GoesBy]
    exact fun s hs x => hv (h.2 s hs x)
  | .pipeline stages, h => by
    rw [Within] at h
    rw [GoesBy]
    exact AllWithin.goesBy hv h
  | .traced i target, h => by
    rw [Within] at h
    rw [GoesBy]
    exact Within.goesBy hv h.2
  | .handled handler target, h => by
    rw [Within] at h
    rw [GoesBy]
    exact ⟨fun x => hv (h.1 x), Within.goesBy hv h.2⟩

theorem AllWithin.goesBy {ok : Action → Prop} {v : View}
    (hv : ∀ {τ : Type} {s : Handling τ}, s.Within ok → s.GoesBy v) :
    ∀ {ps : List Processor}, AllWithin ok ps → AllGoBy v ps
  | [], _ => by
    rw [AllGoBy]
    trivial
  | p :: rest, h => by
    rw [AllWithin] at h
    rw [AllGoBy]
    exact ⟨Within.goesBy hv h.1, AllWithin.goesBy hv h.2⟩

end

end Processor

/-- Such actions keep engines related, and what they let a program see is the same in both. -/
structure Respects (v : View) (rel : Engine → Engine → Prop) (ok : Action → Prop) : Prop where
  act : ∀ {a e e'}, ok a → rel e e' → rel (e.act a) (e'.act a)
  answers : ∀ {r c e e'}, ok (.perform r c) → rel e e' →
    (e.perform r c).2.map (v.shown c) = (e'.perform r c).2.map (v.shown c)
  ids : ∀ {n e e'}, ok (.look n) → rel e e' → v.named n → n.id? e.ids = n.id? e'.ids

/-- The exchanges came out the same and the engines are related. -/
structure Passage.Related (rel : Engine → Engine → Prop) (p p' : Passage) : Prop where
  engine : rel p.engine p'.engine
  exchange : p.exchange = p'.exchange
  outcome : p.outcome = p'.outcome

section Related

variable {v : View} {rel : Engine → Engine → Prop} {ok : Action → Prop}

theorem Passage.Related.andThen {p p' : Passage} (h : p.Related rel p')
    {next next' : Engine → Exchange → Passage}
    (hnext : ∀ {e e'} x, rel e e' → (next e x).Related rel (next' e' x)) :
    (p.andThen next).Related rel (p'.andThen next') := by
  obtain ⟨e, x, outcome⟩ := p
  obtain ⟨e', x', outcome'⟩ := p'
  obtain ⟨he, rfl, rfl⟩ := h
  cases outcome with
  | ok => exact hnext x he
  | error stop => exact ⟨he, rfl, rfl⟩

theorem Handling.run_related (h : Respects v rel ok) {τ : Type}
    {target target' : τ → Engine → Exchange → Passage}
    (htarget : ∀ t {e e'} x, rel e e' → (target t e x).Related rel (target' t e' x))
    {s : Handling τ} (hs : s.Within ok) (hv : s.GoesBy v) {e e' : Engine} (he : rel e e') :
    (s.run target e).Related rel (s.run target' e') := by
  induction s generalizing e e' with
  | finish x outcome => exact ⟨he, rfl, rfl⟩
  | send t x next ih =>
    have hx := htarget t x he
    rw [run, run, ← hx.exchange, ← hx.outcome]
    exact ih _ _ (hs _ _) (hv _ _) hx.engine
  | ask r c next ih =>
    have hnext : next (e.perform r c).2 = next (e'.perform r c).2 :=
      hv.1 _ _ (h.answers hs.1 he)
    show ((next (e.perform r c).2).run target (e.perform r c).1).Related rel
      ((next (e'.perform r c).2).run target' (e'.perform r c).1)
    rw [← hnext]
    exact ih _ (hs.2 _) (hv.2 _) (h.act hs.1 he)
  | look n next ih =>
    have hnext : next (n.id? e.ids) = next (n.id? e'.ids) := by
      obtain hn | hall := hv.1
      · rw [h.ids hs.1 he hn]
      · exact hall _ _
    rw [run, run, ← hnext]
    exact ih _ (hs.2 _) (hv.2 _) he

theorem Step.runAll_related (h : Respects v rel ok) {steps : List Step}
    (hs : ∀ s ∈ steps, s.Within ok) (hv : ∀ s ∈ steps, s.GoesBy v) {e e' : Engine}
    (he : rel e e') (x : Exchange) : (runAll e x steps).Related rel (runAll e' x steps) := by
  induction steps generalizing e e' x with
  | nil => exact ⟨he, rfl, rfl⟩
  | cons s rest ih =>
    rw [runAll, runAll]
    refine (Handling.run_related h (fun t => t.elim) (hs s List.mem_cons_self x) (hv s List.mem_cons_self x)
      he).andThen fun x he => ?_
    exact ih (fun s hs' => hs s (List.mem_cons_of_mem _ hs'))
      (fun s hs' => hv s (List.mem_cons_of_mem _ hs')) he x

namespace Processor

mutual

/-- Related engines send an exchange through a processor alike, if the relation respects
what can happen in it and the programs in it go by what is seen in both. -/
theorem process_related (h : Respects v rel ok) {e e' : Engine} (he : rel e e') (x : Exchange) :
    ∀ {p : Processor}, p.Within ok → p.GoesBy v → (p.process e x).Related rel (p.process e' x)
  | .leaf name steps, hp, hv => by
    rw [Within] at hp
    rw [GoesBy] at hv
    rw [process, process]
    exact Step.runAll_related h hp.2 hv (h.act hp.1 he) x
  | .pipeline stages, hp, hv => by
    rw [Within] at hp
    rw [GoesBy] at hv
    rw [process, process]
    exact processAll_related h he x hp hv
  | .traced i target, hp, hv => by
    rw [Within] at hp
    rw [GoesBy] at hv
    rw [process, process]
    exact process_related h (h.act (hp.1 x) he) x hp.2 hv
  | .handled handler target, hp, hv => by
    rw [Within] at hp
    rw [GoesBy] at hv
    rw [process, process]
    exact Handling.run_related h (fun _ _ _ x he => process_related h he x hp.2 hv.2) (hp.1 x)
      (hv.1 x) he

theorem processAll_related (h : Respects v rel ok) {e e' : Engine} (he : rel e e')
    (x : Exchange) :
    ∀ {ps : List Processor}, AllWithin ok ps → AllGoBy v ps →
      (processAll e x ps).Related rel (processAll e' x ps)
  | [], _, _ => ⟨he, rfl, rfl⟩
  | p :: rest, hp, hv => by
    rw [AllWithin] at hp
    rw [AllGoBy] at hv
    rw [processAll, processAll]
    exact (process_related h he x hp.1 hv.1).andThen fun x he =>
      processAll_related h he x hp.2 hv.2

end

end Processor

end Related

end TraceBacklog
