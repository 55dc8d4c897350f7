/-
# Strategies in front of every output

The strategies of a route stand in front of each of its outputs in the order in which they
were registered, although a build goes through them from the last to the first. Here they
are layers (`Layer`), tracers and such as add a tag to a header, the trail. An exchange
that gets to a node has the tags of all layers once for each node before, and a tracer on
the way to the node sees in addition those of the layers before its own.

The induction over layers is about one node (`nestedOne`), the one over outputs puts nodes
one after the other (`Nested.cons`) up to the first that refuses. What a tracer has
captured is told by what it saw, in the same order (`Capture.Shows`); the trail of its
events is read off at the end.

Key definitions: `Layer`, `Layer.tags`, `Layer.places`, `Layer.seen`, `trailAfter`,
`Processor.KeepsTrail`, `Nested`, `Event.nodeAndTrail`.
Key theorems: `Layer.process_inFront`, `Layer.exists_captures_arrive`, `exists_nested`,
`Engine.strategies_nest_in_order`.
-/
import Mathlib.Data.List.Forall2
import TraceBacklog.Proofs.KeyMap
import TraceBacklog.Proofs.Route.Captures

namespace TraceBacklog

/-! ### Trails -/

/-- The tags that a header holds; one that is no text holds none. -/
def trailText : Option Json → String
  | some (.string s) => s
  | _ => ""

/-- The header after tags were added to it, one after the other. -/
def trailAfter (header : Option Json) (tags : List String) : Option Json :=
  tags.foldl (fun header tag => some (.string (trailText header ++ tag))) header

theorem trailAfter_append (header : Option Json) (first rest : List String) :
    trailAfter header (first ++ rest) = trailAfter (trailAfter header first) rest :=
  List.foldl_append

/-- Without tags the header stays, whatever it is; with tags it is a text. -/
theorem trailAfter_eq (header : Option Json) (tags : List String) :
    trailAfter header tags =
      if tags = [] then header else some (.string (trailText header ++ String.join tags)) := by
  induction tags generalizing header with
  | nil => rfl
  | cons tag rest ih =>
    have hrest : trailAfter header (tag :: rest) =
        trailAfter (some (.string (trailText header ++ tag))) rest := rfl
    rw [hrest, ih, if_neg (List.cons_ne_nil _ _), String.join_cons]
    split
    · next hnil => rw [hnil, String.join_nil, String.append_empty]
    · rw [trailText, String.append_assoc]

namespace Exchange

theorem trail_eq (x : Exchange) : x.trail = trailText (x.header? trailKey) := rfl

/-- Adds tags to the trail, one after the other. -/
def addTags (x : Exchange) (tags : List String) : Exchange := tags.foldl addTag x

theorem addTags_cons (x : Exchange) (tag : String) (rest : List String) :
    x.addTags (tag :: rest) = (x.addTag tag).addTags rest := rfl

theorem header?_addTags (x : Exchange) (tags : List String) :
    (x.addTags tags).header? trailKey = trailAfter (x.header? trailKey) tags := by
  induction tags generalizing x with
  | nil => rfl
  | cons tag rest ih =>
    have htag : (x.addTag tag).header? trailKey =
        some (.string (trailText (x.header? trailKey) ++ tag)) :=
      (KeyMap.get?_insert ..).trans (if_pos rfl)
    rw [addTags_cons, ih, htag]
    rfl

theorem body_addTags (x : Exchange) (tags : List String) : (x.addTags tags).body = x.body := by
  induction tags generalizing x with
  | nil => rfl
  | cons tag rest ih => exact ih (x.addTag tag)

end Exchange

/-! ### Layers -/

/-- What is put in front of the outputs of a route: something that adds a tag to the trail, or
a tracer. -/
inductive Layer where
  | tag (t : String)
  | trace (r : TracerRef)
deriving DecidableEq

namespace Layer

def strategy : Layer → Strategy
  | .tag t => .tag t
  | .trace r => .trace r

/-- Layers look at no ids. -/
theorem looksAt_strategy (named : Node → Prop) (route : Outline) (layers : List Layer) :
    ∀ s ∈ layers.map strategy, s.LooksAt named route := by
  refine List.forall_mem_map.mpr fun layer _ => ?_
  cases layer with
  | tag t => exact Strategy.looksAt_tag named route t
  | trace r => exact Strategy.looksAt_trace named route r

def tag? : Layer → Option String
  | .tag t => some t
  | .trace _ => none

/-- The tags that layers add, in their order. -/
def tags (layers : List Layer) : List String := layers.filterMap tag?

@[simp]
theorem tags_nil : tags [] = [] := rfl

@[simp]
theorem tags_tag (t : String) (rest : List Layer) : tags (.tag t :: rest) = t :: tags rest := rfl

@[simp]
theorem tags_trace (r : TracerRef) (rest : List Layer) : tags (.trace r :: rest) = tags rest := rfl

/-- The positions of a tracer. -/
def places (r : TracerRef) (layers : List Layer) : List ℕ :=
  (List.range layers.length).filter fun p => layers[p]? = some (.trace r)

/-- The states in which an exchange gets to a tracer on its way through layers. -/
def seen (r : TracerRef) : List Layer → Exchange → List Exchange
  | [], _ => []
  | .tag t :: rest, x => seen r rest (x.addTag t)
  | .trace s :: rest, x => (if s = r then [x] else []) ++ seen r rest x

theorem places_cons (r : TracerRef) (layer : Layer) (rest : List Layer) :
    places r (layer :: rest) =
      (if layer = .trace r then [0] else []) ++ (places r rest).map (· + 1) := by
  rw [places, List.length_cons, List.range_succ_eq_map, List.filter_cons, List.filter_map]
  have hrest : (List.range rest.length).filter
      ((fun p => decide ((layer :: rest)[p]? = some (.trace r))) ∘ Nat.succ) = places r rest := rfl
  rw [hrest]
  by_cases h : layer = .trace r
  · simp [h]
  · simp [h]

/-- At its position a tracer sees the exchange with the tags of the layers before it. -/
theorem seen_eq (r : TracerRef) (layers : List Layer) (x : Exchange) :
    seen r layers x = (places r layers).map fun p => x.addTags (tags (layers.take p)) := by
  induction layers generalizing x with
  | nil => rfl
  | cons layer rest ih =>
    rw [places_cons, List.map_append, List.map_map]
    cases layer with
    | tag t =>
      rw [seen, ih]
      rfl
    | trace s =>
      rw [seen, ih]
      by_cases hs : s = r
      · subst hs
        rw [if_pos rfl, if_pos rfl]
        rfl
      · rw [if_neg hs, if_neg fun h => hs (Layer.trace.inj h)]
        rfl

end Layer

/-! ### One output -/

/-- The processor leaves the trail as it is. -/
def Processor.KeepsTrail (p : Processor) : Prop :=
  ∀ e x, (p.process e x).exchange.header? trailKey = x.header? trailKey

/-- A capture is one of an exchange that entered a node; the node is known by its id. -/
structure Capture.Shows (ids : IdTable) (limit : ℕ) (capture : Capture)
    (entry : Option Node × Exchange) : Prop where
  named : entry.1.bind (·.id? ids) = some capture.toNode
  message : capture.message = Snapshot.capture entry.2 capture.toNode limit

/-- What a capture shows it shows as long as ids are kept. -/
theorem Capture.Shows.keptBy {ids ids' : IdTable} {limit : ℕ} {capture : Capture}
    {entry : Option Node × Exchange} (h : capture.Shows ids limit entry)
    (hids : ∀ (n : Node) id, n.id? ids = some id → n.id? ids' = some id) :
    capture.Shows ids' limit entry := by
  obtain ⟨n?, x⟩ := entry
  refine ⟨?_, h.message⟩
  obtain ⟨n, hn, hid⟩ := Option.bind_eq_some_iff.mp h.named
  exact Option.bind_eq_some_iff.mpr ⟨n, hn, hids n _ hid⟩

namespace Layer

/-- The engine when an exchange has got through the layers in front of a node. -/
def arrive (route : Option Route) (n : Node) : List Layer → Engine → Exchange → Engine
  | [], c, _ => c
  | .tag t :: rest, c, x => arrive route n rest c (x.addTag t)
  | .trace r :: rest, c, x => arrive route n rest (c.enter (Engine.interceptor r route n) x) x

section Arrive

variable (route : Option Route) (n : Node)

/-- Layers are passed in their order, the target comes last. -/
theorem process_inFront (target : Processor) (layers : List Layer) (c : Engine) (x : Exchange) :
    (Strategy.inFront Node.givenId route n target (layers.map strategy)).process c x =
      target.process (arrive route n layers c x) (x.addTags (tags layers)) := by
  induction layers generalizing c x with
  | nil => rfl
  | cons layer rest ih =>
    cases layer with
    | tag t =>
      rw [arrive, tags_tag, Exchange.addTags_cons, ← ih]
      exact Processor.process_tagged c x t _
    | trace r =>
      rw [arrive, tags_trace, ← ih, List.map_cons, strategy, Strategy.inFront, Strategy.put,
        Processor.process]

theorem id?_arrive_of_some {m : Node} {id : String} (layers : List Layer) {c : Engine}
    (x : Exchange) (h : m.id? c.ids = some id) :
    m.id? (arrive route n layers c x).ids = some id := by
  induction layers generalizing c x with
  | nil => exact h
  | cons layer rest ih =>
    cases layer with
    | tag t => exact ih _ h
    | trace r =>
      refine ih _ ?_
      unfold Engine.enter
      split
      · exact Engine.id?_capture_of_some h _ x
      · exact h

theorem tracer_arrive_keeps {α : Type} (keep : Tracer → α)
    (hcounter : ∀ (t : Tracer) (n : UInt64), keep { t with traceCounter := n } = keep t)
    (hbacklog : ∀ (t : Tracer) (b : Backlog), keep { t with backlog := b } = keep t)
    (hfailures : ∀ (t : Tracer) (n : UInt64), keep { t with captureFailures := n } = keep t)
    (layers : List Layer) (c : Engine) (x : Exchange) (r : TracerRef) :
    keep ((arrive route n layers c x).tracer r) = keep (c.tracer r) := by
  induction layers generalizing c x with
  | nil => rfl
  | cons layer rest ih =>
    cases layer with
    | tag t => exact ih c _
    | trace s =>
      exact (ih _ x).trans (Engine.tracer_enter_keeps keep hcounter hbacklog hfailures c _ x r)

/-- A tracer captures what it sees on the way, in order. -/
theorem exists_captures_arrive (r : TracerRef) {layers : List Layer} {c : Engine}
    (henabled : ∀ s, .trace s ∈ layers → (c.tracer s).enabled = true) (x : Exchange) :
    ∃ captures : List Capture,
      (arrive route n layers c x).tracer r = captures.foldl Tracer.absorb (c.tracer r) ∧
      List.Forall₂ (Capture.Shows (arrive route n layers c x).ids (c.tracer r).bodyMaxChars.toNat)
        captures ((seen r layers x).map fun y => (some n, y)) := by
  induction layers generalizing c x with
  | nil => exact ⟨[], rfl, .nil⟩
  | cons layer rest ih =>
    cases layer with
    | tag t =>
      exact ih (fun s hs => henabled s (List.mem_cons_of_mem _ hs)) (x.addTag t)
    | trace s =>
      let i := Engine.interceptor s route n
      have hs : (c.tracer s).enabled = true := henabled s List.mem_cons_self
      have henter : c.enter i x = c.capture i x := Engine.enter_of_enabled hs x
      have hlimit : ((c.capture i x).tracer r).bodyMaxChars = (c.tracer r).bodyMaxChars :=
        Engine.tracer_capture_keeps (·.bodyMaxChars) (fun _ _ => rfl) (fun _ _ => rfl)
          (fun _ _ => rfl) c i x r
      obtain ⟨captures, htracer, hshows⟩ := ih (c := c.capture i x) (fun s' hs' =>
        (Engine.tracer_capture_keeps (·.enabled) (fun _ _ => rfl) (fun _ _ => rfl)
          (fun _ _ => rfl) c i x s').trans (henabled s' (List.mem_cons_of_mem _ hs'))) x
      rw [hlimit] at hshows
      rw [arrive, seen]
      show ∃ captures : List Capture,
        (arrive route n rest (c.enter i x) x).tracer r = _ ∧
        List.Forall₂ (Capture.Shows (arrive route n rest (c.enter i x) x).ids _) _ _
      rw [henter]
      by_cases hsr : s = r
      · subst hsr
        refine ⟨c.captureOf i x :: captures, ?_, ?_⟩
        · rw [htracer, List.foldl_cons]
          congr 1
          exact Engine.tracer_capture_self rfl (Engine.lt_length_of_enabled hs) x
        · rw [if_pos rfl]
          refine .cons ⟨?_, rfl⟩ hshows
          exact id?_arrive_of_some route n rest x (c.id?_capture_self i x)
      · refine ⟨captures, ?_, ?_⟩
        · rw [htracer, Engine.tracer_capture_of_ne c hsr hsr]
        · rw [if_neg hsr]
          exact hshows

end Arrive

/-- The stages for outputs of a route. -/
def stages (route : Option Route) (layers : List Layer) (outputs : List Output) :
    List Processor :=
  outputs.map fun o => Strategy.inFront Node.givenId route o.node o.processor (layers.map strategy)

end Layer

/-- What one stage does: the exchange gets the tags of all layers, and each tracer captures what
it sees. -/
structure NestedOne (layers : List Layer) (c : Engine) (x : Exchange) (n : Node)
    (traced : Passage) : Prop where
  trail : traced.exchange.header? trailKey = trailAfter (x.header? trailKey) (Layer.tags layers)
  keepsIds : ∀ (m : Node) id, m.id? c.ids = some id → m.id? traced.engine.ids = some id
  enabled : ∀ r, (traced.engine.tracer r).enabled = (c.tracer r).enabled
  limit : ∀ r, (traced.engine.tracer r).bodyMaxChars = (c.tracer r).bodyMaxChars
  captured : ∀ r, ∃ captures : List Capture,
    traced.engine.tracer r = captures.foldl Tracer.absorb (c.tracer r) ∧
    List.Forall₂ (Capture.Shows traced.engine.ids (c.tracer r).bodyMaxChars.toNat) captures
      ((Layer.seen r layers x).map fun y => (some n, y))

theorem nestedOne (route : Option Route) {layers : List Layer} {o : Output}
    (ho : o.processor.ActsOnExchange) (htrail : o.processor.KeepsTrail) {c : Engine}
    (henabled : ∀ r, .trace r ∈ layers → (c.tracer r).enabled = true) (x : Exchange) :
    NestedOne layers c x o.node
      ((Strategy.inFront Node.givenId route o.node o.processor
        (layers.map Layer.strategy)).process c x) := by
  let arrived := Layer.arrive route o.node layers c x
  have hsame := ho.sameTracing arrived (x.addTags (Layer.tags layers))
  have htracer (r : TracerRef) := Engine.tracer_congr hsame.tracers.symm r
  rw [Layer.process_inFront]
  refine ⟨?_, fun m id h => ?_, fun r => ?_, fun r => ?_, fun r => ?_⟩
  · rw [htrail, Exchange.header?_addTags]
  · rw [← hsame.ids]
    exact Layer.id?_arrive_of_some route o.node layers x h
  · rw [htracer]
    exact Layer.tracer_arrive_keeps route o.node (·.enabled) (fun _ _ => rfl) (fun _ _ => rfl)
      (fun _ _ => rfl) layers c x r
  · rw [htracer]
    exact Layer.tracer_arrive_keeps route o.node (·.bodyMaxChars) (fun _ _ => rfl)
      (fun _ _ => rfl) (fun _ _ => rfl) layers c x r
  · rw [htracer, ← hsame.ids]
    exact Layer.exists_captures_arrive route o.node r henabled x

/-! ### All outputs -/

/-- What is known of a run through stages that enters `m` nodes: before each of them the exchange
has the tags of all layers once for each node before, and each tracer captures what it sees, node
by node. -/
structure Nested (layers : List Layer) (c : Engine) (x : Exchange) (outputs : List Output)
    (m : ℕ) (run : Passage) (entering : ℕ → Passage) : Prop where
  length_le : m ≤ outputs.length
  reached : ∀ i < m, (entering i).outcome = .ok ()
  stopped : m < outputs.length → (entering m).outcome ≠ .ok ()
  trail : run.exchange.header? trailKey =
    trailAfter (x.header? trailKey) (List.replicate m (Layer.tags layers)).flatten
  trails : ∀ i < m, (entering i).exchange.header? trailKey =
    trailAfter (x.header? trailKey) (List.replicate i (Layer.tags layers)).flatten
  keepsIds : ∀ (n : Node) id, n.id? c.ids = some id → n.id? run.engine.ids = some id
  captured : ∀ r, ∃ captures : List Capture,
    run.engine.tracer r = captures.foldl Tracer.absorb (c.tracer r) ∧
    List.Forall₂ (Capture.Shows run.engine.ids (c.tracer r).bodyMaxChars.toNat) captures
      ((List.range m).flatMap fun i => (Layer.seen r layers (entering i).exchange).map
        fun y => (outputs[i]?.map (·.node), y))

/-- The first of some stages lets the exchange through: what is known of the others is known of
all. -/
theorem Nested.cons {layers : List Layer} {c : Engine} {x : Exchange} {o : Output}
    {rest : List Output} {m : ℕ} {stage : Processor} {stages : List Processor}
    (hone : NestedOne layers c x o.node (stage.process c x))
    (hok : (stage.process c x).outcome = .ok ())
    (hrest : Nested layers (stage.process c x).engine (stage.process c x).exchange rest m
      (Processor.processAll (stage.process c x).engine (stage.process c x).exchange stages)
      fun i => Processor.processAll (stage.process c x).engine (stage.process c x).exchange
        (stages.take i)) :
    Nested layers c x (o :: rest) (m + 1) (Processor.processAll c x (stage :: stages))
      fun i => Processor.processAll c x ((stage :: stages).take i) := by
  have hrun (ps : List Processor) : Processor.processAll c x (stage :: ps) =
      Processor.processAll (stage.process c x).engine (stage.process c x).exchange ps := by
    rw [Processor.processAll, Passage.andThen_of_ok hok]
  have hentering (i : ℕ) : Processor.processAll c x ((stage :: stages).take (i + 1)) =
      Processor.processAll (stage.process c x).engine (stage.process c x).exchange
        (stages.take i) := by
    rw [List.take_succ_cons, hrun]
  have htrail (i : ℕ) : trailAfter ((stage.process c x).exchange.header? trailKey)
      (List.replicate i (Layer.tags layers)).flatten =
      trailAfter (x.header? trailKey) (List.replicate (i + 1) (Layer.tags layers)).flatten := by
    rw [hone.trail, ← trailAfter_append, List.replicate_succ, List.flatten_cons]
  refine ⟨Nat.succ_le_succ hrest.length_le, fun i hi => ?_, fun hlt => ?_, ?_, fun i hi => ?_,
    fun n id h => ?_, fun r => ?_⟩
  · cases i with
    | zero => rfl
    | succ i =>
      rw [hentering]
      exact hrest.reached i (Nat.lt_of_succ_lt_succ hi)
  · rw [hentering]
    exact hrest.stopped (Nat.lt_of_succ_lt_succ hlt)
  · rw [hrun, hrest.trail, htrail]
  · cases i with
    | zero => rfl
    | succ i => rw [hentering, hrest.trails i (Nat.lt_of_succ_lt_succ hi), htrail]
  · rw [hrun]
    exact hrest.keepsIds n id (hone.keepsIds n id h)
  · obtain ⟨first, hfirst, hshows⟩ := hone.captured r
    obtain ⟨others, hothers, hshowsOthers⟩ := hrest.captured r
    rw [hone.limit] at hshowsOthers
    rw [hrun, List.range_succ_eq_map, List.flatMap_cons, List.flatMap_map]
    refine ⟨first ++ others, ?_, List.rel_append ?_ ?_⟩
    · rw [hothers, hfirst, List.foldl_append]
    · exact hshows.imp fun capture entry h => h.keptBy hrest.keepsIds
    · simpa only [Nat.succ_eq_add_one, hentering, List.getElem?_cons_succ] using hshowsOthers

theorem exists_nested (route : Option Route) {layers : List Layer} {outputs : List Output}
    (hout : ∀ o ∈ outputs, o.processor.ActsOnExchange ∧ o.processor.KeepsTrail) {c : Engine}
    (henabled : ∀ r, .trace r ∈ layers → (c.tracer r).enabled = true) (x : Exchange) :
    ∃ m, Nested layers c x outputs m
      (Processor.processAll c x (Layer.stages route layers outputs))
      fun i => Processor.processAll c x ((Layer.stages route layers outputs).take i) := by
  induction outputs generalizing c x with
  | nil =>
    refine ⟨0, le_rfl, fun i hi => absurd hi (Nat.not_lt_zero i),
      fun h => absurd h (Nat.lt_irrefl 0), rfl, fun i hi => absurd hi (Nat.not_lt_zero i),
      fun _ _ h => h, fun r => ⟨[], rfl, .nil⟩⟩
  | cons o rest ih =>
    obtain ⟨ho, htrail⟩ := hout o List.mem_cons_self
    have hone := nestedOne route ho htrail henabled x
    have hstages : Layer.stages route layers (o :: rest) =
        Strategy.inFront Node.givenId route o.node o.processor (layers.map Layer.strategy) ::
          Layer.stages route layers rest := rfl
    rw [hstages]
    generalize Strategy.inFront Node.givenId route o.node o.processor
      (layers.map Layer.strategy) = stage at hone
    cases hresult : (stage.process c x).outcome with
    | ok =>
      obtain ⟨m, hrest⟩ := ih (fun o' ho' => hout o' (List.mem_cons_of_mem _ ho'))
        (fun r hr => (hone.enabled r).trans (henabled r hr)) (stage.process c x).exchange
      exact ⟨m + 1, hrest.cons hone hresult⟩
    | error stop =>
      -- the exchange ends in the first stage
      have hrun (ps : List Processor) : Processor.processAll c x (stage :: ps) =
          stage.process c x := by
        rw [Processor.processAll, Passage.andThen_of_error hresult]
      refine ⟨1, Nat.succ_le_succ (Nat.zero_le _), fun i hi => ?_, fun _ => ?_, ?_,
        fun i hi => ?_, fun n id h => ?_, fun r => ?_⟩
      · obtain rfl : i = 0 := Nat.lt_one_iff.mp hi
        rfl
      · rw [List.take_succ_cons, hrun, hresult]
        exact fun h => by cases h
      · rw [hrun, hone.trail, List.replicate_one, List.flatten_singleton]
      · obtain rfl : i = 0 := Nat.lt_one_iff.mp hi
        rfl
      · rw [hrun]
        exact hone.keepsIds n id h
      · rw [hrun]
        obtain ⟨captures, htracer, hshows⟩ := hone.captured r
        refine ⟨captures, htracer, ?_⟩
        rw [List.range_one, List.flatMap_singleton]
        exact hshows

/-! ### What the events show -/

/-- Has the body no text? -/
def Body.isOpaque : Body → Bool
  | .opaqueValue => true
  | _ => false

/-- The node and the trail that an event shows. -/
def Event.nodeAndTrail (event : Event) : Option String × Option HeaderSnapshot :=
  (some event.toNode, event.message.headers.get? trailKey)

/-- The event of a capture shows the id of the node and the trail that the exchange had. -/
theorem Capture.Shows.map_event? {ids : IdTable} {limit : ℕ} {capture : Capture} {n? : Option Node}
    {x : Exchange} (h : capture.Shows ids limit (n?, x)) :
    capture.event?.map Event.nodeAndTrail = if x.body.isOpaque then none
      else some (n?.bind (·.id? ids), (x.header? trailKey).map HeaderSnapshot.ofJson) := by
  have hmessage := h.message
  have hheader : (x.headers.map HeaderSnapshot.ofJson).get? trailKey =
      (x.header? trailKey).map HeaderSnapshot.ofJson := KeyMap.get?_map _ x.headers trailKey
  rw [h.named, event?, hmessage, ← hheader, Snapshot.capture]
  cases x.body <;> rfl

theorem filterMap_eq_of_forall₂ {α β γ : Type} {rel : α → β → Prop} {f : α → Option γ}
    {g : β → Option γ} (hrel : ∀ a b, rel a b → f a = g b) {as : List α} {bs : List β}
    (h : List.Forall₂ rel as bs) : as.filterMap f = bs.filterMap g := by
  induction h with
  | nil => rfl
  | cons hab _ ih => rw [List.filterMap_cons, List.filterMap_cons, hrel _ _ hab, ih]

/-- Tags that are added again and again are one text that is added again and again. -/
theorem join_flatten_replicate (n : ℕ) (tags : List String) :
    String.join (List.replicate n tags).flatten =
      String.join (List.replicate n (String.join tags)) := by
  induction n with
  | zero => rfl
  | succ n ih =>
    rw [List.replicate_succ, List.replicate_succ, List.flatten_cons, String.join_append,
      String.join_cons, ih]

/-- The tags of all layers `i` times and then some others, as a trail. -/
theorem trailAfter_replicate (header : Option Json) (tags others : List String) (i : ℕ) :
    trailAfter header ((List.replicate i tags).flatten ++ others) =
      if (i = 0 ∨ tags = []) ∧ others = [] then header
      else some (.string (trailText header ++ String.join (List.replicate i (String.join tags)) ++
        String.join others)) := by
  have hnil : (List.replicate i tags).flatten ++ others = [] ↔
      (i = 0 ∨ tags = []) ∧ others = [] := by
    rw [List.append_eq_nil_iff, List.flatten_eq_nil_iff]
    simp [List.mem_replicate, or_iff_not_imp_left]
  rw [trailAfter_eq, if_congr hnil rfl rfl, String.join_append, join_flatten_replicate,
    String.append_assoc]

/-- At a node that is entered after `i` others the events of a tracer show `i` times all tags and
then those of the layers before it. -/
theorem Layer.filterMap_seen (ids : IdTable) (n? : Option Node) (r : TracerRef)
    (layers : List Layer) {header : Option Json} {i : ℕ} {x : Exchange}
    (htrail : x.header? trailKey = trailAfter header (List.replicate i (tags layers)).flatten) :
    ((seen r layers x).map fun y => (n?, y)).filterMap (fun entry : Option Node × Exchange =>
      if entry.2.body.isOpaque then none
      else some (entry.1.bind (·.id? ids),
        (entry.2.header? trailKey).map HeaderSnapshot.ofJson)) =
      if x.body.isOpaque then []
      else (places r layers).map fun p =>
        (n?.bind (·.id? ids),
          if (i = 0 ∨ tags layers = []) ∧ tags (layers.take p) = [] then
            header.map HeaderSnapshot.ofJson
          else some ⟨"string", trailText header ++
            String.join (List.replicate i (String.join (tags layers))) ++
              String.join (tags (layers.take p))⟩) := by
  have hbody (p : ℕ) : (x.addTags (tags (layers.take p))).body.isOpaque = x.body.isOpaque := by
    rw [Exchange.body_addTags]
  have hshown (p : ℕ) : ((x.addTags (tags (layers.take p))).header? trailKey).map
      HeaderSnapshot.ofJson =
      if (i = 0 ∨ tags layers = []) ∧ tags (layers.take p) = [] then
        header.map HeaderSnapshot.ofJson
      else some ⟨"string", trailText header ++
        String.join (List.replicate i (String.join (tags layers))) ++
          String.join (tags (layers.take p))⟩ := by
    rw [Exchange.header?_addTags, htrail, ← trailAfter_append, trailAfter_replicate]
    split <;> rfl
  rw [seen_eq, List.map_map, List.filterMap_map]
  split
  · next hopaque =>
    exact List.filterMap_eq_nil_iff.mpr fun p _ => if_pos ((hbody p).trans hopaque)
  · next hclear =>
    rw [← List.filterMap_eq_map]
    refine List.filterMap_congr fun p _ => (if_neg ?_).trans ?_
    · exact fun hopaque => hclear ((hbody p).symm.trans hopaque)
    · exact congrArg some (Prod.ext rfl (hshown p))

namespace Engine

/-- **Strategies nest in the order of their registration.** A route is built with layers, each of
which adds a tag to the trail or is a tracer, and the tracers are enabled when an exchange is
sent; the processors act on the exchange alone and leave the trail as it is. Let `m` be the
number of nodes that the exchange enters: those before each of them let it through, and if there
are more the last one did not. Let `w` be the tags of all layers in their order. Then the
exchange comes out with `m` times `w` after its trail, and the events of a tracer are these, node
by node and at each node by its positions: the event of the `i`-th node, counted from 0, at
position `p` shows `i` times `w` and then the tags of the layers before `p` after the trail. As
long as no tag was added the trail is the header that the exchange came with. An exchange whose
body has no text leaves no events at its node. -/
theorem strategies_nest_in_order {layers : List Layer} {route : Route} {e : Engine}
    {stages : List Processor}
    (hbuild : (e.build (layers.map Layer.strategy) route).2 = .ok stages)
    (hroute : ∀ o ∈ route.outputs, o.processor.ActsOnExchange ∧ o.processor.KeepsTrail)
    {c : Engine} (henabled : ∀ r, .trace r ∈ layers → (c.tracer r).enabled = true)
    (x : Exchange) :
    let run := (Processor.pipeline stages).process c x
    let entering := fun i => Processor.processAll c x (stages.take i)
    let w := String.join (Layer.tags layers)
    let before := fun p => Layer.tags (layers.take p)
    ∃ m,
      (m ≤ route.outputs.length ∧ (∀ i < m, (entering i).outcome = .ok ()) ∧
        (m < route.outputs.length → (entering m).outcome ≠ .ok ())) ∧
      run.exchange.header? trailKey =
        (if m = 0 ∨ Layer.tags layers = [] then x.header? trailKey
        else some (.string (x.trail ++ String.join (List.replicate m w)))) ∧
      ∀ r, ∃ events : List Event,
        (run.engine.tracer r).backlog = ((c.tracer r).backlog.pushAll events).1 ∧
        events.map Event.nodeAndTrail = (List.range m).flatMap fun i =>
          if (entering i).exchange.body.isOpaque then []
          else (Layer.places r layers).map fun p =>
            ((route.nodes[i]?).bind (·.id? run.engine.ids),
              if (i = 0 ∨ Layer.tags layers = []) ∧ before p = [] then
                (x.header? trailKey).map HeaderSnapshot.ofJson
              else some ⟨"string",
                x.trail ++ String.join (List.replicate i w) ++ String.join (before p)⟩) := by
  intro run entering w before
  have hstages : stages = Layer.stages (some route) layers route.outputs :=
    eq_stages_of_build (Layer.looksAt_strategy _ _ layers) hbuild
  obtain ⟨m, h⟩ := exists_nested (some route) hroute henabled x
  rw [← hstages] at h
  have hrun : run = Processor.processAll c x stages := by
    show (Processor.pipeline stages).process c x = _
    rw [Processor.process]
  rw [← hrun] at h
  refine ⟨m, ⟨h.length_le, h.reached, h.stopped⟩, ?_, fun r => ?_⟩
  · have htrail := trailAfter_replicate (x.header? trailKey) (Layer.tags layers) [] m
    rw [List.append_nil] at htrail
    rw [h.trail, htrail, ← Exchange.trail_eq, String.join_nil, String.append_empty,
      if_congr (and_iff_left rfl) rfl rfl]
  · obtain ⟨captures, htracer, hshows⟩ := h.captured r
    refine ⟨captures.filterMap Capture.event?, ?_, ?_⟩
    · rw [htracer, Tracer.backlog_foldl_absorb]
    · rw [List.map_filterMap,
        filterMap_eq_of_forall₂ (fun capture entry hshow => hshow.map_event?) hshows,
        List.filterMap_flatMap]
      refine List.flatMap_congr fun i hi => ?_
      have hnode : route.outputs[i]?.map (·.node) = route.nodes[i]? := by
        rw [Route.nodes, List.getElem?_map]
      rw [hnode]
      exact Layer.filterMap_seen run.engine.ids route.nodes[i]? r layers
        (h.trails i (List.mem_range.mp hi))

/-- A tracer behind each of two tags, in front of three nodes of which the second refuses: no tag
is added for the third. -/
theorem strategies_nest_in_order_refused :
    let e := (((initial .epoch).newFactory .fresh).1.newTracer
      { Config.default with enabled := true } (some ⟨0⟩)).1
    let layers : List Layer := [.tag "a", .trace ⟨0⟩, .tag "b", .trace ⟨0⟩]
    let specs : List NodeSpec := [⟨"to", none, []⟩, ⟨"to", none, []⟩, ⟨"log", none, []⟩]
    let steps : List Step := [.setBody .empty, .fail (.processingFailed "to2" "refused"),
      .setBody .opaqueValue]
    let route : Route := ⟨some "orders", ((NodeSpec.defineAll 0 specs).1.zip steps).map
      fun (n, step) => ⟨n, .leaf none [step]⟩⟩
    let stages := route.stages (layers.map Layer.strategy)
    (e.build (layers.map Layer.strategy) route).2 = .ok stages ∧
    (∀ o ∈ route.outputs, o.processor.ActsOnExchange ∧ o.processor.KeepsTrail) ∧
    (∀ r, .trace r ∈ layers → (e.tracer r).enabled = true) ∧
    ∀ x : Exchange, x.body.isOpaque = false →
      ((Processor.pipeline stages).process e x).exchange.header? trailKey =
        some (.string (x.trail ++ "abab")) ∧
      ∃ events : List Event,
        (((Processor.pipeline stages).process e x).engine.tracer ⟨0⟩).backlog =
          ((e.tracer ⟨0⟩).backlog.pushAll events).1 ∧
        events.map (·.nodeAndTrail.2) = ["a", "ab", "aba", "abab"].map
          fun tags => some ⟨"string", x.trail ++ tags⟩ := by
  intro e layers specs steps route stages
  have hbuild : (e.build (layers.map Layer.strategy) route).2 = .ok stages :=
    snd_build_eq_stages (Layer.looksAt_strategy _ _ layers) rfl
  have hacts : ∀ o ∈ route.outputs, o.processor.ActsOnExchange := by
    simp [route, specs, steps, NodeSpec.defineAll, NodeSpec.define, Processor.ActsOnExchange,
      Processor.Within, Step.setBody, Step.fail, Action.IsVisit]
  have hkeeps : ∀ o ∈ route.outputs, o.processor.KeepsTrail := by
    intro o ho
    simp only [route, specs, steps, NodeSpec.defineAll, NodeSpec.define, List.zip_cons_cons,
      List.zip_nil_right, List.map_cons, List.map_nil, List.mem_cons, List.not_mem_nil,
      or_false] at ho
    rcases ho with rfl | rfl | rfl <;> exact fun e x => rfl
  have henabled : ∀ r, .trace r ∈ layers → (e.tracer r).enabled = true := by
    intro r hr
    obtain rfl : r = ⟨0⟩ := by simpa [layers] using hr
    rfl
  refine ⟨hbuild, fun o ho => ⟨hacts o ho, hkeeps o ho⟩, henabled, fun x hx => ?_⟩
  obtain ⟨m, ⟨hle, hreached, hstopped⟩, htrail, hevents⟩ :=
    strategies_nest_in_order hbuild (fun o ho => ⟨hacts o ho, hkeeps o ho⟩) henabled x
  have hsecond : (Processor.processAll e x (stages.take 2)).outcome ≠ .ok () :=
    fun h => by cases h
  have hm : m = 2 := by
    rcases Nat.lt_trichotomy m 2 with hlt | rfl | hlt
    · refine absurd ?_ (hstopped (hlt.trans (Nat.lt_add_one 2)))
      rcases Nat.lt_succ_iff_lt_or_eq.mp hlt with hlt | rfl
      · rw [Nat.lt_one_iff.mp hlt]
        rfl
      · rfl
    · rfl
    · exact absurd (hreached 2 hlt) hsecond
  subst hm
  obtain ⟨events, hbacklog, hshown⟩ := hevents ⟨0⟩
  refine ⟨htrail, events, hbacklog, ?_⟩
  have htrails : events.map (·.nodeAndTrail.2) = (events.map Event.nodeAndTrail).map Prod.snd :=
    (List.map_map ..).symm
  have hnext : (Processor.processAll e x (stages.take 1)).exchange.body.isOpaque = false := rfl
  have hplaces : Layer.places ⟨0⟩ layers = [1, 3] := rfl
  rw [htrails, hshown, List.range_succ_eq_map, List.range_one]
  simp [Processor.processAll, hx, hnext, hplaces, layers, String.append_assoc]

end Engine

end TraceBacklog
