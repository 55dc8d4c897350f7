/-
# What enabling a tracer numbers

Enabling a tracer goes through the nodes that it tracks in the order of their keys, and through
what is below each of them, a node before its children. Only the nodes without an id matter on
this walk, and of these only the first visit (`Node.unnamed`): they are the nodes for which the
factory is asked, one after the other (`Node.asking_eq_unnamed`). A factory that counts labels
goes on from its counts, so the ids that it gives can be told from the counts before the walk
(`Node.id?_nameList_of_asking`).

After the walk all its nodes have ids, so another one finds nobody to name
(`Node.nameList_of_hasId`).

Key definition: `Node.unnamed`.
Key theorems: `Node.asking_eq_unnamed`, `Node.id?_nameList_of_asking`,
`Engine.enable_numbers_unnamed`.
-/
import TraceBacklog.Proofs.Engine.Requests

namespace TraceBacklog

/-! ### The nodes without an id -/

namespace Node

/-- The nodes of a list that have no id, each of them where it comes first. -/
def unnamed (t : IdTable) (nodes : List Node) : List Node :=
  (nodes.filter fun n => !n.hasId t).eraseDupsBy (·.key = ·.key)

theorem id?_assign_self {n : Node} {t : IdTable} (h : n.id? t = none) (id : String) :
    n.id? (t.assign n.key id) = some id := by
  have hgiven := givenId_of_id?_eq_none h
  rw [id?_eq_get? hgiven] at h
  rw [id?_eq_get? hgiven, IdTable.get?_assign_self, h]
  rfl

/-- Of the nodes without an id those with this key have one from then on. -/
theorem hasId_assign (t : IdTable) (k : NodeKey) (id : String) (m : Node) :
    (!m.hasId (t.assign k id)) = (decide (decide (m.key = k) = false) && !m.hasId t) := by
  cases hm : m.id? t with
  | some old =>
    have hkept := t.keptBy_assign k id m old hm
    simp [hasId, hm, hkept]
  | none =>
    have hgiven := givenId_of_id?_eq_none hm
    by_cases hkey : m.key = k
    · have hself : m.id? (t.assign k id) = some id := hkey ▸ id?_assign_self hm id
      simp [hasId, hself, hkey]
    · have hsame : m.id? (t.assign k id) = none := by
        rw [id?_eq_get? hgiven, IdTable.get?_assign_of_ne (Ne.symm hkey), ← id?_eq_get? hgiven, hm]
      simp [hasId, hm, hsame, hkey]

/-- **The factory is asked for the nodes without an id**, once for each of them. -/
theorem asking_eq_unnamed (f : IdFactory) (t : IdTable) (nodes : List Node) :
    asking f t nodes = unnamed t nodes := by
  induction nodes generalizing f t with
  | nil => rfl
  | cons n rest ih =>
    cases h : n.id? t with
    | some id =>
      have hskip : unnamed t (n :: rest) = unnamed t rest := by
        rw [unnamed, List.filter_cons_of_neg (by simp [hasId, h]), unnamed]
      rw [asking_of_some h, ih, hskip]
    | none =>
      have hfirst : unnamed t (n :: rest) =
          n :: unnamed (t.assign n.key (f.create n.label).1) rest := by
        rw [unnamed, List.filter_cons_of_pos (by simp [hasId, h]), List.eraseDupsBy_cons,
          List.filter_filter, unnamed]
        congr 2
        exact List.filter_congr fun m _ => (hasId_assign t n.key _ m).symm
      rw [asking_of_none h, ih, hfirst]

/-- A node gets the id that the factory makes up after it served the nodes before. -/
theorem id?_nameList_of_asking {f : IdFactory} {t : IdTable} {nodes before after : List Node}
    {n : Node} (h : asking f t nodes = before ++ n :: after) :
    n.id? (nameList f t nodes).2 =
      some ((f.serve (before.map (·.label))).create n.label).1 := by
  induction nodes generalizing f t before with
  | nil =>
    rw [asking] at h
    exact absurd h.symm (by simp)
  | cons m rest ih =>
    rw [nameList_cons]
    cases hid : m.id? t with
    | some id =>
      rw [asking_of_some hid] at h
      rw [name_of_some hid]
      exact ih h
    | none =>
      rw [asking_of_none hid] at h
      rw [name_of_none hid]
      cases before with
      | nil =>
        -- the node itself is asked for, and what comes after it leaves its id alone
        obtain ⟨rfl, -⟩ := List.cons.inj h
        exact keptBy_nameList _ _ rest _ _ (id?_assign_self hid _)
      | cons first before =>
        obtain ⟨rfl, hrest⟩ := List.cons.inj h
        exact ih hrest

/-- A node for which the factory is not asked is left alone. -/
theorem id?_nameList_of_not_asking {f : IdFactory} {t : IdTable} {nodes : List Node} {m : Node}
    (h : ∀ n ∈ asking f t nodes, n.key ≠ m.key) : m.id? (nameList f t nodes).2 = m.id? t := by
  induction nodes generalizing f t with
  | nil => rfl
  | cons n rest ih =>
    rw [nameList_cons]
    cases hid : n.id? t with
    | some id =>
      rw [asking_of_some hid] at h
      rw [name_of_some hid]
      exact ih h
    | none =>
      rw [asking_of_none hid] at h
      have hassign : m.id? (t.assign n.key (f.create n.label).1) = m.id? t := by
        unfold id?
        cases m.givenId with
        | some given => rfl
        | none => exact IdTable.get?_assign_of_ne (h n List.mem_cons_self) _
      rw [name_of_none hid, ih fun k hk => h k (List.mem_cons_of_mem _ hk), hassign]

/-- Where all nodes have ids nobody is named. -/
theorem nameList_of_hasId {t : IdTable} {nodes : List Node} (h : ∀ n ∈ nodes, n.hasId t = true)
    (f : IdFactory) : nameList f t nodes = (f, t) := by
  induction nodes with
  | nil => rfl
  | cons n rest ih =>
    obtain ⟨id, hid⟩ := Option.isSome_iff_exists.mp (h n List.mem_cons_self)
    rw [nameList_cons, name_of_some hid]
    exact ih fun m hm => h m (List.mem_cons_of_mem _ hm)

end Node

namespace Node

mutual

/-- What is below a node of a walk is on the walk as well. -/
theorem walk_subset {k m : Node} (hk : k ∈ m.walk) : ∀ {n : Node}, m ∈ n.walk → k ∈ n.walk
  | ⟨key, label, givenId, children⟩, hm => by
    rw [walk] at hm ⊢
    rcases List.mem_cons.mp hm with rfl | hm
    · rwa [walk] at hk
    · exact List.mem_cons_of_mem _ (walkEach_subset hk hm)

theorem walkEach_subset {k m : Node} (hk : k ∈ m.walk) :
    ∀ {nodes : List Node}, m ∈ walkEach nodes → k ∈ walkEach nodes
  | [], hm => by
    rw [walkEach] at hm
    cases hm
  | n :: rest, hm => by
    rw [walkEach] at hm ⊢
    rcases List.mem_append.mp hm with hm | hm
    · exact List.mem_append_left _ (walk_subset hk hm)
    · exact List.mem_append_right _ (walkEach_subset hk hm)

end

end Node

/-! ### Enabling -/

namespace Engine

variable {e : Engine} {r : TracerRef}

theorem tracer_enable_keeps {α : Type} (keep : Tracer → α)
    (henabled : ∀ t : Tracer, keep { t with enabled := true } = keep t) (e : Engine)
    (r : TracerRef) : keep ((e.setEnabled r true).1.tracer r) = keep (e.tracer r) := by
  rw [tracer_congr (e.tracers_setEnabled r true)]
  refine tracer_modifyTracer_keeps keep e r r fun t => ?_
  unfold Tracer.ifLive
  split
  · rfl
  · exact henabled t

theorem names_enable (hlive : (e.tracer r).isShutDown = false) :
    (e.setEnabled r true).1.names =
      (Naming.names (e.tracer r).factory (Node.walkEach (e.tracer r).trackedNodes)).after e := by
  rw [names_setEnabled, Action.naming, if_neg (hlive ▸ Bool.false_ne_true)]

/-- Naming nodes that have ids changes neither ids nor factories. -/
theorem names_after_of_hasId {nodes : List Node} (h : ∀ n ∈ nodes, n.hasId e.ids = true)
    (f : FactoryRef) : (Naming.names f nodes).after e = e.names := by
  show ((Node.nameList (e.factory f) e.ids nodes).2, _) = _
  rw [Node.nameList_of_hasId h, set_factory]
  rfl

/-- **Enabling numbers the nodes without an id, in order and once.** Let a tracer that was not
shut down have a factory that counts labels, with any counts. Enabling it goes through the nodes
that it tracks in the order of their keys and through what is below them. Every node that has no
id gets, where it is met first, its label and the next number of this label as its id; all other
nodes keep what they have; and the factory has counted the nodes that it named. After that
nothing is left to be named. -/
theorem enable_numbers_unnamed {counts : KeyMap String UInt64}
    (hlive : (e.tracer r).isShutDown = false)
    (hcounting : e.factories[(e.tracer r).factory.index]? = some (.counting counts)) :
    let f := (e.tracer r).factory
    let tracked := (e.tracer r).trackedNodes
    let met := Node.unnamed e.ids (Node.walkEach tracked)
    let now := (e.setEnabled r true).1
    (e.setEnabled r true).2 = .ok () ∧
    tracked.Pairwise (·.key.index < ·.key.index) ∧
    (∀ before n after, met = before ++ n :: after →
      let number := (IdFactory.countOf counts n.label).toNat +
        (before.map (·.label)).count n.label + 1
      n.id? now.ids = some (n.label ++ toString (number % UInt64.size)) ∧
      (number < UInt64.size → n.id? now.ids = some (n.label ++ toString number))) ∧
    (∀ (n : Node) id, n.id? e.ids = some id → n.id? now.ids = some id) ∧
    (∀ n : Node, (∀ m ∈ met, m.key ≠ n.key) → n.id? now.ids = n.id? e.ids) ∧
    (∃ counts', now.factories = e.factories.set f.index (.counting counts') ∧
      ∀ label, IdFactory.countOf counts' label =
        IdFactory.countOf counts label + UInt64.ofNat ((met.map (·.label)).count label)) ∧
    (now.setEnabled r true).1.names = now.names ∧
    ∀ m ∈ Node.walkEach tracked, ∀ g, (now.nameNode g m).names = now.names := by
  intro f tracked met now
  have hfactory : e.factory f = .counting counts := by
    rw [factory, List.getD_eq_getElem?_getD, hcounting]
    rfl
  have hasking : Node.asking (e.factory f) e.ids (Node.walkEach tracked) = met :=
    Node.asking_eq_unnamed _ _ _
  have hnames : now.names = (Naming.names f (Node.walkEach tracked)).after e := names_enable hlive
  have hids : now.ids = (Node.nameList (e.factory f) e.ids (Node.walkEach tracked)).2 :=
    congrArg Prod.fst hnames
  have hfactories : now.factories = e.factories.set f.index
      (Node.nameList (e.factory f) e.ids (Node.walkEach tracked)).1 := congrArg Prod.snd hnames
  have hnamed : ∀ m ∈ Node.walkEach tracked, m.hasId now.ids = true := fun m hm => by
    rw [hids]
    exact Node.hasId_nameList _ _ hm
  have hlive' : (now.tracer r).isShutDown = false :=
    (tracer_enable_keeps (·.isShutDown) (fun _ => rfl) e r).trans hlive
  have htracked : (now.tracer r).trackedNodes = tracked :=
    tracer_enable_keeps (·.trackedNodes) (fun _ => rfl) e r
  refine ⟨?_, (e.tracer r).tracked.ascending_nodes, fun before n after hmet => ?_,
    fun n id hid => ?_, fun n hn => ?_, ?_, ?_, fun m hm g => ?_⟩
  · rw [setEnabled, useTracer, withUsable_of_isLive hlive]
  · intro number
    rw [← hasking] at hmet
    have hid := Node.id?_nameList_of_asking hmet
    rw [hfactory, IdFactory.create_serve_counting, ← hfactory, ← hids] at hid
    exact ⟨hid, fun hlt => by rwa [Nat.mod_eq_of_lt hlt] at hid⟩
  · exact e.keptBy_enable r n id hid
  · rw [hids]
    exact Node.id?_nameList_of_not_asking (hasking ▸ hn)
  · obtain ⟨counts', hserve, hcounts⟩ :=
      IdFactory.exists_serve_counting counts (met.map (·.label))
    refine ⟨counts', ?_, hcounts⟩
    rw [hfactories, Node.fst_nameList, hasking, hfactory, hserve]
  · rw [names_enable hlive', htracked]
    exact names_after_of_hasId hnamed _
  · rw [names_nameNode]
    exact names_after_of_hasId (fun k hk => hnamed k (Node.walkEach_subset hk hm)) g

namespace Shared

def counts : KeyMap String UInt64 := .ofList [("to", 4)]

def inner : Node := ⟨⟨3⟩, "to", none, []⟩

def audit : Node := ⟨⟨2⟩, "to", some "audit", [inner]⟩

def first : Node := ⟨⟨1⟩, "to", none, []⟩

def filter : Node := ⟨⟨0⟩, "filter", none, [first, audit]⟩

/-- A tracer tracks a filter, and a node below it by itself as well; its factory was asked for
four ids before. -/
def engine : Engine :=
  ((((initial .epoch).newFactory (.counting counts)).1.newTracer .default (some ⟨0⟩)).1.actAll
    [.track ⟨0⟩ first, .track ⟨0⟩ filter])

end Shared

/-- The node that is met twice has the number of its first visit, and the one below a node that
was defined with an id has the next one. -/
theorem enable_numbers_unnamed_shared :
    let now := (Shared.engine.setEnabled ⟨0⟩ true).1
    (Shared.engine.tracer ⟨0⟩).isShutDown = false ∧
    Shared.engine.factories[(Shared.engine.tracer ⟨0⟩).factory.index]? =
      some (.counting Shared.counts) ∧
    Node.walkEach (Shared.engine.tracer ⟨0⟩).trackedNodes =
      [Shared.filter, Shared.first, Shared.audit, Shared.inner, Shared.first] ∧
    Shared.filter.id? now.ids = some "filter1" ∧ Shared.first.id? now.ids = some "to5" ∧
    Shared.inner.id? now.ids = some "to6" := by
  intro now
  have hwalk : Node.walkEach (Shared.engine.tracer ⟨0⟩).trackedNodes =
      [Shared.filter, Shared.first, Shared.audit, Shared.inner, Shared.first] := rfl
  have hmet : Node.unnamed Shared.engine.ids
      (Node.walkEach (Shared.engine.tracer ⟨0⟩).trackedNodes) =
      [Shared.filter, Shared.first, Shared.inner] := rfl
  obtain ⟨-, -, hnumbers, -⟩ := enable_numbers_unnamed (e := Shared.engine) (r := ⟨0⟩) rfl rfl
  exact ⟨rfl, rfl, hwalk, (hnumbers [] _ _ hmet).1, (hnumbers [_] _ _ hmet).1,
    (hnumbers [_, _] _ _ hmet).1⟩

end Engine

end TraceBacklog
