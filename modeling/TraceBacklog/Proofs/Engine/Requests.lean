/-
# What factories are asked for

Ids come into being in few ways: an action names some nodes with a factory, asks a factory
for an id of its own, or gives a node an id that somebody thought of (`Naming`). Every action
does at most one of these, as can be told from the engine before it (`Action.naming`), and
this is all that it does to ids and to the factories that are there (`Engine.names_act`).

So the requests that a factory gets are a list that can be read off a run
(`Engine.requests`), and a factory at the end of a run is the factory before it after it
served these requests (`Engine.factory_actAll`). A node is in a request only if it has no id
when its turn comes, thus never if it was defined with one (`Engine.givenId_of_requests`).

Key definitions: `Naming`, `Action.naming`, `Request`, `Engine.requests`.
Key theorems: `Engine.names_act`, `Engine.factory_actAll`, `Engine.givenId_of_requests`.
-/
import TraceBacklog.Proofs.Engine.Naming
import TraceBacklog.Proofs.Factory

namespace TraceBacklog

/-! ### Naming the nodes of a list -/

namespace Node

theorem name_of_some {n : Node} {t : IdTable} {id : String} (h : n.id? t = some id)
    (f : IdFactory) : n.name f t = (f, t) := by
  rw [name, h]

theorem name_of_none {n : Node} {t : IdTable} (h : n.id? t = none) (f : IdFactory) :
    n.name f t = ((f.create n.label).2, t.assign n.key (f.create n.label).1) := by
  rw [name, h]

theorem givenId_of_id?_eq_none {n : Node} {t : IdTable} (h : n.id? t = none) :
    n.givenId = none := by
  unfold id? at h
  cases hg : n.givenId with
  | none => rfl
  | some given =>
    rw [hg] at h
    cases h

theorem id?_eq_get? {n : Node} (h : n.givenId = none) (t : IdTable) : n.id? t = t.get? n.key := by
  rw [id?, h]

/-- The nodes of a list for which a factory is asked when the nodes are named one after the
other. -/
def asking (f : IdFactory) (t : IdTable) : List Node → List Node
  | [] => []
  | n :: rest =>
    (if n.hasId t then [] else [n]) ++ asking (n.name f t).1 (n.name f t).2 rest

theorem asking_of_some {f : IdFactory} {t : IdTable} {n : Node} {id : String}
    (h : n.id? t = some id) (rest : List Node) : asking f t (n :: rest) = asking f t rest := by
  have hid : n.hasId t = true := by rw [hasId, h]; rfl
  rw [asking, if_pos hid, name_of_some h]
  rfl

theorem asking_of_none {f : IdFactory} {t : IdTable} {n : Node} (h : n.id? t = none)
    (rest : List Node) : asking f t (n :: rest) =
      n :: asking (f.create n.label).2 (t.assign n.key (f.create n.label).1) rest := by
  have hid : ¬ n.hasId t = true := by rw [hasId, h]; exact Bool.false_ne_true
  rw [asking, if_neg hid, name_of_none h]
  rfl

theorem fst_nameList (f : IdFactory) (t : IdTable) (nodes : List Node) :
    (nameList f t nodes).1 = f.serve ((asking f t nodes).map (·.label)) := by
  induction nodes generalizing f t with
  | nil => rfl
  | cons n rest ih =>
    rw [nameList_cons, ih]
    cases h : n.id? t with
    | some id => rw [name_of_some h, asking_of_some h]
    | none =>
      rw [name_of_none h, asking_of_none h]
      rfl

theorem mem_of_mem_asking {f : IdFactory} {t : IdTable} {nodes : List Node} {n : Node}
    (h : n ∈ asking f t nodes) : n ∈ nodes ∧ n.givenId = none := by
  induction nodes generalizing f t with
  | nil => cases h
  | cons m rest ih =>
    cases hid : m.id? t with
    | some id =>
      rw [asking_of_some hid] at h
      obtain ⟨hmem, hgiven⟩ := ih h
      exact ⟨List.mem_cons_of_mem _ hmem, hgiven⟩
    | none =>
      rw [asking_of_none hid] at h
      rcases List.mem_cons.mp h with rfl | h
      · exact ⟨List.mem_cons_self, givenId_of_id?_eq_none hid⟩
      · obtain ⟨hmem, hgiven⟩ := ih h
        exact ⟨List.mem_cons_of_mem _ hmem, hgiven⟩

end Node

/-! ### What an action does to ids and factories -/

/-- A way in which ids come into being. -/
inductive Naming where
  | nothing
  /-- The nodes that have no id get one of the factory, one node after the other. -/
  | names (f : FactoryRef) (nodes : List Node)
  /-- The factory is asked for an id that no node gets. -/
  | draws (f : FactoryRef) (label : String)
  /-- The node gets this id if it has none. -/
  | gives (n : Node) (id : String)

/-- What an action does about ids. -/
def Action.naming (e : Engine) : Action → Naming
  | .enter i _ =>
    if (e.tracer i.tracer).enabled then .names (e.tracer i.tracer).factory [i.node] else .nothing
  | .perform r (.setEnabled true) =>
    if (e.tracer r).isShutDown then .nothing
    else .names (e.tracer r).factory (Node.walkEach (e.tracer r).trackedNodes)
  | .track r n =>
    if (e.tracer r).isShutDown then .nothing
    else if (e.tracer r).enabled then .names (e.tracer r).factory n.walk else .nothing
  | .nameNode f n => .names f n.walk
  | .createId f label => .draws f label
  | .initNodeId n id => .gives n id
  | _ => .nothing

/-- The ids and the factories. -/
def Engine.names (e : Engine) : IdTable × List IdFactory := (e.ids, e.factories)

/-- The ids and the factories after a naming. -/
def Naming.after (e : Engine) : Naming → IdTable × List IdFactory
  | .nothing => e.names
  | .names f nodes =>
    let named := Node.nameList (e.factory f) e.ids nodes
    (named.2, e.factories.set f.index named.1)
  | .draws f label => (e.ids, e.factories.set f.index ((e.factory f).create label).2)
  | .gives n id => (n.initId id e.ids, e.factories)

namespace Engine

variable (e : Engine)

theorem set_factory (f : FactoryRef) : e.factories.set f.index (e.factory f) = e.factories := by
  refine List.ext_getElem? fun i => ?_
  rw [List.getElem?_set]
  by_cases hi : f.index = i
  · subst hi
    by_cases hf : f.index < e.factories.length
    · rw [if_pos rfl, if_pos hf, factory, List.getD_eq_getElem?_getD, List.getElem?_eq_getElem hf]
      rfl
    · rw [if_pos rfl, if_neg hf, List.getElem?_eq_none (Nat.le_of_not_lt hf)]
  · rw [if_neg hi]

theorem names_nodeId (f : FactoryRef) (n : Node) :
    (e.nodeId f n).1.names = (Naming.names f [n]).after e := by
  show _ = ((n.name (e.factory f) e.ids).2, e.factories.set f.index (n.name (e.factory f) e.ids).1)
  cases h : n.id? e.ids with
  | some id =>
    rw [nodeId_of_some h, Node.name_of_some h, set_factory]
    rfl
  | none =>
    rw [nodeId_of_none h, Node.name_of_none h]
    rfl

theorem names_nameNodes (f : FactoryRef) (nodes : List Node) :
    (e.nameNodes f nodes).names = (Naming.names f (Node.walkEach nodes)).after e := by
  rw [nameNodes, Node.nameEach_eq_nameList]
  rfl

theorem names_nameNode (f : FactoryRef) (n : Node) :
    (e.nameNode f n).names = (Naming.names f n.walk).after e := by
  rw [nameNode, names_nameNodes, Node.walkEach, Node.walkEach, List.append_nil]

theorem names_setEnabled (r : TracerRef) :
    (e.setEnabled r true).1.names = ((Action.perform r (.setEnabled true)).naming e).after e := by
  rw [Action.naming]
  cases hdown : (e.tracer r).isShutDown with
  | true =>
    rw [setEnabled, useTracer, withUsable_of_isShutDown hdown]
    rfl
  | false =>
    have hnamed := e.names_nameNodes (e.tracer r).factory (e.tracer r).trackedNodes
    rw [if_neg Bool.false_ne_true, setEnabled, useTracer, withUsable,
      if_neg (hdown ▸ Bool.false_ne_true)]
    dsimp only
    split <;> exact hnamed

theorem names_track (r : TracerRef) (n : Node) :
    (e.track r n).1.names = ((Action.track r n).naming e).after e := by
  rw [Action.naming, track, useTracer, withUsable]
  split
  · rfl
  · dsimp only
    split
    · exact (e.modifyTracer r (·.track n)).names_nameNode _ n
    · rfl

theorem names_enter (i : Interceptor) (x : Exchange) :
    (e.enter i x).names = ((Action.enter i x).naming e).after e := by
  rw [Action.naming]
  cases henabled : (e.tracer i.tracer).enabled with
  | true =>
    rw [enter_of_enabled henabled, if_pos rfl, ← names_nodeId]
    exact capture_keeps (·.names) (fun _ _ => rfl) (fun _ _ => rfl) (fun _ _ => rfl) e i x
  | false =>
    rw [enter_of_disabled henabled, if_neg Bool.false_ne_true]
    rfl

theorem names_perform (r : TracerRef) (c : Command) :
    (e.perform r c).1.names = ((Action.perform r c).naming e).after e := by
  by_cases hc : c = .setEnabled true
  · subst hc
    exact e.names_setEnabled r
  · have hnothing : (Action.perform r c).naming e = .nothing := by
      unfold Action.naming
      split <;> simp_all
    rw [hnothing]
    exact e.perform_keeps (·.names) (fun _ _ => rfl) (fun _ _ => rfl) r hc

/-- **The naming of an action is all that it does to ids and factories**, new factories
apart. -/
theorem names_act (a : Action) :
    (e.act a).ids = ((a.naming e).after e).1 ∧
      ((a.naming e).after e).2 <+: (e.act a).factories := by
  have hall (h : (e.act a).names = (a.naming e).after e) :
      (e.act a).ids = ((a.naming e).after e).1 ∧
        ((a.naming e).after e).2 <+: (e.act a).factories := by
    rw [← h]
    exact ⟨rfl, List.prefix_rfl⟩
  cases a with
  | enter i x => exact hall (e.names_enter i x)
  | perform r c => exact hall (e.names_perform r c)
  | track r n => exact hall (e.names_track r n)
  | nameNode f n => exact hall (e.names_nameNode f n)
  | visit name kind => cases name <;> exact hall rfl
  | newFactory f => exact ⟨rfl, List.prefix_append _ _⟩
  | newTracer c f =>
    rw [act]
    unfold newTracer
    cases f with
    | none =>
      dsimp only
      split
      · exact ⟨rfl, List.prefix_rfl⟩
      · exact ⟨rfl, List.prefix_append _ _⟩
    | some f =>
      dsimp only
      split <;> exact ⟨rfl, List.prefix_rfl⟩
  | _ => exact hall rfl

end Engine

/-! ### Requests -/

/-- A factory is asked for an id, for a node that has none or for nobody. -/
structure Request where
  factory : FactoryRef
  label : String
  node : Option Node

/-- The requests of a naming. -/
def Naming.requests (e : Engine) : Naming → List Request
  | .names f nodes => (Node.asking (e.factory f) e.ids nodes).map fun n => ⟨f, n.label, some n⟩
  | .draws f label => [⟨f, label, none⟩]
  | _ => []

/-- The labels for which a factory is asked. -/
def labelsFor (f : FactoryRef) (requests : List Request) : List String :=
  (requests.filter (·.factory = f)).map (·.label)

theorem labelsFor_append (f : FactoryRef) (first rest : List Request) :
    labelsFor f (first ++ rest) = labelsFor f first ++ labelsFor f rest := by
  rw [labelsFor, List.filter_append, List.map_append]
  rfl

theorem labelsFor_requests_of_ne {e : Engine} {f g : FactoryRef} (h : g ≠ f) (nodes : List Node) :
    labelsFor f ((Naming.names g nodes).requests e) = [] := by
  have hnone : ((Naming.names g nodes).requests e).filter (·.factory = f) = [] := by
    rw [List.filter_eq_nil_iff]
    intro request hrequest
    obtain ⟨n, -, rfl⟩ := List.mem_map.mp hrequest
    simpa using h
  rw [labelsFor, hnone]
  rfl

theorem labelsFor_requests_self (e : Engine) (f : FactoryRef) (nodes : List Node) :
    labelsFor f ((Naming.names f nodes).requests e) =
      (Node.asking (e.factory f) e.ids nodes).map (·.label) := by
  have hall : ((Naming.names f nodes).requests e).filter (·.factory = f) =
      (Naming.names f nodes).requests e := by
    rw [List.filter_eq_self]
    intro request hrequest
    obtain ⟨n, -, rfl⟩ := List.mem_map.mp hrequest
    simp
  rw [labelsFor, hall, Naming.requests, List.map_map]
  rfl

namespace Engine

/-- The requests of a run, in their order. -/
def requests (e : Engine) : List Action → List Request
  | [] => []
  | a :: rest => (a.naming e).requests e ++ requests (e.act a) rest

theorem requests_append (e : Engine) (first rest : List Action) :
    e.requests (first ++ rest) = e.requests first ++ (e.actAll first).requests rest := by
  induction first generalizing e with
  | nil => rfl
  | cons a first ih =>
    rw [List.cons_append, requests, requests, ih, actAll_cons, List.append_assoc]

/-- A factory that is asked for an id is not asked for a node that was defined with one. -/
theorem givenId_of_requests {e : Engine} {actions : List Action} {request : Request} {n : Node}
    (h : request ∈ e.requests actions) (hn : request.node = some n) : n.givenId = none := by
  induction actions generalizing e with
  | nil => cases h
  | cons a rest ih =>
    rcases List.mem_append.mp h with h | h
    · cases ha : a.naming e with
      | names f nodes =>
        rw [ha] at h
        obtain ⟨m, hm, rfl⟩ := List.mem_map.mp h
        obtain rfl : m = n := Option.some.inj hn
        exact (Node.mem_of_mem_asking hm).2
      | draws f label =>
        rw [ha] at h
        obtain rfl := List.mem_singleton.mp h
        cases hn
      | nothing =>
        rw [ha] at h
        cases h
      | gives m id =>
        rw [ha] at h
        cases h
    · exact ih h

section Factory

variable {e : Engine} {f : FactoryRef}

theorem length_factories_le_act (e : Engine) (a : Action) :
    e.factories.length ≤ (e.act a).factories.length := by
  have hle := (e.names_act a).2.length_le
  have hsame : ((a.naming e).after e).2.length = e.factories.length := by
    unfold Naming.after
    split
    · rfl
    · exact List.length_set
    · exact List.length_set
    · rfl
  omega

theorem factory_of_longer {e' : Engine} {factories : List IdFactory}
    (h : factories <+: e'.factories) (hf : f.index < factories.length) :
    e'.factory f = factories[f.index] := by
  obtain ⟨more, hmore⟩ := h
  rw [factory, ← hmore, List.getD_eq_getElem?_getD, List.getElem?_append_left hf,
    List.getElem?_eq_getElem hf]
  rfl

/-- A factory that another value is put in place of is another one. -/
theorem factory_of_set_longer {e' : Engine} {g : FactoryRef} {value : IdFactory}
    (h : e.factories.set g.index value <+: e'.factories) (hf : f.index < e.factories.length) :
    e'.factory f = if g = f then value else e.factory f := by
  have hsame : e.factory f = e.factories[f.index] := factory_of_longer List.prefix_rfl hf
  rw [factory_of_longer h (by rwa [List.length_set]), List.getElem_set, hsame]
  by_cases hg : g = f
  · rw [if_pos hg, if_pos (congrArg FactoryRef.index hg)]
  · have hindex : g.index ≠ f.index := fun hi => hg (congrArg FactoryRef.mk hi)
    rw [if_neg hg, if_neg hindex]

/-- An action makes a factory serve the requests that it has for it. -/
theorem factory_act (hf : f.index < e.factories.length) (a : Action) :
    (e.act a).factory f = (e.factory f).serve (labelsFor f ((a.naming e).requests e)) := by
  have hprefix := (e.names_act a).2
  have hsame : e.factory f = e.factories[f.index] := factory_of_longer List.prefix_rfl hf
  cases ha : a.naming e with
  | nothing =>
    rw [ha] at hprefix
    exact (factory_of_longer hprefix hf).trans hsame.symm
  | names g nodes =>
    rw [ha] at hprefix
    rw [factory_of_set_longer hprefix hf, Node.fst_nameList]
    by_cases hg : g = f
    · subst hg
      rw [if_pos rfl, labelsFor_requests_self]
    · rw [if_neg hg, labelsFor_requests_of_ne hg]
      rfl
  | draws g label =>
    rw [ha] at hprefix
    rw [factory_of_set_longer hprefix hf, Naming.requests, labelsFor]
    by_cases hg : g = f
    · subst hg
      rw [if_pos rfl, List.filter_cons_of_pos (by simp)]
      rfl
    · rw [if_neg hg, List.filter_cons_of_neg (by simpa using hg)]
      rfl
  | gives n id =>
    rw [ha] at hprefix
    exact (factory_of_longer hprefix hf).trans hsame.symm

/-- **A factory is asked for what the requests say and for nothing else.** -/
theorem factory_actAll (hf : f.index < e.factories.length) (actions : List Action) :
    (e.actAll actions).factory f = (e.factory f).serve (labelsFor f (e.requests actions)) := by
  induction actions generalizing e with
  | nil => rfl
  | cons a rest ih =>
    have hlater := hf.trans_le (e.length_factories_le_act a)
    rw [actAll_cons, ih hlater, factory_act hf, requests, labelsFor_append,
      IdFactory.serve_append]

end Factory

end Engine

end TraceBacklog
