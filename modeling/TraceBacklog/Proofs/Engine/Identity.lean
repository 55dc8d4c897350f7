/-
# When an id names one node

Events are looked up by the id of a node, so it matters whether two nodes can have the same
one. A factory that counts labels makes up ids that differ whenever it is asked for the same
label: each such id is the label and the number of requests for it so far (`Issued`,
`Engine.records_act`, `Engine.records_moment`). That is all it takes care of. It neither knows
the ids that nodes were defined with, nor that one label may be another one with a digit behind,
nor what other factories give away; in each of these ways two nodes of a tracer come to share an
id, and what is looked up by it are the events of both (`Engine.nodes_share_ids`).

Where none of this happens (`Engine.NamedBy`, `Distinguishable`), different nodes never have
the same id, and what is looked up by the id of a node are the held events that were captured
at it (`Engine.ids_tell_nodes_apart`).

Key definitions: `Action.concerns`, `Issued`, `Coined`, `Engine.NamedBy`, `Distinguishable`,
`Arrival.isFor`.
Key theorems: `Issued.eq_of_label`, `Engine.records_moment`, `Engine.ids_tell_nodes_apart`,
`Engine.nodes_share_ids`.
-/
import TraceBacklog.Proofs.Engine.Attribution
import TraceBacklog.Proofs.Number.Decimal

namespace TraceBacklog

/-! ### What a factory makes up -/

/-- A factory that was asked for these labels may have made up this id for one of them. -/
def Coined (labels : List String) (label id : String) : Prop :=
  ∃ k, 0 < k ∧ k ≤ labels.count label ∧ id = label ++ toString k

/-- The node got this id at one of the requests to the factory. -/
def Issued (f : FactoryRef) (requests : List Request) (n : Node) (id : String) : Prop :=
  ∃ earlier, earlier ++ [⟨f, n.label, some n⟩] <+: requests ∧
    id = n.label ++ toString ((labelsFor f earlier).count n.label + 1)

theorem labelsFor_isPrefix {f : FactoryRef} {earlier requests : List Request}
    (h : earlier <+: requests) : labelsFor f earlier <+: labelsFor f requests :=
  (h.filter _).map _

theorem labelsFor_singleton_self (f : FactoryRef) (label : String) (node : Option Node) :
    labelsFor f [⟨f, label, node⟩] = [label] := by
  rw [labelsFor, List.filter_cons_of_pos (by simp)]
  rfl

/-- Every request for a label raises its number. -/
theorem count_lt_count {f : FactoryRef} {label : String} {node : Option Node}
    {earlier later requests : List Request} (hearlier : earlier ++ [⟨f, label, node⟩] <+: requests)
    (hlater : later <+: requests) (hlength : earlier.length < later.length) :
    (labelsFor f earlier).count label < (labelsFor f later).count label := by
  have hbefore : earlier ++ [⟨f, label, node⟩] <+: later := by
    refine List.prefix_of_prefix_length_le hearlier hlater ?_
    rw [List.length_append, List.length_singleton]
    exact hlength
  have hcount := (labelsFor_isPrefix (f := f) hbefore).sublist.count_le label
  rw [labelsFor_append, labelsFor_singleton_self, List.count_append, List.count_singleton_self]
    at hcount
  omega

namespace Issued

variable {f : FactoryRef} {requests : List Request} {n m : Node} {id : String}

theorem mono {more : List Request} (h : Issued f requests n id) (hmore : requests <+: more) :
    Issued f more n id := by
  obtain ⟨earlier, hearlier, hid⟩ := h
  exact ⟨earlier, hearlier.trans hmore, hid⟩

theorem coined (h : Issued f requests n id) : Coined (labelsFor f requests) n.label id := by
  obtain ⟨earlier, hearlier, hid⟩ := h
  have hcount := (labelsFor_isPrefix (f := f) hearlier).sublist.count_le n.label
  rw [labelsFor_append, labelsFor_singleton_self, List.count_append, List.count_singleton_self]
    at hcount
  exact ⟨_, Nat.succ_pos _, hcount, hid⟩

/-- Nodes with the same label do not get the same id. -/
theorem eq_of_label (hn : Issued f requests n id) (hm : Issued f requests m id)
    (hlabel : n.label = m.label) : n = m := by
  obtain ⟨first, hfirst, hid⟩ := hn
  obtain ⟨second, hsecond, hid'⟩ := hm
  rw [← hlabel] at hsecond hid'
  have hnumbers : (labelsFor f first).count n.label = (labelsFor f second).count n.label := by
    have := append_toString_injective n.label (hid.symm.trans hid')
    omega
  have hfirst' := (List.prefix_append _ _).trans hfirst
  have hsecond' := (List.prefix_append _ _).trans hsecond
  -- Two requests for one label at different places have different numbers.
  rcases Nat.lt_trichotomy first.length second.length with hlt | heq | hgt
  · have := count_lt_count hfirst hsecond' hlt
    omega
  · have hlength : (first ++ [⟨f, n.label, some n⟩] : List Request).length =
        (second ++ [⟨f, n.label, some m⟩] : List Request).length := by
      rw [List.length_append, List.length_append, heq]
      rfl
    have hsame := (List.prefix_of_prefix_length_le hfirst hsecond hlength.le).eq_of_length hlength
    obtain ⟨-, hlast⟩ := List.append_inj' hsame rfl
    injection hlast with hrequest
    injection hrequest with _ _ hnode
    exact Option.some.inj hnode
  · have := count_lt_count hsecond hfirst' hgt
    omega

end Issued

/-! ### Nodes that one factory names -/

/-- The ids that these nodes got are ids that were issued to them. -/
def IdTable.Records (t : IdTable) (f : FactoryRef) (nodes : List Node)
    (requests : List Request) : Prop :=
  ∀ n ∈ nodes, n.givenId = none → ∀ id, n.id? t = some id → Issued f requests n id

namespace IdTable.Records

variable {t : IdTable} {f : FactoryRef} {nodes : List Node} {requests : List Request}

theorem mono {more : List Request} (h : t.Records f nodes requests) (hmore : requests <+: more) :
    t.Records f nodes more :=
  fun n hn hgiven id hid => (h n hn hgiven id hid).mono hmore

/-- If one of the nodes gets an id it has to be one that was issued to it. -/
theorem assign (h : t.Records f nodes requests) {n : Node} (hfree : n.id? t = none) {id : String}
    (hissued : ∀ m ∈ nodes, n.key = m.key → Issued f requests m id) :
    (t.assign n.key id).Records f nodes requests := by
  intro m hm hgiven id' hid'
  rw [Node.id?_eq_get? hgiven] at hid'
  by_cases hkey : n.key = m.key
  · have hnone : t.get? n.key = none := by
      rwa [Node.id?_eq_get? (Node.givenId_of_id?_eq_none hfree)] at hfree
    rw [← hkey, get?_assign_self, hnone, Option.getD_none] at hid'
    obtain rfl := Option.some.inj hid'
    exact hissued m hm hkey
  · rw [get?_assign_of_ne hkey, ← Node.id?_eq_get? hgiven] at hid'
    exact h m hm hgiven id' hid'

/-- Naming nodes one after the other records the requests that it takes. -/
theorem nameList {g : FactoryRef} {factory : IdFactory} (h : t.Records f nodes requests)
    (hfactory : g = f → factory = IdFactory.fresh.serve (labelsFor f requests)) {list : List Node}
    (hasked : ∀ n ∈ Node.asking factory t list, ∀ m ∈ nodes, n.key = m.key → n = m ∧ g = f)
    (hfew : (labelsFor f (requests ++
      (Node.asking factory t list).map fun n => ⟨g, n.label, some n⟩)).length < UInt64.size) :
    (Node.nameList factory t list).2.Records f nodes
      (requests ++ (Node.asking factory t list).map fun n => ⟨g, n.label, some n⟩) := by
  induction list generalizing factory t requests with
  | nil =>
    rw [Node.asking, List.map_nil, List.append_nil]
    exact h
  | cons n rest ih =>
    rw [Node.nameList_cons]
    cases hid : n.id? t with
    | some id =>
      rw [Node.asking_of_some hid] at hasked hfew ⊢
      rw [Node.name_of_some hid]
      exact ih h hfactory hasked hfew
    | none =>
      rw [Node.asking_of_none hid] at hasked hfew ⊢
      rw [Node.name_of_none hid]
      rw [List.map_cons, List.append_cons] at hfew ⊢
      have hmore : requests <+: requests ++ [⟨g, n.label, some n⟩] := List.prefix_append _ _
      refine ih ((h.mono hmore).assign hid fun m hm hkey => ?_) (fun hg => ?_)
        (fun n' hn' => hasked n' (List.mem_cons_of_mem _ hn')) hfew
      · obtain ⟨rfl, rfl⟩ := hasked n List.mem_cons_self m hm hkey
        have hlength := (labelsFor_isPrefix (f := g) (List.prefix_append
          (requests ++ [⟨g, n.label, some n⟩]) _)).length_le.trans_lt hfew
        rw [labelsFor_append, labelsFor_singleton_self, List.length_append,
          List.length_singleton] at hlength
        refine ⟨requests, List.prefix_rfl, ?_⟩
        have hcount : (labelsFor g requests).count n.label + 1 < UInt64.size :=
          (Nat.succ_le_succ List.count_le_length).trans_lt hlength
        rw [hfactory rfl, IdFactory.create_serve_fresh hcount]
      · subst hg
        rw [hfactory rfl, labelsFor_append, labelsFor_singleton_self, IdFactory.serve_append]
        rfl

end IdTable.Records

namespace Engine

/-- In a run these nodes get ids from one factory alone, which has counted nothing before and
is asked less often than a word can count. -/
structure NamedBy (f : FactoryRef) (nodes : List Node) (start : Engine)
    (actions : List Action) : Prop where
  fresh : start.factories[f.index]? = some .fresh
  unnamed : ∀ n ∈ nodes, n.givenId = none → n.id? start.ids = none
  requested : ∀ request ∈ start.requests actions, ∀ n, request.node = some n →
    ∀ m ∈ nodes, n.key = m.key → n = m ∧ request.factory = f
  /-- Nobody else thinks of an id for one of them. -/
  notGiven : ∀ before n id, before ++ [.initNodeId n id] <+: actions →
    n.id? (start.actAll before).ids = none → ∀ m ∈ nodes, n.key ≠ m.key
  few : (labelsFor f (start.requests actions)).length < UInt64.size

theorem eq_initNodeId_of_naming {e : Engine} {a : Action} {n : Node} {id : String}
    (h : a.naming e = .gives n id) : a = .initNodeId n id := by
  unfold Action.naming at h
  split at h
  · split at h <;> cases h
  · split at h <;> cases h
  · split at h
    · cases h
    · split at h <;> cases h
  · cases h
  · cases h
  · cases h
    rfl
  · cases h

theorem requests_isPrefix {e : Engine} {earlier later : List Action} (h : earlier <+: later) :
    e.requests earlier <+: e.requests later := by
  obtain ⟨rest, rfl⟩ := h
  rw [requests_append]
  exact List.prefix_append _ _

/-- An action gives the nodes no ids but such as its requests issue to them. -/
theorem records_act {e : Engine} {f : FactoryRef} {nodes : List Node} {requests : List Request}
    (h : e.ids.Records f nodes requests)
    (hfactory : e.factory f = IdFactory.fresh.serve (labelsFor f requests)) {a : Action}
    (hgiven : ∀ n id, a = .initNodeId n id → n.id? e.ids = none → ∀ m ∈ nodes, n.key ≠ m.key)
    (hrequested : ∀ request ∈ (a.naming e).requests e, ∀ n, request.node = some n →
      ∀ m ∈ nodes, n.key = m.key → n = m ∧ request.factory = f)
    (hfew : (labelsFor f (requests ++ (a.naming e).requests e)).length < UInt64.size) :
    (e.act a).ids.Records f nodes (requests ++ (a.naming e).requests e) := by
  have hmore := h.mono (List.prefix_append requests ((a.naming e).requests e))
  rw [(e.names_act a).1]
  cases ha : a.naming e with
  | nothing =>
    rw [ha] at hmore
    exact hmore
  | draws g label =>
    rw [ha] at hmore
    exact hmore
  | gives n id =>
    rw [ha] at hmore
    show (n.initId id e.ids).Records f nodes _
    unfold Node.initId
    cases hid : n.id? e.ids with
    | some old => exact hmore
    | none =>
      refine hmore.assign hid fun m hm hkey => ?_
      exact absurd hkey (hgiven n id (eq_initNodeId_of_naming ha) hid m hm)
  | names g list =>
    rw [ha] at hrequested hfew
    refine h.nameList (fun hg => hg ▸ hfactory) (fun n hn m hm hkey => ?_) hfew
    exact hrequested ⟨g, n.label, some n⟩ (List.mem_map_of_mem hn) n rfl m hm hkey

/-- At any moment the nodes have ids that the factory issued to them. -/
theorem records_moment {f : FactoryRef} {nodes : List Node} {start : Engine}
    {actions : List Action} (h : NamedBy f nodes start actions) {moment : List Action}
    (hmoment : moment <+: actions) :
    (start.actAll moment).ids.Records f nodes (start.requests moment) := by
  induction moment using List.reverseRecOn with
  | nil =>
    intro n hn hgiven id hid
    rw [actAll_nil, h.unnamed n hn hgiven] at hid
    cases hid
  | append_singleton before a ih =>
    have hbefore : before <+: actions := (List.prefix_append _ _).trans hmoment
    obtain ⟨hf, hfresh⟩ := List.getElem?_eq_some_iff.mp h.fresh
    have hfactory : (start.actAll before).factory f =
        IdFactory.fresh.serve (labelsFor f (start.requests before)) := by
      have hstart : start.factory f = .fresh := (factory_of_longer List.prefix_rfl hf).trans hfresh
      rw [factory_actAll hf, hstart]
    have hrequests : start.requests (before ++ [a]) = start.requests before ++
        (a.naming (start.actAll before)).requests (start.actAll before) := by
      rw [requests_append]
      exact congrArg _ (List.append_nil _)
    have hin : start.requests (before ++ [a]) <+: start.requests actions :=
      requests_isPrefix hmoment
    have hfew := (labelsFor_isPrefix (f := f) hin).length_le.trans_lt h.few
    rw [actAll_append, actAll_cons, actAll_nil]
    rw [hrequests] at hin hfew ⊢
    refine records_act (ih hbefore) hfactory (fun n id ha => ?_) (fun request hrequest => ?_) hfew
    · exact h.notGiven before n id (ha ▸ hmoment)
    · exact h.requested request (hin.subset (List.mem_append_right _ hrequest))

end Engine

/-! ### The nodes of a tracer -/

/-- The nodes that an action makes a concern of a tracer: a node that it tracks from then on
with all that is below it, and a node at which an exchange is captured. -/
def Action.concerns (r : TracerRef) (e : Engine) : Action → List Node
  | .track s n => if s = r ∧ (e.tracer r).isShutDown = false then n.walk else []
  | .enter i _ =>
    if (i.tracer = r ∨ i.store = r) ∧ (e.tracer i.tracer).enabled = true then [i.node] else []
  | _ => []

/-- The nodes that a tracer was ever concerned with in a run. -/
def Engine.concerned (r : TracerRef) (e : Engine) : List Action → List Node
  | [] => []
  | a :: rest => a.concerns r e ++ concerned r (e.act a) rest

namespace Engine

variable {r : TracerRef}

/-- What is tracked after an action was tracked before it or is a concern of it. -/
theorem walk_of_tracked_act {e : Engine} {a : Action} {n : Node}
    (h : n ∈ ((e.act a).tracer r).trackedNodes) :
    n ∈ (e.tracer r).trackedNodes ∨ ∀ m ∈ n.walk, m ∈ a.concerns r e := by
  by_cases hr : r.index < e.tracers.length
  · obtain ⟨c, rfl, hafter⟩ | ⟨m, rfl, hafter⟩ | ⟨m, rfl, hafter⟩ | ⟨-, hsame, -⟩ :=
      e.tracking_cases hr a
    · rw [hafter] at h
      exact .inl (Tracer.mem_trackedNodes_of_obey h)
    · rw [hafter, Tracer.ifLive] at h
      cases hdown : (e.tracer r).isShutDown with
      | true =>
        rw [hdown, if_pos rfl] at h
        exact .inl h
      | false =>
        rw [hdown, if_neg Bool.false_ne_true] at h
        rcases Tracer.mem_trackedNodes_track h with rfl | h
        · refine .inr fun k hk => ?_
          rwa [Action.concerns, if_pos ⟨rfl, hdown⟩]
        · exact .inl h
    · rw [hafter] at h
      exact .inl (Tracer.mem_trackedNodes_of_untrack h)
    · rw [Tracer.trackedNodes, hsame] at h
      exact .inl h
  · obtain ⟨c, capacity, factory, hfresh⟩ := tracer_act_of_length_le (Nat.le_of_not_lt hr) a
    rw [hfresh] at h
    cases h

/-- A tracer that tracks nothing at first is concerned with what it tracks later. -/
theorem concerned_of_tracked {e : Engine} {actions : List Action} {n : Node}
    (h : n ∈ ((e.actAll actions).tracer r).trackedNodes) :
    n ∈ (e.tracer r).trackedNodes ∨ ∀ m ∈ n.walk, m ∈ e.concerned r actions := by
  induction actions generalizing e with
  | nil => exact .inl h
  | cons a rest ih =>
    rcases ih h with hlater | hlater
    · rcases walk_of_tracked_act hlater with hbefore | hnow
      · exact .inl hbefore
      · exact .inr fun m hm => List.mem_append_left _ (hnow m hm)
    · exact .inr fun m hm => List.mem_append_right _ (hlater m hm)

theorem concerned_append (e : Engine) (first rest : List Action) :
    e.concerned r (first ++ rest) = e.concerned r first ++ (e.actAll first).concerned r rest := by
  induction first generalizing e with
  | nil => rfl
  | cons a first ih =>
    rw [List.cons_append, concerned, concerned, ih, actAll_cons, List.append_assoc]

/-- A tracer is concerned with the nodes at which it captures. -/
theorem concerned_of_enter {e : Engine} {before actions : List Action} {i : Interceptor}
    {x : Exchange} (h : before ++ [.enter i x] <+: actions) (hr : i.tracer = r ∨ i.store = r)
    (henabled : ((e.actAll before).tracer i.tracer).enabled = true) :
    i.node ∈ e.concerned r actions := by
  obtain ⟨rest, rfl⟩ := h
  rw [List.append_assoc, concerned_append, List.singleton_append, concerned, Action.concerns,
    if_pos ⟨hr, henabled⟩]
  exact List.mem_append_right _ List.mem_cons_self

/-- A tracer is concerned with the nodes whose events its backlog gets. -/
theorem concerned_of_arrivals {e : Engine} {actions : List Action} {arrival : Arrival}
    (h : arrival ∈ e.arrivals r actions) {i : Interceptor} (hi : arrival.interceptor = some i) :
    i.node ∈ e.concerned r actions := by
  induction actions generalizing e with
  | nil => cases h
  | cons a rest ih =>
    rcases List.mem_append.mp h with h | h
    · obtain ⟨x, rfl, hstore, henabled, -⟩ := enter_of_arrivalsIn h hi
      refine List.mem_append_left _ ?_
      rw [Action.concerns, if_pos ⟨.inr hstore, henabled⟩]
      exact List.mem_cons_self
    · exact List.mem_append_right _ (ih h)

end Engine

/-! ### Ids that tell nodes apart -/

/-- Different nodes have different keys and were not defined with one id, and an id that the
factory makes up for the label of one of them is not the given id of another one and is not
made up for the label of another one as well. -/
structure Distinguishable (nodes : List Node) (labels : List String) : Prop where
  keys : ∀ n ∈ nodes, ∀ m ∈ nodes, n.key = m.key → n = m
  given : ∀ n ∈ nodes, ∀ m ∈ nodes, ∀ id, n.givenId = some id → m.givenId = some id → n = m
  free : ∀ n ∈ nodes, n.givenId = none → ∀ id, Coined labels n.label id →
    ∀ m ∈ nodes, m.givenId ≠ some id
  labels : ∀ n ∈ nodes, n.givenId = none → ∀ m ∈ nodes, m.givenId = none →
    ∀ id, Coined labels n.label id → Coined labels m.label id → n.label = m.label

/-- Labels and given ids that do not end in a digit are never confused with what is made up. -/
theorem Distinguishable.of_noDigitLast {nodes : List Node} {labels : List String}
    (hkeys : ∀ n ∈ nodes, ∀ m ∈ nodes, n.key = m.key → n = m)
    (hgiven : ∀ n ∈ nodes, ∀ m ∈ nodes, ∀ id, n.givenId = some id → m.givenId = some id → n = m)
    (hlast : ∀ n ∈ nodes, NoDigitLast (n.givenId.getD n.label)) :
    Distinguishable nodes labels where
  keys := hkeys
  given := hgiven
  free n hn hnone id hcoined m hm hid := by
    obtain ⟨k, -, -, rfl⟩ := hcoined
    have hidLast := hlast m hm
    rw [hid, Option.getD_some] at hidLast
    exact not_noDigitLast_append_toString n.label k hidLast
  labels n hn hnone m hm hnone' id hcoined hcoined' := by
    obtain ⟨j, -, -, rfl⟩ := hcoined
    obtain ⟨k, -, -, hid⟩ := hcoined'
    have hnLast := hlast n hn
    have hmLast := hlast m hm
    rw [hnone, Option.getD_none] at hnLast
    rw [hnone', Option.getD_none] at hmLast
    exact label_eq_of_append_toString_eq hnLast hmLast hid

/-- Nodes that share an id are one node. -/
theorem Distinguishable.eq_of_id? {f : FactoryRef} {nodes : List Node} {requests : List Request}
    {t : IdTable} (h : Distinguishable nodes (labelsFor f requests))
    (ht : t.Records f nodes requests) {n m : Node} (hn : n ∈ nodes) (hm : m ∈ nodes) {id : String}
    (hid : n.id? t = some id) (hid' : m.id? t = some id) : n = m := by
  have hgiven {k : Node} {given : String} (hk : k.givenId = some given)
      (hkid : k.id? t = some id) : k.givenId = some id := by
    rw [Node.id?, hk] at hkid
    rw [hk, ← hkid]
  cases hn' : n.givenId with
  | some given =>
    cases hm' : m.givenId with
    | some given' => exact h.given n hn m hm id (hgiven hn' hid) (hgiven hm' hid')
    | none =>
      have hissued := ht m hm hm' id hid'
      exact absurd (hgiven hn' hid) (h.free m hm hm' id hissued.coined n hn)
  | none =>
    have hissued := ht n hn hn' id hid
    cases hm' : m.givenId with
    | some given' => exact absurd (hgiven hm' hid') (h.free n hn hn' id hissued.coined m hm)
    | none =>
      have hissued' := ht m hm hm' id hid'
      have hlabel := h.labels n hn hn' m hm hm' id hissued.coined hissued'.coined
      exact hissued.eq_of_label hissued' hlabel

/-- The event was captured at this node, or somebody who is not an interceptor says so. -/
def Arrival.isFor (n : Node) (id : String) (a : Arrival) : Bool :=
  match a.interceptor with
  | some i => i.node.key = n.key
  | none => a.event.toNode = id

/-- An event names the id of a node if and only if it was captured at the node. -/
theorem Distinguishable.toNode_eq_iff {f : FactoryRef} {nodes : List Node}
    {requests : List Request} {t : IdTable} (h : Distinguishable nodes (labelsFor f requests))
    (ht : t.Records f nodes requests) {arrival : Arrival} (hattributed : arrival.Attributed t)
    (hnode : ∀ i, arrival.interceptor = some i → i.node ∈ nodes) {n : Node} (hn : n ∈ nodes)
    {id : String} (hid : n.id? t = some id) :
    arrival.event.toNode = id ↔ arrival.isFor n id = true := by
  unfold Arrival.isFor
  cases hi : arrival.interceptor with
  | none => exact decide_eq_true_iff.symm
  | some i =>
    obtain ⟨hnamed, -, -⟩ := hattributed i hi
    refine Iff.trans ⟨fun hto => ?_, fun hkey => ?_⟩ decide_eq_true_iff.symm
    · rw [hto] at hnamed
      rw [h.eq_of_id? ht (hnode i hi) hn hnamed hid]
    · rw [h.keys i.node (hnode i hi) n hn hkey, hid] at hnamed
      exact (Option.some.inj hnamed).symm

namespace Engine

/-- **Where no ids are confused an id names one node.** Let a tracer that tracks and holds
nothing at first be concerned with some nodes in a run, which get ids from one factory that
counts labels, and let nothing else spell the ids that it makes up. Then the nodes that the
tracer tracks, all nodes below them and the nodes at which it captured are among those nodes,
two of them do not have the same id, and what it shows for the id of a node are the held events
that were captured at this node. -/
theorem ids_tell_nodes_apart {start : Engine} {r : TracerRef} {f : FactoryRef}
    {ops : List Operation} {nodes : List Node}
    (htracked : (start.tracer r).trackedNodes = [])
    (hevents : (start.tracer r).backlog.events = [])
    (hnodes : ∀ n ∈ start.concerned r (start.actionsAll ops), n ∈ nodes)
    (hnamed : NamedBy f nodes start (start.actionsAll ops))
    (hdistinct : Distinguishable nodes (labelsFor f (start.requests (start.actionsAll ops)))) :
    let actions := start.actionsAll ops
    let now := start.operateAll ops
    (∀ n ∈ (now.tracer r).trackedNodes, ∀ m ∈ n.walk, m ∈ nodes) ∧
    (∀ before i x, before ++ [.enter i x] <+: actions → i.tracer = r ∨ i.store = r →
      ((start.actAll before).tracer i.tracer).enabled = true → i.node ∈ nodes) ∧
    (∀ n ∈ nodes, ∀ m ∈ nodes, n ≠ m → ∀ id, n.id? now.ids = some id → m.id? now.ids ≠ some id) ∧
    ∃ gone held, start.arrivals r actions = gone ++ held ∧
      held.map (·.event) = (now.tracer r).backlog.events ∧
      ∀ n ∈ nodes, ∀ id, n.id? now.ids = some id → (now.tracer r).isShutDown = false →
        now.perform r (.dump id) =
          (now, .ok (.events ((held.filter (·.isFor n id)).map (·.event)))) := by
  intro actions now
  have hnow : now = start.actAll actions := start.operateAll_eq_actAll ops
  have hrecords : now.ids.Records f nodes (start.requests actions) :=
    hnow ▸ records_moment hnamed List.prefix_rfl
  have harrived : ∀ arrival ∈ start.arrivals r actions, ∀ i, arrival.interceptor = some i →
      i.node ∈ nodes := fun arrival harrival i hi =>
    hnodes i.node (concerned_of_arrivals harrival hi)
  refine ⟨fun n hn m hm => ?_, fun before i x hbefore hr henabled => ?_,
    fun n hn m hm hne id hid hid' => ?_, ?_⟩
  · rw [hnow] at hn
    rcases concerned_of_tracked hn with hn | hn
    · rw [htracked] at hn
      cases hn
    · exact hnodes m (hn m hm)
  · exact hnodes i.node (concerned_of_enter hbefore hr henabled)
  · exact hne (hdistinct.eq_of_id? hrecords hn hm hid hid')
  · have hsplit := start.departed_append_events r actions
    rw [hevents, List.nil_append, ← hnow] at hsplit
    obtain ⟨gone, held, harrivals, -, hheld⟩ := List.map_eq_append_iff.mp hsplit.symm
    refine ⟨gone, held, harrivals, hheld, fun n hn id hid hlive => ?_⟩
    have hfor : ∀ arrival ∈ held, decide (arrival.event.toNode = id) = arrival.isFor n id := by
      intro arrival harrival
      have hmem : arrival ∈ start.arrivals r actions := by
        rw [harrivals]
        exact List.mem_append_right _ harrival
      have hattributed : arrival.Attributed now.ids := hnow ▸ attributed_arrivals hmem
      rw [Bool.eq_iff_iff, decide_eq_true_iff]
      exact hdistinct.toNode_eq_iff hrecords hattributed (harrived arrival hmem) hn hid
    have hdump : (now.tracer r).dump id = (held.filter (·.isFor n id)).map (·.event) := by
      rw [Tracer.dump, Backlog.filter, ← hheld, List.filter_map]
      exact congrArg _ (List.filter_congr hfor)
    rw [perform_dump hlive, hdump]

/-! ### How ids are confused -/

/-- An engine with an enabled tracer that has a factory of its own. -/
def enabledTracer : Engine :=
  ((initial .epoch).newTracer { Config.default with enabled := true } none).1

/-- A route with these nodes is built, and an exchange is sent through it. -/
def sendThrough (r : TracerRef) (nodes : List Node) : List Operation :=
  let route : Route := ⟨none, nodes.map fun n => ⟨n, .leaf none []⟩⟩
  [.build [.trace r] route, .process (.pipeline (route.stages [.trace r])) (.new "X1" .empty)]

namespace Apart

def first : Node := ⟨⟨0⟩, "to", none, []⟩

def second : Node := ⟨⟨1⟩, "to", none, []⟩

def audit : Node := ⟨⟨2⟩, "to", some "audit", []⟩

def nodes : List Node := [first, second, audit]

def actions : List Action := enabledTracer.actionsAll (sendThrough ⟨0⟩ nodes)

theorem requests_actions : enabledTracer.requests actions =
    [⟨⟨0⟩, "to", some first⟩, ⟨⟨0⟩, "to", some second⟩] := rfl

theorem eq_of_key : ∀ n ∈ nodes, ∀ m ∈ nodes, n.key = m.key → n = m := by
  simp [nodes, first, second, audit]

theorem namedBy : NamedBy ⟨0⟩ nodes enabledTracer actions := by
  refine ⟨rfl, fun n _ hgiven => ?_, fun request hrequest n hn m hm hkey => ?_,
    fun before n id hgives => ?_, ?_⟩
  · rw [Node.id?_eq_get? hgiven]
    rfl
  · rw [requests_actions] at hrequest
    have hmem : n ∈ nodes ∧ request.factory = ⟨0⟩ := by
      rcases List.mem_pair.mp hrequest with rfl | rfl
      · exact ⟨Option.some.inj hn ▸ List.mem_cons_self, rfl⟩
      · exact ⟨Option.some.inj hn ▸ List.mem_cons_of_mem _ List.mem_cons_self, rfl⟩
    exact ⟨eq_of_key n hmem.1 m hm hkey, hmem.2⟩
  · have hnever : ∀ a ∈ actions, a ≠ .initNodeId n id := by
      refine actionsAll_within (fun a ha => ?_) ?_ enabledTracer
      · rintro rfl
        exact ha
      · simp [sendThrough, Operation.Within, Processor.Within, Route.stages, Route.stagesBy, nodes,
          Processor.AllWithin, Strategy.inFront, Strategy.put]
    have hmem := hgives.subset (List.mem_append_right before List.mem_cons_self)
    exact absurd rfl (hnever _ hmem)
  · rw [requests_actions]
    decide

theorem distinguishable :
    Distinguishable nodes (labelsFor ⟨0⟩ (enabledTracer.requests actions)) := by
  refine .of_noDigitLast eq_of_key ?_ ?_
  · simp [nodes, first, second, audit]
  · simp [nodes, first, second, audit, NoDigitLast, NoDigit]

end Apart

/-- Two nodes get different ids of the factory, beside a node that was defined with one. -/
theorem ids_tell_nodes_apart_audit :
    let now := enabledTracer.operateAll (sendThrough ⟨0⟩ Apart.nodes)
    (enabledTracer.tracer ⟨0⟩).trackedNodes = [] ∧
    (enabledTracer.tracer ⟨0⟩).backlog.events = [] ∧
    (∀ n ∈ enabledTracer.concerned ⟨0⟩ Apart.actions, n ∈ Apart.nodes) ∧
    NamedBy ⟨0⟩ Apart.nodes enabledTracer Apart.actions ∧
    Distinguishable Apart.nodes (labelsFor ⟨0⟩ (enabledTracer.requests Apart.actions)) ∧
    Apart.first.id? now.ids = some "to1" ∧ Apart.second.id? now.ids ≠ some "to1" := by
  intro now
  have hconcerned : enabledTracer.concerned ⟨0⟩ Apart.actions = Apart.nodes ++ Apart.nodes := rfl
  have hnodes : ∀ n ∈ enabledTracer.concerned ⟨0⟩ Apart.actions, n ∈ Apart.nodes := by
    rw [hconcerned]
    intro n hn
    exact (List.mem_append.mp hn).elim id id
  obtain ⟨-, -, hapart, -⟩ :=
    ids_tell_nodes_apart rfl rfl hnodes Apart.namedBy Apart.distinguishable
  have hfirst : Apart.first.id? now.ids = some "to1" := by decide +kernel
  have hne : Apart.first ≠ Apart.second := fun h => by cases h
  exact ⟨rfl, rfl, hnodes, Apart.namedBy, Apart.distinguishable, hfirst,
    hapart Apart.first List.mem_cons_self Apart.second
      (List.mem_cons_of_mem _ List.mem_cons_self) hne "to1" hfirst⟩

/-- In a run of a tracer with a factory that counts labels, where no two of its nodes were
defined with one id, two nodes that it tracks or that are below such nodes have the same id,
and for this id it shows events that were captured at the one and at the other. -/
structure Confuses (start : Engine) (r : TracerRef) (ops : List Operation) (n m : Node)
    (id : String) : Prop where
  counting : start.factories[(start.tracer r).factory.index]? = some .fresh
  given : ((Node.walkEach ((start.operateAll ops).tracer r).trackedNodes).filterMap
    (·.givenId)).Nodup
  different : n.key ≠ m.key
  tracked : ∀ k ∈ [n.key, m.key],
    k ∈ (Node.walkEach ((start.operateAll ops).tracer r).trackedNodes).map (·.key)
  ids : n.id? (start.operateAll ops).ids = some id ∧ m.id? (start.operateAll ops).ids = some id
  shown : ∀ k ∈ [n.key, m.key], ∃ arrival ∈ start.arrivals r (start.actionsAll ops),
    arrival.interceptor.map (·.node.key) = some k ∧
      arrival.event ∈ ((start.operateAll ops).tracer r).dump id

namespace Confused

def given : Node := ⟨⟨0⟩, "to", some "to1", []⟩

def made : Node := ⟨⟨1⟩, "to", none, []⟩

def children : List Node := (List.range 10).map fun k => ⟨⟨k + 3⟩, "to", none, []⟩

def group : Node := ⟨⟨2⟩, "group", some "g", children⟩

def digit : Node := ⟨⟨0⟩, "to1", none, []⟩

def other : Node := ⟨⟨0⟩, "to", none, []⟩

/-- A second tracer with a factory of its own. -/
def twoTracers : Engine :=
  (enabledTracer.newTracer { Config.default with enabled := true } none).1

end Confused

/-- A node was defined with the id that another one gets; the eleventh id for a label is the
first one for this label with a digit behind; a node was named by another tracer; a node was
given an id in passing. -/
theorem nodes_share_ids :
    enabledTracer.Confuses ⟨0⟩ (sendThrough ⟨0⟩ [Confused.given, Confused.made])
      Confused.given Confused.made "to1" ∧
    enabledTracer.Confuses ⟨0⟩
      (sendThrough ⟨0⟩ [Confused.group, Confused.digit, Confused.made])
      Confused.digit Confused.made "to11" ∧
    Confused.twoTracers.Confuses ⟨0⟩ (sendThrough ⟨1⟩ [Confused.made] ++
      sendThrough ⟨0⟩ [Confused.other, Confused.made]) Confused.other Confused.made "to1" ∧
    enabledTracer.Confuses ⟨0⟩ (.act (.initNodeId Confused.other "to1") ::
      sendThrough ⟨0⟩ [Confused.other, Confused.made]) Confused.other Confused.made "to1" := by
  refine ⟨⟨rfl, ?_, ?_, ?_, ?_, ?_⟩, ⟨rfl, ?_, ?_, ?_, ?_, ?_⟩, ⟨rfl, ?_, ?_, ?_, ?_, ?_⟩,
    ⟨rfl, ?_, ?_, ?_, ?_, ?_⟩⟩
  all_goals decide +kernel

end Engine

end TraceBacklog
