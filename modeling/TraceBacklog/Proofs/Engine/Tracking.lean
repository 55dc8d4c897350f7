/-
# What a tracer tracks

A tracer remembers the nodes that it was put in front of, one entry for each key. Putting it
in front of a node again replaces the entry, and tearing down one of the interceptors of a
node drops it, whatever other interceptors the node has. So the latest of these decides: a
node is tracked if it was put behind the tracer and nothing was torn down at it since
(`Engine.tracked_by_latest_mark`). Where every interceptor is torn down before the next one is
made this is to say that the node has one; with two interceptors at a node, the first of them
that goes takes the node along, and enabling the tracer gives no ids below it
(`Engine.untracked_behind_interceptor`).

Key definitions: `Mark`, `Action.mark?`, `marks`, `standing`, `OneByOne`.
Key theorems: `Engine.tracked_act`, `Engine.tracked_actAll`, `Engine.tracked_by_latest_mark`,
`Engine.untracked_behind_interceptor`.
-/
import Mathlib.Data.List.Basic
import Mathlib.Data.List.Induction
import TraceBacklog.Proofs.Engine.Naming
import TraceBacklog.Proofs.Engine.Shutdown
import TraceBacklog.Proofs.KeyMap

namespace TraceBacklog

namespace Tracer

/-- The keys of the nodes that a tracer tracks. -/
def trackedKeys (t : Tracer) : List NodeKey := t.tracked.nodes.map (·.key)

theorem length_trackedKeys (t : Tracer) : t.trackedKeys.length = t.tracked.size :=
  (List.length_map _).trans (List.length_map _)

theorem nodup_trackedKeys (t : Tracer) : t.trackedKeys.Nodup := by
  refine List.pairwise_map.mpr (t.tracked.ascending_nodes.imp fun {a b} hlt h => ?_)
  exact Nat.ne_of_lt hlt (congrArg NodeKey.index h)

theorem mem_trackedKeys {t : Tracer} {k : NodeKey} :
    k ∈ t.trackedKeys ↔ ∃ n, t.tracked.get? k = some n := by
  constructor
  · intro h
    obtain ⟨n, hn, rfl⟩ := List.mem_map.mp h
    exact ⟨n, Tracked.mem_nodes.mp hn⟩
  · rintro ⟨n, h⟩
    obtain rfl := Tracked.key_of_get? h
    exact List.mem_map_of_mem (Tracked.mem_nodes.mpr h)

end Tracer

/-! ### Marks -/

/-- Something that decides whether a node is tracked. -/
inductive Mark where
  /-- An interceptor is put in front of the node. -/
  | wrapped (n : Node)
  /-- An interceptor of the node is torn down. -/
  | stopped

/-- The node that is tracked from then on. -/
def Mark.node? : Mark → Option Node
  | .wrapped n => some n
  | .stopped => none

/-- What an action means for the node with this key. -/
def Action.mark? (r : TracerRef) (k : NodeKey) : Action → Option Mark
  | .track s n => if s = r ∧ n.key = k then some (.wrapped n) else none
  | .untrack s n => if s = r ∧ n.key = k then some .stopped else none
  | _ => none

/-- What happened to the node with this key. -/
def marks (r : TracerRef) (k : NodeKey) (actions : List Action) : List Mark :=
  actions.filterMap (·.mark? r k)

/-- The node, if it was put behind the tracer and nothing was torn down at it since. -/
def standing (marks : List Mark) : Option Node := marks.getLast?.bind Mark.node?

/-- The interceptors that were put in front of the node, and those that were torn down. -/
def interceptorsMade (marks : List Mark) : ℕ := marks.countP (·.node?.isSome)

def interceptorsTornDown (marks : List Mark) : ℕ := marks.countP (·.node?.isNone)

/-- Every interceptor was torn down before the next one was made. -/
def OneByOne : List Mark → Prop
  | [] => True
  | [.wrapped _] => True
  | .wrapped _ :: .stopped :: rest => OneByOne rest
  | _ => False

theorem standing_append_of_ne_nil (earlier : List Mark) {later : List Mark} (h : later ≠ []) :
    standing (earlier ++ later) = standing later := by
  rw [standing, standing, List.getLast?_append_of_ne_nil _ h]

/-- One by one, a node is standing if it has an interceptor. -/
theorem standing_iff_of_oneByOne {marks : List Mark} (h : OneByOne marks) :
    (∃ n, standing marks = some n) ↔ interceptorsTornDown marks < interceptorsMade marks := by
  induction marks using OneByOne.induct with
  | case1 => simp [standing, interceptorsMade, interceptorsTornDown]
  | case2 n => simp [standing, interceptorsMade, interceptorsTornDown, Mark.node?]
  | case3 n rest ih =>
    have hcounts : interceptorsTornDown (.wrapped n :: .stopped :: rest) =
        interceptorsTornDown rest + 1 ∧
        interceptorsMade (.wrapped n :: .stopped :: rest) = interceptorsMade rest + 1 := by
      simp [interceptorsTornDown, interceptorsMade, Mark.node?]
    rw [hcounts.1, hcounts.2, Nat.add_lt_add_iff_right, ← ih h]
    cases rest with
    | nil => simp [standing, Mark.node?]
    | cons mark rest =>
      have hlast : standing (.wrapped n :: .stopped :: mark :: rest) = standing (mark :: rest) :=
        standing_append_of_ne_nil [.wrapped n, .stopped] (List.cons_ne_nil mark rest)
      rw [hlast]
  | case4 marks hnil hone htwo =>
    rw [OneByOne] at h
    · exact h.elim
    all_goals assumption

/-! ### A shutdown stays -/

theorem Tracer.isShutDown_obey {t : Tracer} (h : t.isShutDown = true) (c : Command) :
    (t.obey c).isShutDown = true := by
  unfold obey
  rw [h, Bool.and_true]
  cases c with
  | backlog c => exact h
  | lossPolicy | captureFailures | trackedNodeCount | stats | state | describe => exact h
  | _ => exact h

namespace Engine

variable {e : Engine} {r : TracerRef}

/-- No action brings a tracer back. -/
theorem isShutDown_act (h : (e.tracer r).isShutDown = true) (a : Action) :
    ((e.act a).tracer r).isShutDown = true := by
  obtain ⟨c, rfl, hafter⟩ | ⟨n, rfl, hafter⟩ | ⟨n, rfl, hafter⟩ | ⟨-, -, hsame⟩ :=
    e.tracking_cases (lt_length_of_isShutDown h) a
  · rw [hafter]
    exact Tracer.isShutDown_obey h c
  · rw [hafter, Tracer.ifLive, if_pos h]
    exact h
  · rw [hafter, Tracer.untrack, if_pos h]
    exact h
  · rwa [hsame]

theorem isLive_of_act {a : Action} (h : ((e.act a).tracer r).isShutDown = false) :
    (e.tracer r).isShutDown = false := by
  by_contra hdown
  rw [isShutDown_act (eq_true_of_ne_false hdown) a] at h
  cases h

/-! ### The latest mark decides -/

theorem mark?_eq_none {a : Action} (h : ∀ n, a ≠ .track r n ∧ a ≠ .untrack r n) (k : NodeKey) :
    a.mark? r k = none := by
  unfold Action.mark?
  split
  · next s n =>
    refine if_neg ?_
    rintro ⟨rfl, -⟩
    exact (h n).1 rfl
  · next s n =>
    refine if_neg ?_
    rintro ⟨rfl, -⟩
    exact (h n).2 rfl
  · rfl

/-- **A live tracer tracks at a key what the mark says**, or what it tracked there before. -/
theorem tracked_act (hr : r.index < e.tracers.length) {a : Action}
    (hlive : ((e.act a).tracer r).isShutDown = false) (k : NodeKey) :
    ((e.act a).tracer r).tracked.get? k =
      (a.mark? r k).elim ((e.tracer r).tracked.get? k) Mark.node? := by
  have hbefore := isLive_of_act hlive
  have hkey (n : Node) : n.key = k ↔ r = r ∧ n.key = k := (and_iff_right rfl).symm
  obtain ⟨c, rfl, hafter⟩ | ⟨n, rfl, hafter⟩ | ⟨n, rfl, hafter⟩ | ⟨hnone, hsame, -⟩ :=
    e.tracking_cases hr a
  · rw [hafter] at hlive ⊢
    have hc : c ≠ .shutDown := by
      rintro rfl
      rw [Tracer.obey, hbefore] at hlive
      cases hlive
    rw [Tracer.tracked_obey _ hc]
    rfl
  · rw [hafter, Tracer.ifLive, hbefore, if_neg Bool.false_ne_true, Action.mark?]
    show ((e.tracer r).tracked.insert n).get? k = _
    rw [Tracked.get?_insert, if_congr (hkey n) rfl rfl]
    split <;> rfl
  · rw [hafter, Tracer.untrack, hbefore, if_neg Bool.false_ne_true, Action.mark?]
    show ((e.tracer r).tracked.erase n).get? k = _
    rw [Tracked.get?_erase, if_congr (hkey n) rfl rfl]
    split <;> rfl
  · rw [hsame, mark?_eq_none hnone]
    rfl

/-- A tracer that tracks nothing at first and is live at last tracks what the latest marks
say. -/
theorem tracked_actAll (hr : r.index < e.tracers.length) (htracked : (e.tracer r).tracked = .empty)
    {actions : List Action} (hlive : ((e.actAll actions).tracer r).isShutDown = false)
    (k : NodeKey) :
    ((e.actAll actions).tracer r).tracked.get? k = standing (marks r k actions) := by
  induction actions using List.reverseRecOn with
  | nil =>
    rw [actAll_nil, htracked]
    rfl
  | append_singleton before a ih =>
    rw [actAll_append, actAll_cons, actAll_nil] at hlive ⊢
    have hr' : r.index < (e.actAll before).tracers.length :=
      hr.trans_le (e.length_tracers_le_actAll before)
    have hmarks : marks r k (before ++ [a]) = marks r k before ++ (a.mark? r k).toList :=
      List.filterMap_append.trans (congrArg _ (by cases h : a.mark? r k <;> simp [h]))
    rw [tracked_act hr' hlive, ih (isLive_of_act hlive), hmarks]
    cases a.mark? r k with
    | none => rw [Option.toList_none, List.append_nil, Option.elim_none]
    | some mark =>
      rw [Option.toList_some, Option.elim_some, standing, List.getLast?_concat]
      rfl

/-- Enabling a live tracer names what it tracks and all nodes below. -/
theorem hasId_enable (hlive : (e.tracer r).isShutDown = false) {n m : Node}
    (hn : n ∈ (e.tracer r).trackedNodes) (hm : m ∈ n.walk) :
    m.hasId (e.perform r (.setEnabled true)).1.ids = true := by
  show m.hasId (e.setEnabled r true).1.ids = true
  rw [ids_setEnabled_of_enable hlive]
  exact hasId_nameNodes e _ hn hm

/-- It names no other node. -/
theorem id?_enable_of_ne (hlive : (e.tracer r).isShutDown = false) {m : Node}
    (hm : ∀ n ∈ (e.tracer r).trackedNodes, ∀ below ∈ n.walk, below.key ≠ m.key) :
    m.id? (e.perform r (.setEnabled true)).1.ids = m.id? e.ids := by
  show m.id? (e.setEnabled r true).1.ids = _
  rw [ids_setEnabled_of_enable hlive, ids_nameNodes, Node.walkEach_eq_flatMap]
  refine Node.id?_nameList_of_ne _ _ fun below hbelow => ?_
  obtain ⟨n, hn, hwalk⟩ := List.mem_flatMap.mp hbelow
  exact hm n hn below hwalk

/-- **The latest mark decides what is tracked.** Let a tracer be made, and not be shut down at
the end of a run. Then a node is tracked if and only if an interceptor was put in front of it
and none was torn down at it since; if they were made one by one, if and only if it has one.
The tracer counts these nodes; and enabling it gives ids to them and to all nodes below them,
and to no other node. -/
theorem tracked_by_latest_mark {made : Engine} {config : Config} {f : Option FactoryRef}
    (hnew : e.newTracer config f = (made, .ok r)) {ops : List Operation}
    (hlive : ((made.operateAll ops).tracer r).isShutDown = false) :
    let actions := made.actionsAll ops
    let now := made.operateAll ops
    let enabled := (now.perform r (.setEnabled true)).1
    (∀ k, (now.tracer r).tracked.get? k = standing (marks r k actions)) ∧
    (∀ k, OneByOne (marks r k actions) → ((now.tracer r).tracked.contains k = true ↔
      interceptorsTornDown (marks r k actions) < interceptorsMade (marks r k actions))) ∧
    (∃ keys : List NodeKey, keys.Nodup ∧
      (∀ k, k ∈ keys ↔ ∃ n, standing (marks r k actions) = some n) ∧
      now.perform r .trackedNodeCount = (now, .ok (.count keys.length))) ∧
    (∀ k n, standing (marks r k actions) = some n → ∀ m ∈ n.walk, m.hasId enabled.ids = true) ∧
    ∀ m : Node, (∀ k n, standing (marks r k actions) = some n → ∀ below ∈ n.walk,
      below.key ≠ m.key) → m.id? enabled.ids = m.id? now.ids := by
  intro actions now enabled
  obtain ⟨hr, factory, hfresh⟩ := tracer_of_newTracer_eq hnew
  have hnow : now = made.actAll actions := made.operateAll_eq_actAll ops
  have htracked : ∀ k, (now.tracer r).tracked.get? k = standing (marks r k actions) := by
    intro k
    rw [hnow]
    refine tracked_actAll hr (by rw [hfresh]; rfl) ?_ k
    rwa [← hnow]
  have hnodes {n : Node} (hn : n ∈ (now.tracer r).trackedNodes) :
      ∃ k, standing (marks r k actions) = some n := by
    exact ⟨n.key, (htracked n.key).symm.trans (Tracked.mem_nodes.mp hn)⟩
  have hkeys : ∀ k, k ∈ (now.tracer r).trackedKeys ↔ ∃ n, standing (marks r k actions) = some n := by
    intro k
    rw [← htracked]
    exact Tracer.mem_trackedKeys
  have hcount : now.perform r .trackedNodeCount =
      (now, .ok (.count (now.tracer r).trackedKeys.length)) := by
    rw [Tracer.length_trackedKeys]
    rfl
  refine ⟨htracked, fun k hk => ?_, ⟨_, (now.tracer r).nodup_trackedKeys, hkeys, hcount⟩,
    fun k n hk m hm => ?_, fun m hm => ?_⟩
  · rw [Tracked.contains, htracked, Option.isSome_iff_exists]
    exact standing_iff_of_oneByOne hk
  · have hget := (htracked k).trans hk
    obtain rfl := Tracked.key_of_get? hget
    exact hasId_enable hlive (Tracked.mem_nodes.mpr hget) hm
  · refine id?_enable_of_ne hlive fun n hn => ?_
    obtain ⟨k, hk⟩ := hnodes hn
    exact hm k n hk

namespace Rebuilt

def log : Node := ⟨⟨1⟩, "log", none, []⟩

def filter : Node := ⟨⟨0⟩, "filter", some "f", [log]⟩

def route : Route := ⟨none, [⟨filter, .leaf none []⟩]⟩

def made : Engine := ((initial .epoch).newTracer .default none).1

def build : Operation := .build [.trace ⟨0⟩] route

/-- What each build of the route gives is torn down. -/
def stop : Operation := .stop (.pipeline (route.stages [.trace ⟨0⟩]))

end Rebuilt

/-- A route is torn down and built again: its node is tracked, and the node below it gets an id
when the tracer is enabled. -/
theorem tracked_by_latest_mark_rebuilt :
    let now := Rebuilt.made.operateAll [Rebuilt.build, Rebuilt.stop, Rebuilt.build]
    (initial .epoch).newTracer .default none = (Rebuilt.made, .ok ⟨0⟩) ∧
    (now.tracer ⟨0⟩).isShutDown = false ∧
    (now.tracer ⟨0⟩).tracked.get? ⟨0⟩ = some Rebuilt.filter ∧
    Rebuilt.log.hasId (now.perform ⟨0⟩ (.setEnabled true)).1.ids = true := by
  intro now
  have hnew : (initial .epoch).newTracer .default none = (Rebuilt.made, .ok ⟨0⟩) := rfl
  have hlive : (now.tracer ⟨0⟩).isShutDown = false := rfl
  have hstanding : standing (marks ⟨0⟩ ⟨0⟩
      (Rebuilt.made.actionsAll [Rebuilt.build, Rebuilt.stop, Rebuilt.build])) =
      some Rebuilt.filter := rfl
  have hbelow : Rebuilt.log ∈ Rebuilt.filter.walk := by
    simp [Rebuilt.filter, Rebuilt.log, Node.walk, Node.walkEach]
  obtain ⟨htracked, -, -, hnamed, -⟩ := tracked_by_latest_mark hnew hlive
  exact ⟨hnew, hlive, (htracked ⟨0⟩).trans hstanding, hnamed ⟨0⟩ _ hstanding _ hbelow⟩

/-- A route is built twice and what the first build gave is torn down: two interceptors were
made, one of them was torn down, no node is tracked, and the node below gets no id when the
tracer is enabled. -/
theorem untracked_behind_interceptor :
    let ops := [Rebuilt.build, Rebuilt.build, Rebuilt.stop]
    let now := Rebuilt.made.operateAll ops
    (now.tracer ⟨0⟩).isShutDown = false ∧
    marks ⟨0⟩ Rebuilt.filter.key (Rebuilt.made.actionsAll ops) =
      [.wrapped Rebuilt.filter, .wrapped Rebuilt.filter, .stopped] ∧
    now.perform ⟨0⟩ .trackedNodeCount = (now, .ok (.count 0)) ∧
    Rebuilt.log.id? (now.perform ⟨0⟩ (.setEnabled true)).1.ids = none :=
  ⟨rfl, rfl, rfl, rfl⟩

end Engine

end TraceBacklog
