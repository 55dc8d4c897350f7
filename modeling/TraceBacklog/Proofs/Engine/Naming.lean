/-
# Nodes that are tracked have ids

Events are looked up by the id of a node. So while a tracer is enabled, every node that it
tracks and every node below it has an id (`Engine.TrackedNamed`). Three operations give ids:
enabling the tracer and tracking a node while it is enabled name whole trees, and a capture
names its node and nothing below it. The invariant needs only the first two; of all
operations it needs that an id which a node has is never lost (`Engine.keptBy_act`).

Naming trees is naming their nodes one after the other, in the order in which a walk through
the trees meets them (`Node.nameEach_eq_nameList`). What is to be said of it is said of lists.

Key definitions: `Node.walk`, `IdTable.KeptBy`, `Engine.TrackedNamed`.
Key theorems: `Node.nameEach_eq_nameList`, `Engine.keptBy_act`, `Tracked.mem_nodes`,
`Engine.trackedNamed_act`, `Engine.tracked_named_while_enabled`.
-/
import TraceBacklog.Proofs.Engine.Run
import TraceBacklog.Proofs.KeyMap

namespace TraceBacklog

/-! ### Walks -/

namespace Node

mutual

/-- A node and all nodes below it: a node before its children, children in order. -/
def walk : Node → List Node
  | ⟨key, label, givenId, children⟩ => ⟨key, label, givenId, children⟩ :: walkEach children

/-- The walks through nodes, one after the other. -/
def walkEach : List Node → List Node
  | [] => []
  | n :: rest => n.walk ++ walkEach rest

end

theorem walkEach_eq_flatMap (nodes : List Node) : walkEach nodes = nodes.flatMap walk := by
  induction nodes with
  | nil => rfl
  | cons n rest ih => rw [walkEach, ih, List.flatMap_cons]

/-- Names the nodes of a list one after the other. -/
def nameList (f : IdFactory) (t : IdTable) (nodes : List Node) : IdFactory × IdTable :=
  nodes.foldl (fun s n => n.name s.1 s.2) (f, t)

theorem nameList_cons (f : IdFactory) (t : IdTable) (n : Node) (rest : List Node) :
    nameList f t (n :: rest) = nameList (n.name f t).1 (n.name f t).2 rest := rfl

theorem nameList_append (f : IdFactory) (t : IdTable) (first rest : List Node) :
    nameList f t (first ++ rest) =
      nameList (nameList f t first).1 (nameList f t first).2 rest := List.foldl_append

mutual

theorem nameAll_eq_nameList (f : IdFactory) (t : IdTable) :
    ∀ n : Node, n.nameAll f t = nameList f t n.walk
  | ⟨key, label, givenId, children⟩ => by
    rw [nameAll, walk, nameList_cons]
    exact nameEach_eq_nameList _ _ children

/-- Naming trees names the nodes of the walks through them. -/
theorem nameEach_eq_nameList (f : IdFactory) (t : IdTable) :
    ∀ nodes : List Node, nameEach f t nodes = nameList f t (walkEach nodes)
  | [] => by
    rw [nameEach, walkEach]
    rfl
  | n :: rest => by
    rw [nameEach, walkEach, nameList_append, ← nameAll_eq_nameList f t n]
    exact nameEach_eq_nameList _ _ rest

end

end Node

/-! ### Ids stay -/

/-- Every id that a node has in the first table it has in the second one as well. -/
def IdTable.KeptBy (t t' : IdTable) : Prop :=
  ∀ (n : Node) id, n.id? t = some id → n.id? t' = some id

namespace IdTable.KeptBy

variable {t t' t'' : IdTable}

theorem refl (t : IdTable) : t.KeptBy t := fun _ _ h => h

theorem trans (h : t.KeptBy t') (h' : t'.KeptBy t'') : t.KeptBy t'' :=
  fun n id hid => h' n id (h n id hid)

theorem hasId (h : t.KeptBy t') {n : Node} (hn : n.hasId t = true) : n.hasId t' = true := by
  obtain ⟨id, hid⟩ := Option.isSome_iff_exists.mp hn
  exact Option.isSome_iff_exists.mpr ⟨id, h n id hid⟩

end IdTable.KeptBy

theorem IdTable.keptBy_assign (t : IdTable) (k : NodeKey) (id : String) :
    t.KeptBy (t.assign k id) := by
  intro n id' h
  unfold Node.id? at h ⊢
  cases hg : n.givenId with
  | some given => rwa [hg] at h
  | none =>
    rw [hg] at h
    exact get?_assign_of_some h

theorem IdTable.get?_assign_of_ne {t : IdTable} {k k' : NodeKey} (h : k ≠ k') (id : String) :
    (t.assign k id).get? k' = t.get? k' := by
  unfold assign
  split
  · rfl
  · exact if_neg h

namespace Node

theorem keptBy_name (n : Node) (f : IdFactory) (t : IdTable) : t.KeptBy (n.name f t).2 := by
  unfold name
  cases n.id? t with
  | some id => exact .refl t
  | none => exact t.keptBy_assign _ _

theorem keptBy_initId (n : Node) (id : String) (t : IdTable) : t.KeptBy (n.initId id t) := by
  unfold initId
  cases n.id? t with
  | some id => exact .refl t
  | none => exact t.keptBy_assign _ _

theorem keptBy_nameList (f : IdFactory) (t : IdTable) (nodes : List Node) :
    t.KeptBy (nameList f t nodes).2 := by
  induction nodes generalizing f t with
  | nil => exact .refl t
  | cons n rest ih => exact (n.keptBy_name f t).trans (ih _ _)

/-- Only nodes that are named get ids. -/
theorem id?_nameList_of_ne (f : IdFactory) (t : IdTable) {nodes : List Node} {m : Node}
    (h : ∀ n ∈ nodes, n.key ≠ m.key) : m.id? (nameList f t nodes).2 = m.id? t := by
  induction nodes generalizing f t with
  | nil => rfl
  | cons n rest ih =>
    have hname : m.id? (n.name f t).2 = m.id? t := by
      unfold name
      cases n.id? t with
      | some id => rfl
      | none =>
        have hne := h n List.mem_cons_self
        unfold id?
        cases m.givenId with
        | some given => rfl
        | none => exact IdTable.get?_assign_of_ne hne _
    rw [nameList_cons, ih _ _ fun k hk => h k (List.mem_cons_of_mem _ hk), hname]

/-- Nodes that were named have ids. -/
theorem hasId_nameList (f : IdFactory) (t : IdTable) {nodes : List Node} {n : Node}
    (hn : n ∈ nodes) : n.hasId (nameList f t nodes).2 = true := by
  induction nodes generalizing f t with
  | nil => cases hn
  | cons m rest ih =>
    rw [nameList_cons]
    rcases List.mem_cons.mp hn with rfl | hn
    · exact (keptBy_nameList _ _ rest).hasId (n.hasId_name f t)
    · exact ih _ _ hn

end Node

namespace Engine

variable (e : Engine)

theorem ids_nameNodes (f : FactoryRef) (nodes : List Node) :
    (e.nameNodes f nodes).ids = (Node.nameList (e.factory f) e.ids (Node.walkEach nodes)).2 := by
  rw [nameNodes, Node.nameEach_eq_nameList]

theorem keptBy_nameNodes (f : FactoryRef) (nodes : List Node) :
    e.ids.KeptBy (e.nameNodes f nodes).ids := by
  rw [ids_nameNodes]
  exact Node.keptBy_nameList _ _ _

theorem hasId_nameNodes (f : FactoryRef) {nodes : List Node} {n m : Node} (hn : n ∈ nodes)
    (hm : m ∈ n.walk) : m.hasId (e.nameNodes f nodes).ids = true := by
  rw [ids_nameNodes, Node.walkEach_eq_flatMap]
  exact Node.hasId_nameList _ _ (List.mem_flatMap.mpr ⟨n, hn, hm⟩)

theorem keptBy_withUsable {α : Type} {e : Engine} {r : TracerRef}
    {act : Tracer → Engine × Except Stop α} (h : e.ids.KeptBy (act (e.tracer r)).1.ids) :
    e.ids.KeptBy (e.withUsable r act).1.ids := by
  unfold withUsable
  split
  · exact .refl _
  · exact h

theorem keptBy_track (r : TracerRef) (n : Node) : e.ids.KeptBy (e.track r n).1.ids := by
  refine keptBy_withUsable ?_
  dsimp only
  split
  · exact (e.modifyTracer r (·.track n)).keptBy_nameNodes _ [n]
  · exact .refl _

theorem ids_setEnabled_of_enable {e : Engine} {r : TracerRef}
    (h : (e.tracer r).isShutDown = false) :
    (e.setEnabled r true).1.ids =
      (e.nameNodes (e.tracer r).factory (e.tracer r).trackedNodes).ids := by
  unfold setEnabled useTracer withUsable
  rw [if_neg (h ▸ Bool.false_ne_true)]
  dsimp only
  split <;> rfl

theorem keptBy_enable (r : TracerRef) : e.ids.KeptBy (e.setEnabled r true).1.ids := by
  cases hdown : (e.tracer r).isShutDown with
  | true =>
    rw [setEnabled, useTracer, withUsable_of_isShutDown hdown]
    exact .refl _
  | false =>
    rw [ids_setEnabled_of_enable hdown]
    exact e.keptBy_nameNodes _ _

/-- Of all commands only one that enables a tracer does anything but to change tracers and to
report. -/
theorem perform_keeps {α : Type} (keep : Engine → α)
    (htracers : ∀ (e : Engine) (tracers : List Tracer), keep { e with tracers := tracers } = keep e)
    (hjournal : ∀ (e : Engine) (journal : List Entry), keep { e with journal := journal } = keep e)
    (r : TracerRef) {c : Command} (hc : c ≠ .setEnabled true) :
    keep (e.perform r c).1 = keep e := by
  have husable {β : Type} (act : Tracer → Engine × Except Stop β) (f : β → Reply)
      (h : keep (act (e.tracer r)).1 = keep e) :
      keep (answer f (e.withUsable r act)).1 = keep e := by
    rw [fst_answer]
    unfold withUsable
    split
    · rfl
    · exact h
  have hreported (f : Tracer → Tracer) (entry : Entry) :
      keep ((e.modifyTracer r f).log entry) = keep e := (hjournal _ _).trans (htracers _ _)
  cases c with
  | setEnabled enabled =>
    cases enabled with
    | true => exact absurd rfl hc
    | false =>
      refine husable _ _ ?_
      dsimp only
      split
      · exact htracers e _
      · exact hreported _ _
  | setBacklogSize size =>
    refine husable _ _ ?_
    dsimp only
    split
    · exact hreported _ _
    · rfl
  | lossPolicy | captureFailures | trackedNodeCount | stats | state | describe => rfl
  | backlog c => exact htracers e _
  | setLossPolicy policy => exact husable _ _ (htracers e _)
  | resetTraceCounter => exact husable _ _ (htracers e _)
  | dumpAll => exact husable _ _ (htracers e _)
  | start => exact husable _ _ (hreported _ _)
  | stop => exact husable _ _ (hreported _ _)
  | shutDown => exact husable _ _ (hreported _ _)
  | isEnabled | backlogSize | traceCounter | dump id | latest id => exact husable _ _ rfl

theorem ids_perform (r : TracerRef) {c : Command} (hc : c ≠ .setEnabled true) :
    (e.perform r c).1.ids = e.ids :=
  e.perform_keeps (·.ids) (fun _ _ => rfl) (fun _ _ => rfl) r hc

theorem keptBy_perform (r : TracerRef) (c : Command) : e.ids.KeptBy (e.perform r c).1.ids := by
  by_cases hc : c = .setEnabled true
  · subst hc
    exact e.keptBy_enable r
  · rw [e.ids_perform r hc]
    exact .refl _

theorem keptBy_enter (i : Interceptor) (x : Exchange) : e.ids.KeptBy (e.enter i x).ids := by
  unfold enter
  split
  · exact fun n id h => id?_capture_of_some h i x
  · exact .refl _

/-- **An id stays.** Whatever is done, a node that has an id keeps it. -/
theorem keptBy_act (a : Action) : e.ids.KeptBy (e.act a).ids := by
  cases a with
  | enter i x => exact e.keptBy_enter i x
  | perform r c => exact e.keptBy_perform r c
  | track r n => exact e.keptBy_track r n
  | newTracer c f =>
    have hids : (e.newTracer c f).1.ids = e.ids := by
      unfold newTracer
      cases f <;> dsimp only <;> split <;> rfl
    rw [act, hids]
    exact .refl _
  | visit name kind =>
    cases name <;> exact .refl _
  | nameNode f n => exact e.keptBy_nameNodes f [n]
  | initNodeId n id => exact n.keptBy_initId id e.ids
  | _ => exact .refl _

theorem keptBy_actAll (actions : List Action) : e.ids.KeptBy (e.actAll actions).ids := by
  induction actions generalizing e with
  | nil => exact .refl _
  | cons a rest ih => exact (e.keptBy_act a).trans (ih _)

end Engine

/-! ### The invariant -/

namespace Tracked

/-- Nodes that stand where their keys do are listed in the order of their keys. -/
theorem ascending_nodes (m : Tracked) : m.nodes.Pairwise (·.key.index < ·.key.index) := by
  refine List.pairwise_map.mpr (m.byIndex.ascending.imp_of_mem fun ha hb hlt => ?_)
  rw [← m.keyed _ ha, ← m.keyed _ hb]
  exact hlt

theorem key_of_get? {m : Tracked} {k : NodeKey} {n : Node} (h : m.get? k = some n) : n.key = k :=
  (index_eq_iff.mp (m.keyed _ (KeyMap.mem_entries.mpr h))).symm

/-- What is listed is what stands at its key. -/
theorem mem_nodes {m : Tracked} {n : Node} : n ∈ m.nodes ↔ m.get? n.key = some n := by
  constructor
  · intro h
    obtain ⟨⟨index, n⟩, hentry, rfl⟩ := List.mem_map.mp h
    obtain rfl : index = n.key.index := m.keyed _ hentry
    exact KeyMap.mem_entries.mp hentry
  · intro h
    exact List.mem_map.mpr ⟨_, KeyMap.mem_entries.mpr h, rfl⟩

theorem eq_of_get? {m m' : Tracked} (h : ∀ k, m.get? k = m'.get? k) : m = m' := by
  have hsame : m.byIndex = m'.byIndex := KeyMap.eq_of_get? fun index => h ⟨index⟩
  cases m
  cases m'
  cases hsame
  rfl

end Tracked

namespace Tracer

theorem mem_trackedNodes_track {t : Tracer} {n m : Node} (h : m ∈ (t.track n).trackedNodes) :
    m = n ∨ m ∈ t.trackedNodes := by
  have hget := (t.tracked.get?_insert n m.key).symm.trans (Tracked.mem_nodes.mp h)
  split at hget
  · exact .inl (Option.some.inj hget).symm
  · exact .inr (Tracked.mem_nodes.mpr hget)

theorem mem_trackedNodes_of_untrack {t : Tracer} {n m : Node}
    (h : m ∈ (t.untrack n).trackedNodes) : m ∈ t.trackedNodes := by
  unfold untrack at h
  split at h
  · exact h
  · have hget := (t.tracked.get?_erase n m.key).symm.trans (Tracked.mem_nodes.mp h)
    split at hget
    · cases hget
    · exact Tracked.mem_nodes.mpr hget

/-- Only a shutdown changes what a tracer tracks, of all that it can be asked. -/
theorem tracked_obey (t : Tracer) {c : Command} (hc : c ≠ .shutDown) :
    (t.obey c).tracked = t.tracked := by
  unfold obey
  split
  · rfl
  · cases c with
    | shutDown => exact absurd rfl hc
    | setBacklogSize size =>
      rw [apply]
      split <;> rfl
    | _ => rfl

theorem mem_trackedNodes_of_obey {t : Tracer} {c : Command} {n : Node}
    (h : n ∈ (t.obey c).trackedNodes) : n ∈ t.trackedNodes := by
  by_cases hc : c = .shutDown
  · subst hc
    unfold obey at h
    split at h
    · exact h
    · cases h
  · rwa [trackedNodes, t.tracked_obey hc] at h

/-- If the one is enabled the other is, and tracks what the one tracks. -/
def Covers (t t' : Tracer) : Prop :=
  t'.enabled = true → t.enabled = true ∧ ∀ n ∈ t'.trackedNodes, n ∈ t.trackedNodes

theorem Covers.of_eq {t t' : Tracer} (henabled : t'.enabled = t.enabled)
    (htracked : t'.tracked = t.tracked) : t.Covers t' := fun h =>
  ⟨henabled ▸ h, fun n hn => by rwa [trackedNodes, htracked] at hn⟩

theorem covers_untrack (t : Tracer) (n : Node) : t.Covers (t.untrack n) := by
  refine fun h => ⟨?_, fun m hm => mem_trackedNodes_of_untrack hm⟩
  unfold untrack at h
  split at h <;> exact h

/-- Only one command makes a tracer enabled, and none makes it track more nodes. -/
theorem covers_obey (t : Tracer) {c : Command} (hc : c ≠ .setEnabled true) :
    t.Covers (t.obey c) := by
  unfold obey
  split
  · exact .of_eq rfl rfl
  · cases c with
    | setEnabled enabled =>
      cases enabled with
      | true => exact absurd rfl hc
      | false => exact fun h => Bool.noConfusion h
    | setBacklogSize size =>
      by_cases hs : 0 < size.toInt
      · rw [apply, if_pos hs]
        exact .of_eq rfl rfl
      · rw [apply, if_neg hs]
        exact .of_eq rfl rfl
    | shutDown => exact fun h => Bool.noConfusion h
    | _ => exact .of_eq rfl rfl

end Tracer

namespace Engine

/-- While the tracer is enabled, the nodes that it tracks and all nodes below them have ids. -/
def TrackedNamed (e : Engine) (r : TracerRef) : Prop :=
  (e.tracer r).enabled = true →
    ∀ n ∈ (e.tracer r).trackedNodes, ∀ m ∈ n.walk, m.hasId e.ids = true

variable {e e' : Engine} {r : TracerRef}

theorem TrackedNamed.of_covers (h : e.TrackedNamed r) (ht : (e.tracer r).Covers (e'.tracer r))
    (hids : e.ids.KeptBy e'.ids) : e'.TrackedNamed r := fun henabled n hn m hm =>
  hids.hasId (h (ht henabled).1 n ((ht henabled).2 n hn) m hm)

theorem TrackedNamed.of_tracer_eq (h : e.TrackedNamed r) (ht : e'.tracer r = e.tracer r)
    (hids : e.ids.KeptBy e'.ids) : e'.TrackedNamed r :=
  h.of_covers (.of_eq (by rw [ht]) (by rw [ht])) hids

/-- A node that is tracked from now on is named with all that is below it. -/
theorem TrackedNamed.track (hr : r.index < e.tracers.length) (h : e.TrackedNamed r) (n : Node) :
    (e.track r n).1.TrackedNamed r := by
  have hkept := e.keptBy_track r n
  cases hdown : (e.tracer r).isShutDown with
  | true =>
    rw [Engine.track, useTracer, withUsable_of_isShutDown hdown]
    exact h
  | false =>
    have htracer : (e.track r n).1.tracer r = (e.tracer r).track n := by
      rw [tracer_congr (e.tracers_track r n), tracer_modifyTracer_self _ hr, Tracer.ifLive,
        if_neg (hdown ▸ Bool.false_ne_true)]
    intro henabled m hm k hk
    rw [htracer] at henabled hm
    have hlive : (e.tracer r).enabled = true := henabled
    rcases Tracer.mem_trackedNodes_track hm with rfl | hm
    · have hids : (e.track r m).1.ids =
          ((e.modifyTracer r (·.track m)).nameNodes (e.tracer r).factory [m]).ids := by
        rw [Engine.track, useTracer, withUsable, if_neg (hdown ▸ Bool.false_ne_true)]
        dsimp only
        rw [if_pos hlive]
        rfl
      rw [hids]
      exact hasId_nameNodes _ _ List.mem_cons_self hk
    · exact hkept.hasId (h hlive m hm k hk)

/-- Enabling names all tracked nodes, whatever had ids before. -/
theorem trackedNamed_enable (hr : r.index < e.tracers.length) (h : e.TrackedNamed r) :
    (e.perform r (.setEnabled true)).1.TrackedNamed r := by
  cases hdown : (e.tracer r).isShutDown with
  | true =>
    show (e.setEnabled r true).1.TrackedNamed r
    rw [setEnabled, useTracer, withUsable_of_isShutDown hdown]
    exact h
  | false =>
    have htracer := tracer_perform_self (.setEnabled true) hr
    rw [Tracer.obey, hdown] at htracer
    intro henabled n hn m hm
    rw [htracer] at hn
    show m.hasId (e.setEnabled r true).1.ids = true
    rw [ids_setEnabled_of_enable hdown]
    exact hasId_nameNodes e _ hn hm

/-- One action keeps the nodes of a tracer named. -/
theorem trackedNamed_act (hr : r.index < e.tracers.length) (h : e.TrackedNamed r) (a : Action) :
    (e.act a).TrackedNamed r := by
  have hids := e.keptBy_act a
  cases a with
  | enter i x =>
    refine h.of_covers (.of_eq ?_ ?_) hids
    · exact tracer_enter_keeps (·.enabled) (fun _ _ => rfl) (fun _ _ => rfl) (fun _ _ => rfl) ..
    · exact tracer_enter_keeps (·.tracked) (fun _ _ => rfl) (fun _ _ => rfl) (fun _ _ => rfl) ..
  | perform s c =>
    by_cases hs : s = r
    · subst hs
      by_cases hc : c = .setEnabled true
      · subst hc
        exact trackedNamed_enable hr h
      · refine h.of_covers ?_ hids
        rw [act, tracer_perform_self c hr]
        exact (e.tracer s).covers_obey hc
    · exact h.of_tracer_eq (tracer_perform_of_ne e c hs) hids
  | track s n =>
    by_cases hs : s = r
    · subst hs
      exact h.track hr n
    · refine h.of_tracer_eq ?_ hids
      rw [act, tracer_congr (e.tracers_track s n)]
      exact tracer_modifyTracer_of_ne e _ hs
  | untrack s n =>
    by_cases hs : s = r
    · subst hs
      refine h.of_covers ?_ hids
      rw [act, Engine.untrack, tracer_modifyTracer_self _ hr]
      exact (e.tracer s).covers_untrack n
    · exact h.of_tracer_eq (tracer_modifyTracer_of_ne e _ hs) hids
  | newTracer c f => exact h.of_tracer_eq (tracer_newTracer_of_lt hr c f) hids
  | visit name kind => exact h.of_tracer_eq (tracer_congr (e.tracers_visit name kind) r) hids
  | _ => exact h.of_tracer_eq rfl hids

theorem trackedNamed_actAll (hr : r.index < e.tracers.length) (h : e.TrackedNamed r)
    (actions : List Action) : (e.actAll actions).TrackedNamed r := by
  induction actions generalizing e with
  | nil => exact h
  | cons a rest ih =>
    exact ih (hr.trans_le (e.length_tracers_le_act a)) (trackedNamed_act hr h a)

/-- **While a tracer is enabled its nodes can be looked up.** After any run from the making of
a tracer, whatever it was configured to: if the tracer is enabled, every node that it tracks
has an id, and so has every node below it. -/
theorem tracked_named_while_enabled {made : Engine} {config : Config} {f : Option FactoryRef}
    (hnew : e.newTracer config f = (made, .ok r)) (ops : List Operation) :
    let now := made.operateAll ops
    (now.tracer r).enabled = true →
      ∀ n ∈ (now.tracer r).trackedNodes, ∀ m ∈ n.walk, ∃ id, m.id? now.ids = some id := by
  intro now henabled n hn m hm
  obtain ⟨hr, factory, hfresh⟩ := tracer_of_newTracer_eq hnew
  have hmade : made.TrackedNamed r := fun _ n hn => by
    rw [hfresh] at hn
    cases hn
  have hnow : now.TrackedNamed r := by
    show (made.operateAll ops).TrackedNamed r
    rw [operateAll_eq_actAll]
    exact trackedNamed_actAll hr hmade _
  exact Option.isSome_iff_exists.mp (hnow henabled n hn m hm)

namespace Nested

def empty : Engine := ((initial .epoch).newFactory .fresh).1

def made : Engine := (empty.newTracer .default (some ⟨0⟩)).1

def deepest : Node := ⟨⟨2⟩, "log", none, []⟩

def choice : Node := ⟨⟨1⟩, "choice", none, [deepest]⟩

def filter : Node := ⟨⟨0⟩, "filter", none, [choice]⟩

/-- A filter is tracked before the tracer is enabled, and a node below it by itself. The
pipeline of the filter is torn down, then the filter is tracked again. -/
def run : List Operation := [
  .wrap none filter (.trace ⟨0⟩) (.leaf none []),
  .act (.track ⟨0⟩ choice),
  .act (.perform ⟨0⟩ (.setEnabled true)),
  .process (.traced (interceptor ⟨0⟩ none filter) (.leaf none [])) (.new "X1" .empty),
  .stop (.traced (interceptor ⟨0⟩ none filter) (.leaf none [])),
  .build [.trace ⟨0⟩] ⟨none, [⟨filter, .leaf none []⟩]⟩]

end Nested

/-- After this run the node two levels below the filter has an id. -/
theorem tracked_named_while_enabled_nested :
    let now := Nested.made.operateAll Nested.run
    Nested.empty.newTracer .default (some ⟨0⟩) = (Nested.made, .ok ⟨0⟩) ∧
    (now.tracer ⟨0⟩).enabled = true ∧ Nested.filter ∈ (now.tracer ⟨0⟩).trackedNodes ∧
    Nested.deepest ∈ Nested.filter.walk ∧ ∃ id, Nested.deepest.id? now.ids = some id := by
  intro now
  have hnew : Nested.empty.newTracer .default (some ⟨0⟩) = (Nested.made, .ok ⟨0⟩) := rfl
  have henabled : (now.tracer ⟨0⟩).enabled = true := rfl
  have hnodes : (now.tracer ⟨0⟩).trackedNodes = [Nested.filter, Nested.choice] := rfl
  have htracked : Nested.filter ∈ (now.tracer ⟨0⟩).trackedNodes := hnodes ▸ List.mem_cons_self
  have hbelow : Nested.deepest ∈ Nested.filter.walk := by
    simp [Nested.filter, Nested.choice, Nested.deepest, Node.walk, Node.walkEach]
  exact ⟨hnew, henabled, htracked, hbelow,
    tracked_named_while_enabled hnew Nested.run henabled _ htracked _ hbelow⟩

end Engine

end TraceBacklog
