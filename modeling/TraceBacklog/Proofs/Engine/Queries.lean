/-
# What queries answer

The size of a tracer is set by every call with a positive number and by no other
(`Engine.tracer_resizeAll`), and a number that is refused leaves the engine alone. The
events of an id are those of the backlog that name it, in their order; the current ones
are as many of the latest of these as the size says. Each event names one id, so the events
of all ids together are those of the backlog (`regroup_perm`).

Key theorems: `Engine.tracer_resizeAll`, `regroup_perm`, `Engine.queries_exact`.
-/
import Mathlib.Data.List.Dedup
import Mathlib.Data.List.Perm.Basic
import TraceBacklog.Proofs.Engine.Action

namespace TraceBacklog

/-- A list is regrouped by a property of its members. -/
theorem regroup_perm {α β : Type} [DecidableEq β] (f : α → β) {keys : List β}
    (hkeys : keys.Nodup) (l : List α) (hall : ∀ a ∈ l, f a ∈ keys) :
    (keys.flatMap fun k => l.filter fun a => f a = k).Perm l := by
  induction keys generalizing l with
  | nil =>
    have hnil : l = [] := List.eq_nil_iff_forall_not_mem.mpr fun a ha => by simpa using hall a ha
    rw [hnil]
    rfl
  | cons k keys ih =>
    obtain ⟨hk, hkeys⟩ := List.nodup_cons.1 hkeys
    -- the members of the other groups are the members outside of the first one
    have hothers : ∀ k' ∈ keys, l.filter (fun a => f a = k') =
        (l.filter fun a => !decide (f a = k)).filter fun a => f a = k' := by
      intro k' hk'
      rw [List.filter_filter]
      refine List.filter_congr fun a _ => ?_
      by_cases ha : f a = k'
      · have hne : f a ≠ k := fun h => hk (h ▸ ha ▸ hk')
        simp [ha, ha ▸ hne]
      · simp [ha]
    have hrest := ih hkeys (l.filter fun a => !decide (f a = k)) fun a ha => by
      have ha : a ∈ l ∧ f a ≠ k := by simpa using ha
      exact (List.mem_cons.1 (hall a ha.1)).resolve_left ha.2
    rw [List.flatMap_cons, List.flatMap_congr hothers]
    exact (hrest.append_left _).trans (List.filter_append_perm _ l)

namespace Engine

variable {e : Engine} {r : TracerRef}

/-! ### Setting the size -/

/-- A number that is no size is refused, and nothing changes. -/
theorem perform_resize_of_le (hlive : (e.tracer r).isShutDown = false) {size : Int64}
    (h : size.toInt ≤ 0) : e.perform r (.setBacklogSize size) =
      (e, .error (.failed (.invalidBacklogSize size))) := by
  rw [perform, setBacklogSize, withUsable_of_isLive hlive, if_neg (Int.not_lt.2 h)]
  rfl

/-- A positive number is the size from now on, and the only thing that changes. -/
theorem perform_resize_of_pos (hr : r.index < e.tracers.length)
    (hlive : (e.tracer r).isShutDown = false) {size : Int64} (h : 0 < size.toInt) :
    (e.perform r (.setBacklogSize size)).2 = .ok .done ∧
      (e.perform r (.setBacklogSize size)).1.tracer r =
        { e.tracer r with backlogSize := UInt64.ofNat size.toInt.toNat } := by
  refine ⟨?_, ?_⟩
  · rw [perform, setBacklogSize, withUsable_of_isLive hlive, if_pos h]
    rfl
  · rw [tracer_perform_self _ hr, Tracer.obey, hlive, Bool.and_false, if_neg Bool.false_ne_true,
      Tracer.apply, if_pos h]

/-- A positive number fits the word that keeps it. -/
theorem toNat_ofNat_size {size : Int64} (h : 0 < size.toInt) :
    ((UInt64.ofNat size.toInt.toNat).toNat : Int) = size.toInt := by
  have hlt : size.toInt < 2 ^ 63 := size.toInt_lt
  rw [UInt64.toNat_ofNat_of_lt' (by simp only [UInt64.size]; omega)]
  omega

/-- After any calls the size is the latest positive number, and the tracer is otherwise as it
was. -/
theorem tracer_resizeAll (hr : r.index < e.tracers.length)
    (hlive : (e.tracer r).isShutDown = false) (sizes : List Int64) :
    let now := e.actAll (sizes.map fun size => .perform r (.setBacklogSize size))
    r.index < now.tracers.length ∧
    ∃ current : UInt64, now.tracer r = { e.tracer r with backlogSize := current } ∧
      (current.toNat : Int) =
        ((sizes.map Int64.toInt).filter (0 < ·)).getLastD (e.tracer r).backlogSize.toNat := by
  induction sizes generalizing e with
  | nil => exact ⟨hr, _, rfl, rfl⟩
  | cons size sizes ih =>
    rw [List.map_cons, actAll_cons, act]
    by_cases hsize : 0 < size.toInt
    · obtain ⟨-, htracer⟩ := perform_resize_of_pos hr hlive hsize
      have hr' : r.index < (e.perform r (.setBacklogSize size)).1.tracers.length := by
        rwa [length_tracers_perform]
      obtain ⟨hlength, current, hcurrent, hlatest⟩ := ih hr' (by rw [htracer]; exact hlive)
      refine ⟨hlength, current, ?_, ?_⟩
      · rw [htracer] at hcurrent
        exact hcurrent
      · rw [htracer, toNat_ofNat_size hsize] at hlatest
        rw [hlatest, List.map_cons, List.filter_cons_of_pos (by simpa using hsize),
          List.getLastD_cons]
    · rw [perform_resize_of_le hlive (Int.not_lt.1 hsize), List.map_cons,
        List.filter_cons_of_neg (by simpa using hsize)]
      exact ih hr hlive

/-! ### The answers -/

/-- **Queries show the events of an id and change nothing.** Let a tracer be usable, with
whatever its backlog holds, and let its size be set by any calls. A number that is not positive
is refused and changes nothing; a positive one is the size afterwards. The events shown for an
id are those of the backlog that name it, in order, and the current ones are the last of these,
as many as the size says or all. Every event is shown for exactly one id, and all ids together
show each event once. -/
theorem queries_exact (hr : r.index < e.tracers.length)
    (hlive : (e.tracer r).isShutDown = false) (sizes : List Int64) :
    let now := e.actAll (sizes.map fun size => .perform r (.setBacklogSize size))
    let held := (e.tracer r).backlog.events
    let shown id := held.filter fun event => event.toNode = id
    (∀ size : Int64, size.toInt ≤ 0 → now.perform r (.setBacklogSize size) =
      (now, .error (.failed (.invalidBacklogSize size)))) ∧
    (∀ size : Int64, 0 < size.toInt →
      (now.perform r (.setBacklogSize size)).2 = .ok .done ∧
      ∃ current : UInt64, (current.toNat : Int) = size.toInt ∧
        (now.perform r (.setBacklogSize size)).1.tracer r =
          { now.tracer r with backlogSize := current }) ∧
    (∃ current : UInt64, now.tracer r = { e.tracer r with backlogSize := current } ∧
      (current.toNat : Int) =
        ((sizes.map Int64.toInt).filter (0 < ·)).getLastD (e.tracer r).backlogSize.toNat ∧
      ∀ id : String, now.perform r (.dump id) = (now, .ok (.events (shown id))) ∧
        ∃ latest, now.perform r (.latest id) = (now, .ok (.events latest)) ∧
          latest <:+ shown id ∧ latest.length = min current.toNat (shown id).length) ∧
    (∀ event ∈ held, ∃! id, event ∈ shown id) ∧
    ((held.map (·.toNode)).dedup.flatMap shown).Perm held := by
  intro now held shown
  obtain ⟨hlength, current, htracer, hcurrent⟩ := tracer_resizeAll hr hlive sizes
  have hlive' : (now.tracer r).isShutDown = false := by rw [htracer]; exact hlive
  refine ⟨fun size => perform_resize_of_le hlive', fun size hsize => ?_,
    ⟨current, htracer, hcurrent, fun id => ?_⟩, fun event hevent => ?_, ?_⟩
  · obtain ⟨hdone, hresized⟩ := perform_resize_of_pos hlength hlive' hsize
    exact ⟨hdone, _, toNat_ofNat_size hsize, hresized⟩
  · have hdump : (now.tracer r).dump id = shown id := by rw [htracer]; rfl
    refine ⟨hdump ▸ perform_dump hlive' id, _, perform_latest hlive' id, ?_, ?_⟩
    · rw [← hdump]
      exact List.drop_suffix _ _
    · rw [Tracer.latest, hdump, List.length_drop, htracer]
      simp only
      omega
  · refine ⟨event.toNode, by simpa [shown] using hevent, fun id hid => ?_⟩
    exact (by simpa [shown] using hid : event ∈ held ∧ event.toNode = id).2.symm
  · exact regroup_perm (·.toNode) (List.nodup_dedup _) held fun event hevent =>
      List.mem_dedup.2 (List.mem_map_of_mem hevent)

namespace Evicted

def event (number : UInt64) (node : String) : Event :=
  ⟨number, .epoch, none, node, false, ⟨"id", .empty, "empty", none⟩⟩

/-- A backlog of four events that was drained once and then had to give up its oldest event. -/
def engine : Engine :=
  ((initial .epoch).newTracer { Config.default with capacity := 4 } none).1.actAll
    ([.push (event 1 "a"), .drain, .push (event 2 "a"), .push (event 3 "b"),
      .push (event 4 "a"), .push (event 5 "a"), .push (event 6 "a")].map
        fun c => .perform ⟨0⟩ (.backlog c))

/-- The numbers 3 and 2 are sizes; 0, minus one and the least number of all are not. -/
def sizes : List Int64 := [3, 0, 2, -1, Int64.minValue]

end Evicted

/-- The size is two in the end, so of the three events of the first node two are current. -/
theorem queries_exact_evicted :
    let now := Evicted.engine.actAll
      (Evicted.sizes.map fun size => .perform ⟨0⟩ (.setBacklogSize size))
    (0 < Evicted.engine.tracers.length) ∧ (Evicted.engine.tracer ⟨0⟩).isShutDown = false ∧
    (Evicted.engine.tracer ⟨0⟩).backlog.events =
      [Evicted.event 3 "b", Evicted.event 4 "a", Evicted.event 5 "a", Evicted.event 6 "a"] ∧
    now.perform ⟨0⟩ (.setBacklogSize 0) =
      (now, .error (.failed (.invalidBacklogSize 0))) ∧
    now.perform ⟨0⟩ (.dump "a") =
      (now, .ok (.events [Evicted.event 4 "a", Evicted.event 5 "a", Evicted.event 6 "a"])) ∧
    ∃ latest, now.perform ⟨0⟩ (.latest "a") = (now, .ok (.events latest)) ∧
      latest <:+ [Evicted.event 4 "a", Evicted.event 5 "a", Evicted.event 6 "a"] ∧
      latest.length = 2 := by
  intro now
  have hheld : (Evicted.engine.tracer ⟨0⟩).backlog.events =
      [Evicted.event 3 "b", Evicted.event 4 "a", Evicted.event 5 "a", Evicted.event 6 "a"] := by
    decide
  have hr : 0 < Evicted.engine.tracers.length := by decide
  obtain ⟨hrefused, -, ⟨current, -, hcurrent, hanswers⟩, -⟩ :=
    queries_exact (r := ⟨0⟩) hr rfl Evicted.sizes
  obtain ⟨hdump, latest, hlatest, hsuffix, hlength⟩ := hanswers "a"
  rw [hheld] at hdump hsuffix hlength
  have htwo : (current.toNat : Int) = 2 := hcurrent
  refine ⟨hr, rfl, hheld, hrefused 0 (by decide), hdump, latest, hlatest, hsuffix, ?_⟩
  rw [hlength, show current.toNat = 2 by omega]
  rfl

end Engine

end TraceBacklog
