/-
# What a tracer counts

The captures of a tracer are numbered 1, 2, 3, … from its making and from every reset, one
number for each exchange that reaches an interceptor of the tracer while it is enabled. What
the tracer and its backlog count and hold is told by this past alone: the number of the
latest capture, how many events were ever stored, how many losses were counted, and of which
events the held ones are the last.

The past of a tracer is read off the actions of a run (`Engine.history`): captures as they
were made, exchanges that passed an interceptor of the disabled tracer, resets of the
counter. The equations are one invariant (`Accounts`). A capture, a reset and everything
else keep it, each for reasons of its own; only a capture looks at more than one of them,
since it takes its number before it is known whether there is an event.

Key definitions: `Occurrence`, `Engine.history`, `sinceReset`, `Accounts`,
`Tracer.CountsAs`, `Action.KeepsApart`.
Key theorems: `Engine.tracer_act`, `Accounts.captured`, `Engine.accounts_actAll`,
`Engine.capture_accounting`.
-/
import Mathlib.Data.List.Induction
import TraceBacklog.Proofs.Backlog.History
import TraceBacklog.Proofs.Engine.Run

namespace TraceBacklog

/-! ### The past of a tracer -/

/-- Something that the numbers of a tracer hang on. -/
inductive Occurrence where
  | captured (c : Capture)
  /-- An exchange reached an interceptor while the tracer was disabled. -/
  | passed
  | reset

/-- What an action means for the numbers of a tracer. A tracer that was shut down is not
reset. -/
def Action.occurrence (r : TracerRef) (e : Engine) : Action → Option Occurrence
  | .enter i x =>
    if i.tracer = r then
      some (if (e.tracer r).enabled then .captured (e.captureOf i x) else .passed)
    else none
  | .perform s .resetTraceCounter =>
    if s = r ∧ (e.tracer r).isShutDown = false then some .reset else none
  | _ => none

/-- What happened to a tracer during some actions. -/
def Engine.history (r : TracerRef) (e : Engine) : List Action → List Occurrence
  | [] => []
  | a :: rest => (a.occurrence r e).toList ++ history r (e.act a) rest

def Occurrence.capture? : Occurrence → Option Capture
  | .captured c => some c
  | _ => none

/-- The captures of a history. -/
def captures (history : List Occurrence) : List Capture := history.filterMap Occurrence.capture?

/-- The captures since the latest reset, given those before an occurrence. -/
def Occurrence.since (recent : List Capture) : Occurrence → List Capture
  | .captured c => recent ++ [c]
  | .passed => recent
  | .reset => []

/-- The captures since the latest reset, or since the tracer was made. -/
def sinceReset (history : List Occurrence) : List Capture := history.foldl Occurrence.since []

/-- The events of captures. -/
def stored (captures : List Capture) : List Event := captures.filterMap Capture.event?

/-- There was no snapshot. -/
def Capture.failed (c : Capture) : Bool := c.event?.isNone

/-- There was no snapshot, and the policy was to count this. -/
def Capture.countedLoss (c : Capture) : Bool := c.failed && c.policy ≠ .ignore

/-- Only interceptors of the tracer store events with it, and they store them nowhere
else. -/
def Action.KeepsApart (r : TracerRef) : Action → Prop
  | .enter i _ => i.tracer = r ↔ i.store = r
  | .perform s (.backlog (.push _)) => s ≠ r
  | .perform s (.backlog (.pushAll _)) => s ≠ r
  | _ => True

theorem Engine.history_append (r : TracerRef) (e : Engine) (first rest : List Action) :
    e.history r (first ++ rest) = e.history r first ++ (e.actAll first).history r rest := by
  induction first generalizing e with
  | nil => rfl
  | cons a first ih =>
    rw [List.cons_append, history, history, ih, actAll_cons, List.append_assoc]

theorem sinceReset_concat (history : List Occurrence) (o : Occurrence) :
    sinceReset (history ++ [o]) = o.since (sinceReset history) := List.foldl_concat ..

theorem filterMap_concat {α β : Type} (f : α → Option β) (l : List α) (a : α) :
    (l ++ [a]).filterMap f = l.filterMap f ++ (f a).toList := by
  rw [List.filterMap_append]
  cases h : f a with
  | none => rw [List.filterMap_cons_none h]; rfl
  | some b => rw [List.filterMap_cons_some h]; rfl

theorem captures_concat (history : List Occurrence) (o : Occurrence) :
    captures (history ++ [o]) = captures history ++ o.capture?.toList := filterMap_concat ..

theorem stored_concat (captures : List Capture) (c : Capture) :
    stored (captures ++ [c]) = stored captures ++ c.event?.toList := filterMap_concat ..

/-- The latest captures are the last ones. -/
theorem sinceReset_suffix (history : List Occurrence) :
    sinceReset history <:+ captures history := by
  induction history using List.reverseRecOn with
  | nil => exact List.suffix_rfl
  | append_singleton history o ih =>
    rw [sinceReset_concat, captures_concat]
    cases o with
    | captured c =>
      obtain ⟨before, h⟩ := ih
      exact ⟨before, by rw [← h]; exact (List.append_assoc ..).symm⟩
    | passed =>
      show sinceReset history <:+ captures history ++ []
      rwa [List.append_nil]
    | reset => exact List.nil_suffix

/-- Without a reset they are all of them. -/
theorem sinceReset_of_not_mem {history : List Occurrence} (h : Occurrence.reset ∉ history) :
    sinceReset history = captures history := by
  induction history using List.reverseRecOn with
  | nil => rfl
  | append_singleton history o ih =>
    have hhistory := ih fun hmem => h (List.mem_append_left _ hmem)
    rw [sinceReset_concat, captures_concat, hhistory]
    cases o with
    | captured c => rfl
    | passed => exact (List.append_nil _).symm
    | reset => exact absurd (List.mem_append_right _ List.mem_cons_self) h

/-- A capture stores an event or fails. -/
theorem length_eq_stored_add_failed (captures : List Capture) :
    captures.length = (stored captures).length + (captures.filter Capture.failed).length := by
  induction captures with
  | nil => rfl
  | cons c rest ih =>
    rw [List.length_cons, ih, stored, stored]
    cases h : c.event? with
    | none =>
      have hfailed : c.failed = true := by rw [Capture.failed, h]; rfl
      rw [List.filterMap_cons_none h, List.filter_cons_of_pos hfailed, List.length_cons]
      omega
    | some event =>
      have hok : ¬ c.failed = true := by rw [Capture.failed, h]; exact Bool.false_ne_true
      rw [List.filterMap_cons_some h, List.filter_cons_of_neg hok, List.length_cons]
      omega

/-- Events carry the numbers of their captures. -/
theorem map_traceId_stored_sublist (captures : List Capture) :
    ((stored captures).map (·.traceId)).Sublist (captures.map (·.traceId)) := by
  induction captures with
  | nil => exact List.Sublist.slnil
  | cons c rest ih =>
    rw [stored, List.map_cons]
    cases h : c.event? with
    | none =>
      rw [List.filterMap_cons_none h]
      exact ih.cons _
    | some event =>
      have hid : event.traceId = c.traceId := by
        obtain ⟨message, -, rfl⟩ := Option.map_eq_some_iff.mp h
        rfl
      rw [List.filterMap_cons_some h, List.map_cons, hid]
      exact ih.cons_cons _

/-! ### What an action does to a tracer -/

namespace Tracer

/-- The numbers are the same, and no event came in. -/
structure CountsAs (t t' : Tracer) : Prop where
  traceCounter : t'.traceCounter = t.traceCounter
  captureFailures : t'.captureFailures = t.captureFailures
  pushed : t'.backlog.pushed = t.backlog.pushed
  events : t'.backlog.events <:+ t.backlog.events

theorem CountsAs.refl (t : Tracer) : t.CountsAs t := ⟨rfl, rfl, rfl, List.suffix_rfl⟩

theorem CountsAs.of_eq {t t' : Tracer} (h : t' = t) : t.CountsAs t' := h ▸ refl t

theorem countsAs_track (t : Tracer) (n : Node) : t.CountsAs (t.track n) :=
  ⟨rfl, rfl, rfl, List.suffix_rfl⟩

theorem countsAs_untrack (t : Tracer) (n : Node) : t.CountsAs (t.untrack n) := by
  unfold untrack
  split
  · exact .refl t
  · exact ⟨rfl, rfl, rfl, List.suffix_rfl⟩

/-- Of what can be asked of a backlog only pushes bring events in. -/
theorem countsAs_backlog (t : Tracer) {c : Backlog.Command} (hpush : ∀ event, c ≠ .push event)
    (hpushAll : ∀ events, c ≠ .pushAll events) :
    t.CountsAs { t with backlog := (t.backlog.perform c).1 } := by
  cases c with
  | push event => exact absurd rfl (hpush event)
  | pushAll events => exact absurd rfl (hpushAll events)
  | drain => exact ⟨rfl, rfl, rfl, List.nil_suffix⟩
  | clear => exact ⟨rfl, rfl, rfl, List.nil_suffix⟩
  | _ => exact ⟨rfl, rfl, rfl, List.suffix_rfl⟩

/-- A command that is not a reset and brings no events in leaves the numbers alone. -/
theorem countsAs_obey (t : Tracer) {c : Command} (hreset : c ≠ .resetTraceCounter)
    (hpush : ∀ event, c ≠ .backlog (.push event))
    (hpushAll : ∀ events, c ≠ .backlog (.pushAll events)) : t.CountsAs (t.obey c) := by
  unfold obey
  split
  · exact .refl t
  · cases c with
    | resetTraceCounter => exact absurd rfl hreset
    | setBacklogSize size =>
      by_cases hs : 0 < size.toInt
      · rw [apply, if_pos hs]
        exact ⟨rfl, rfl, rfl, List.suffix_rfl⟩
      · rw [apply, if_neg hs]
        exact .refl t
    | stop => exact ⟨rfl, rfl, rfl, List.nil_suffix⟩
    | shutDown => exact ⟨rfl, rfl, rfl, List.nil_suffix⟩
    | dumpAll => exact ⟨rfl, rfl, rfl, List.nil_suffix⟩
    | backlog c =>
      exact t.countsAs_backlog (fun event h => hpush event (congrArg _ h))
        fun events h => hpushAll events (congrArg _ h)
    | _ => exact ⟨rfl, rfl, rfl, List.suffix_rfl⟩

end Tracer

/-- A loss is counted unless losses are ignored. -/
theorem Tracer.captureFailures_absorb (t : Tracer) (c : Capture) :
    (t.absorb c).captureFailures =
      t.captureFailures + if c.failed && t.lossPolicy ≠ .ignore then 1 else 0 := by
  unfold Tracer.absorb Capture.failed
  cases c.event? with
  | some event => exact (UInt64.add_zero _).symm
  | none =>
    show t.nextCapture.lose.captureFailures = _
    have hpolicy : t.nextCapture.lossPolicy = t.lossPolicy := rfl
    unfold Tracer.lose
    rw [hpolicy]
    cases t.lossPolicy with
    | ignore => exact (UInt64.add_zero _).symm
    | count => rfl
    | log => rfl

/-- What an occurrence does to the tracer that it befalls. -/
def Occurrence.change (t : Tracer) : Occurrence → Tracer
  | .captured c => t.absorb c
  | .passed => t
  | .reset => { t with traceCounter := 0 }

namespace Engine

theorem countsAs_modifyTracer {e : Engine} {r s : TracerRef} {f : Tracer → Tracer}
    (hr : r.index < e.tracers.length) (hf : ∀ t : Tracer, t.CountsAs (f t)) :
    (e.tracer r).CountsAs ((e.modifyTracer s f).tracer r) := by
  by_cases hs : s = r
  · subst hs
    rw [tracer_modifyTracer_self f hr]
    exact hf _
  · rw [tracer_modifyTracer_of_ne e f hs]
    exact .refl _

variable {e : Engine} {r : TracerRef}

theorem captureOf_of_occurrence {a : Action} {c : Capture}
    (h : a.occurrence r e = some (.captured c)) :
    ∃ i x, i.tracer = r ∧ c = e.captureOf i x := by
  unfold Action.occurrence at h
  split at h
  · next i x =>
    split at h
    · next hi =>
      split at h
      · cases h
        exact ⟨i, x, hi, rfl⟩
      · cases h
    · cases h
  · split at h
    · cases h
    · cases h
  · cases h

theorem countsAs_perform (hr : r.index < e.tracers.length) {s : TracerRef} {c : Command}
    (hreset : c ≠ .resetTraceCounter) (hapart : (Action.perform s c).KeepsApart r) :
    (e.tracer r).CountsAs ((e.perform s c).1.tracer r) := by
  by_cases hs : s = r
  · subst hs
    rw [tracer_perform_self c hr]
    refine (e.tracer s).countsAs_obey hreset ?_ ?_
    · rintro event rfl
      exact hapart rfl
    · rintro events rfl
      exact hapart rfl
  · rw [tracer_perform_of_ne e c hs]
    exact .refl _

/-- **What an action does to a tracer.** Something that happens to it changes it in its own
way; whatever else is done leaves its numbers alone. -/
theorem tracer_act (hr : r.index < e.tracers.length) {a : Action} (hapart : a.KeepsApart r) :
    match a.occurrence r e with
    | some o => (e.act a).tracer r = o.change (e.tracer r)
    | none => (e.tracer r).CountsAs ((e.act a).tracer r) := by
  cases a with
  | enter i x =>
    have henter := tracer_enter hr hapart x
    rw [Action.occurrence]
    by_cases hi : i.tracer = r
    · rw [if_pos hi] at henter ⊢
      refine henter.trans ?_
      split <;> rfl
    · rw [if_neg hi] at henter ⊢
      exact .of_eq henter
  | perform s c =>
    by_cases hreset : c = .resetTraceCounter
    · subst hreset
      rw [Action.occurrence]
      by_cases hs : s = r
      · subst hs
        have hself := tracer_perform_self .resetTraceCounter hr
        cases hdown : (e.tracer s).isShutDown with
        | true =>
          rw [if_neg fun h => Bool.noConfusion h.2]
          refine .of_eq (hself.trans ?_)
          rw [Tracer.obey, hdown]
          rfl
        | false =>
          rw [if_pos ⟨rfl, rfl⟩]
          refine hself.trans ?_
          rw [Tracer.obey, hdown]
          rfl
      · rw [if_neg fun h => hs h.1]
        exact .of_eq (tracer_perform_of_ne e _ hs)
    · have hnone : (Action.perform s c).occurrence r e = none := by
        cases c with
        | resetTraceCounter => exact absurd rfl hreset
        | _ => rfl
      rw [hnone]
      exact countsAs_perform hr hreset hapart
  | track s n =>
    show (e.tracer r).CountsAs ((e.track s n).1.tracer r)
    rw [tracer_congr (e.tracers_track s n)]
    refine countsAs_modifyTracer hr fun t => ?_
    unfold Tracer.ifLive
    split
    · exact .refl t
    · exact t.countsAs_track n
  | untrack s n => exact countsAs_modifyTracer hr fun t => t.countsAs_untrack n
  | newTracer c f => exact .of_eq (tracer_newTracer_of_lt hr c f)
  | visit name kind => exact .of_eq (tracer_congr (e.tracers_visit name kind) r)
  | _ => exact .refl _

end Engine

/-! ### The invariant -/

/-- What a tracer counts and holds is told by what happened to it. The numbers are words, so
these equations hold however often they went round. -/
structure Accounts (t : Tracer) (history : List Occurrence) : Prop where
  counter : t.traceCounter = UInt64.ofNat (sinceReset history).length
  /-- At any time in the past as well. -/
  numbers : ∀ earlier, earlier <+: history → (sinceReset earlier).map (·.traceId) =
    (List.range' 1 (sinceReset earlier).length).map UInt64.ofNat
  pushed : t.backlog.pushed = UInt64.ofNat (stored (captures history)).length
  events : t.backlog.events <:+ stored (captures history)
  failures : t.captureFailures =
    UInt64.ofNat ((captures history).filter Capture.countedLoss).length

theorem accounts_fresh (c : Config) (capacity : ℕ) (factory : FactoryRef) :
    Accounts (Tracer.fresh c (Backlog.ofCapacity capacity) factory) [] where
  counter := rfl
  numbers earlier h := by
    rw [List.prefix_nil.mp h]
    rfl
  pushed := rfl
  events := List.nil_suffix
  failures := rfl

namespace Accounts

variable {t t' : Tracer} {history : List Occurrence}

/-- The numbers of the past are those before the latest occurrence and those after it. -/
theorem numbers_concat (h : Accounts t history) {o : Occurrence}
    (ho : (o.since (sinceReset history)).map (·.traceId) =
      (List.range' 1 (o.since (sinceReset history)).length).map UInt64.ofNat) :
    ∀ earlier, earlier <+: history ++ [o] → (sinceReset earlier).map (·.traceId) =
      (List.range' 1 (sinceReset earlier).length).map UInt64.ofNat := by
  intro earlier hearlier
  rcases List.prefix_concat_iff.mp hearlier with rfl | hearlier
  · rwa [sinceReset_concat]
  · exact h.numbers earlier hearlier

theorem countsAs (h : Accounts t history) (ht : t.CountsAs t') : Accounts t' history where
  counter := ht.traceCounter.trans h.counter
  numbers := h.numbers
  pushed := ht.pushed.trans h.pushed
  events := ht.events.trans h.events
  failures := ht.captureFailures.trans h.failures

theorem passed (h : Accounts t history) : Accounts t (history ++ [.passed]) := by
  have hcaptures : captures (history ++ [.passed]) = captures history :=
    (captures_concat history .passed).trans (List.append_nil _)
  refine ⟨?_, h.numbers_concat (h.numbers history List.prefix_rfl), ?_, ?_, ?_⟩
  · rw [sinceReset_concat]
    exact h.counter
  · rw [hcaptures]
    exact h.pushed
  · rw [hcaptures]
    exact h.events
  · rw [hcaptures]
    exact h.failures

/-- A reset starts the numbers again and forgets nothing else. -/
theorem reset (h : Accounts t history) :
    Accounts { t with traceCounter := 0 } (history ++ [.reset]) := by
  have hcaptures : captures (history ++ [.reset]) = captures history :=
    (captures_concat history .reset).trans (List.append_nil _)
  refine ⟨?_, h.numbers_concat rfl, ?_, ?_, ?_⟩
  · rw [sinceReset_concat]
    rfl
  · rw [hcaptures]
    exact h.pushed
  · rw [hcaptures]
    exact h.events
  · rw [hcaptures]
    exact h.failures

/-- A capture takes the next number, then it stores an event or counts a loss. -/
theorem captured (h : Accounts t history) {c : Capture} (hid : c.traceId = t.traceCounter + 1)
    (hpolicy : c.policy = t.lossPolicy) : Accounts (t.absorb c) (history ++ [.captured c]) := by
  have hcaptures : captures (history ++ [.captured c]) = captures history ++ [c] :=
    captures_concat history (.captured c)
  have hstored := stored_concat (captures history) c
  have hnext : t.traceCounter + 1 = UInt64.ofNat ((sinceReset history).length + 1) := by
    rw [h.counter, UInt64.ofNat_add]
    rfl
  refine ⟨?_, h.numbers_concat ?_, ?_, ?_, ?_⟩
  · rw [Tracer.traceCounter_absorb, hnext, sinceReset_concat, Occurrence.since,
      List.length_append, List.length_singleton]
  · rw [Occurrence.since, List.length_append, List.length_singleton, List.range'_1_concat,
      List.map_append, List.map_append, h.numbers history List.prefix_rfl, Nat.add_comm 1]
    exact congrArg (_ ++ [·]) (hid.trans hnext)
  · rw [Tracer.backlog_absorb, Backlog.pushed_pushAll, h.pushed, hcaptures, hstored,
      List.length_append, UInt64.ofNat_add]
  · -- What was held stays at the end, behind what made room for the event.
    have hpush := t.backlog.evicted_append_events_pushAll c.event?.toList
    obtain ⟨gone, hgone⟩ := h.events
    rw [Tracer.backlog_absorb, hcaptures, hstored]
    refine ⟨gone ++ (t.backlog.pushAll c.event?.toList).2, ?_⟩
    calc (gone ++ (t.backlog.pushAll c.event?.toList).2) ++
          (t.backlog.pushAll c.event?.toList).1.events
        = gone ++ (t.backlog.events ++ c.event?.toList) := by rw [List.append_assoc, hpush]
      _ = stored (captures history) ++ c.event?.toList := by rw [← List.append_assoc, hgone]
  · rw [Tracer.captureFailures_absorb, h.failures, hcaptures, List.filter_append,
      List.length_append, UInt64.ofNat_add, ← hpolicy]
    refine congrArg (_ + ·) ?_
    show (if c.countedLoss then 1 else 0) = _
    cases hloss : c.countedLoss with
    | true =>
      rw [List.filter_cons_of_pos hloss, if_pos rfl]
      rfl
    | false =>
      rw [List.filter_cons_of_neg (hloss ▸ Bool.false_ne_true), if_neg Bool.false_ne_true]
      rfl

end Accounts

namespace Engine

variable {r : TracerRef}

/-- One action keeps the equations; what happens in it is the latest occurrence. -/
theorem accounts_act {e : Engine} {history : List Occurrence} (hr : r.index < e.tracers.length)
    (h : Accounts (e.tracer r) history) {a : Action} (hapart : a.KeepsApart r) :
    Accounts ((e.act a).tracer r) (history ++ (a.occurrence r e).toList) := by
  have hact := tracer_act hr hapart
  cases ho : a.occurrence r e with
  | none =>
    rw [ho] at hact
    rw [Option.toList_none, List.append_nil]
    exact h.countsAs hact
  | some o =>
    rw [ho] at hact
    rw [hact, Option.toList_some]
    cases o with
    | passed => exact h.passed
    | reset => exact h.reset
    | captured c =>
      obtain ⟨i, x, hi, rfl⟩ := captureOf_of_occurrence ho
      subst hi
      exact h.captured rfl rfl

/-- So does a list of actions. -/
theorem accounts_actAll {e : Engine} {history : List Occurrence}
    (hr : r.index < e.tracers.length) (h : Accounts (e.tracer r) history)
    {actions : List Action} (hapart : ∀ a ∈ actions, a.KeepsApart r) :
    Accounts ((e.actAll actions).tracer r) (history ++ e.history r actions) := by
  induction actions generalizing e history with
  | nil => rwa [Engine.history, List.append_nil]
  | cons a rest ih =>
    have hact := accounts_act hr h (hapart a List.mem_cons_self)
    have hr' := hr.trans_le (e.length_tracers_le_act a)
    rw [actAll_cons, Engine.history, ← List.append_assoc]
    exact ih hr' hact fun a ha => hapart a (List.mem_cons_of_mem _ ha)

end Engine

/-! ### Few captures

With fewer captures than a word can count the words are the numbers. -/

theorem length_sinceReset_le {earlier history : List Occurrence} (h : earlier <+: history) :
    (sinceReset earlier).length ≤ (captures history).length :=
  (sinceReset_suffix earlier).length_le.trans (h.filterMap _).length_le

theorem map_toNat_ofNat {l : List ℕ} (h : ∀ k ∈ l, k < UInt64.size) :
    (l.map UInt64.ofNat).map UInt64.toNat = l := by
  rw [List.map_map]
  refine (List.map_congr_left fun k hk => ?_).trans (List.map_id l)
  exact UInt64.toNat_ofNat_of_lt' (h k hk)

/-- Events of captures that are numbered 1, 2, 3, … have ascending numbers. -/
theorem stored_ascending {recent : List Capture}
    (h : recent.map (·.traceId.toNat) = List.range' 1 recent.length) :
    (stored recent).Pairwise (fun a b => a.traceId < b.traceId) ∧
      ∀ event ∈ stored recent, event.traceId.toNat ≤ recent.length := by
  have hsub := (map_traceId_stored_sublist recent).map UInt64.toNat
  rw [List.map_map, List.map_map] at hsub
  have hsub' : ((stored recent).map (·.traceId.toNat)).Sublist (List.range' 1 recent.length) :=
    h ▸ hsub
  refine ⟨?_, fun event hevent => ?_⟩
  · have hrange : (List.range' 1 recent.length).Pairwise (· < ·) := List.pairwise_lt_range'
    have hlt := List.pairwise_map.mp (hrange.sublist hsub')
    exact hlt.imp fun h => UInt64.lt_iff_toNat_lt.mpr h
  · have hmem := hsub'.subset (List.mem_map_of_mem hevent)
    have := List.mem_range'_1.mp hmem
    omega

namespace Accounts

variable {t : Tracer} {history : List Occurrence} (h : Accounts t history)
  (hfew : (captures history).length < UInt64.size)

include h hfew

theorem map_toNat_traceId {earlier : List Occurrence} (hearlier : earlier <+: history) :
    (sinceReset earlier).map (·.traceId.toNat) =
      List.range' 1 (sinceReset earlier).length := by
  have hle := length_sinceReset_le hearlier
  have hids := congrArg (List.map UInt64.toNat) (h.numbers earlier hearlier)
  rw [List.map_map, map_toNat_ofNat fun k hk => ?_] at hids
  · exact hids
  · have hk' := List.mem_range'_1.mp hk
    omega

theorem toNat_counter : t.traceCounter.toNat = (sinceReset history).length := by
  rw [h.counter]
  exact UInt64.toNat_ofNat_of_lt' ((length_sinceReset_le List.prefix_rfl).trans_lt hfew)

theorem toNat_pushed : t.backlog.pushed.toNat = (stored (captures history)).length := by
  have hsplit := length_eq_stored_add_failed (captures history)
  rw [h.pushed]
  exact UInt64.toNat_ofNat_of_lt' (show _ < UInt64.size by omega)

theorem toNat_captureFailures :
    t.captureFailures.toNat = ((captures history).filter Capture.countedLoss).length := by
  rw [h.failures]
  exact UInt64.toNat_ofNat_of_lt' ((List.length_filter_le _ _).trans_lt hfew)

/-- Without a reset the counter is the captures with an event and those without. -/
theorem toNat_counter_of_not_mem (hreset : .reset ∉ history) :
    t.traceCounter.toNat =
      t.backlog.pushed.toNat + ((captures history).filter Capture.failed).length := by
  rw [h.toNat_counter hfew, h.toNat_pushed hfew, sinceReset_of_not_mem hreset]
  exact length_eq_stored_add_failed _

end Accounts

namespace Engine

/-- **The accounts of a tracer.** In any run from the making of a tracer, where only its own
interceptors store events with it and fewer exchanges are captured than a word can count:
an exchange that reaches an interceptor of the tracer is captured if the tracer is enabled
and else does nothing to it; at any time the captures since the latest reset are numbered
1, 2, 3, …; the counter is how many they are; their events are the last that were stored and
have ascending numbers up to the counter, and the backlog holds the last ones of all that
were stored; the backlog counts the captures that stored an event and the tracer those that
did not while this was to be counted; if there was no reset, the counter is the sum of the
captures that stored an event and all that did not. Drains, a stop and a start change none
of this. -/
theorem capture_accounting {e made : Engine} {config : Config} {f : Option FactoryRef}
    {r : TracerRef} (hnew : e.newTracer config f = (made, .ok r)) (ops : List Operation)
    (hapart : ∀ a ∈ made.actionsAll ops, a.KeepsApart r)
    (hfew : (captures (made.history r (made.actionsAll ops))).length < UInt64.size) :
    let history := made.history r (made.actionsAll ops)
    let after := made.operateAll ops
    let t := after.tracer r
    let recent := sinceReset history
    let all := captures history
    (∀ first i x, first ++ [.enter i x] <+: made.actionsAll ops → i.tracer = r →
      let e' := made.actAll first
      (e'.act (.enter i x)).tracer r = (if (e'.tracer r).enabled then
        (e'.tracer r).absorb (e'.captureOf i x) else e'.tracer r) ∧
      made.history r (first ++ [.enter i x]) = made.history r first ++
        [if (e'.tracer r).enabled then .captured (e'.captureOf i x) else .passed]) ∧
    (∀ earlier, earlier <+: history → (sinceReset earlier).map (·.traceId.toNat) =
      List.range' 1 (sinceReset earlier).length) ∧
    t.traceCounter.toNat = recent.length ∧
    (stored recent <:+ stored all ∧ t.backlog.events <:+ stored all ∧
      (stored recent).Pairwise (fun a b => a.traceId < b.traceId) ∧
      ∀ event ∈ stored recent, event.traceId ≤ t.traceCounter) ∧
    t.backlog.stats.pushed.toNat = (stored all).length ∧
    t.captureFailures.toNat = (all.filter Capture.countedLoss).length ∧
    (.reset ∉ history → t.traceCounter.toNat =
      t.backlog.stats.pushed.toNat + (all.filter Capture.failed).length) ∧
    ∀ c ∈ [Command.dumpAll, .backlog .drain, .stop, .start],
      let t' := (after.perform r c).1.tracer r
      t'.traceCounter = t.traceCounter ∧ t'.backlog.stats.pushed = t.backlog.stats.pushed ∧
        t'.captureFailures = t.captureFailures := by
  intro history after t recent all
  obtain ⟨hr, factory, hfresh⟩ := tracer_of_newTracer_eq hnew
  have hmade : Accounts (made.tracer r) [] := hfresh ▸ accounts_fresh ..
  have h : Accounts t history := by
    show Accounts ((made.operateAll ops).tracer r) _
    rw [operateAll_eq_actAll]
    exact accounts_actAll hr hmade hapart
  have hr' : r.index < after.tracers.length := by
    show r.index < (made.operateAll ops).tracers.length
    rw [operateAll_eq_actAll]
    exact hr.trans_le (made.length_tracers_le_actAll _)
  obtain ⟨hascending, hbound⟩ := stored_ascending (h.map_toNat_traceId hfew List.prefix_rfl)
  refine ⟨fun first i x hfirst hi => ⟨?_, ?_⟩, fun earlier => h.map_toNat_traceId hfew,
    h.toNat_counter hfew, ⟨(sinceReset_suffix history).filterMap _, h.events, hascending,
      fun event hevent => ?_⟩,
    h.toNat_pushed hfew, h.toNat_captureFailures hfew, h.toNat_counter_of_not_mem hfew,
    fun c hc => ?_⟩
  · have hlast : Action.enter i x ∈ made.actionsAll ops :=
      hfirst.subset (List.mem_append_right _ List.mem_cons_self)
    have henter := tracer_enter (hr.trans_le (made.length_tracers_le_actAll first))
      (hapart _ hlast) x
    rwa [if_pos hi] at henter
  · rw [history_append, Engine.history, Action.occurrence, if_pos hi]
    rfl
  · rw [UInt64.le_iff_toNat_le, h.toNat_counter hfew]
    exact hbound event hevent
  · -- None of these commands is a reset or a push.
    have hcounts : t.CountsAs ((after.perform r c).1.tracer r) := by
      have hc' : c = .dumpAll ∨ c = .backlog .drain ∨ c = .stop ∨ c = .start := by simpa using hc
      refine countsAs_perform hr' ?_ ?_
      · rcases hc' with rfl | rfl | rfl | rfl <;> exact fun h => by cases h
      · rcases hc' with rfl | rfl | rfl | rfl <;> trivial
    exact ⟨hcounts.traceCounter, hcounts.pushed, hcounts.captureFailures⟩

namespace Sample

/-- The tracer of the sample run is enabled from the start. -/
def config : Config := { Config.default with enabled := true }

def empty : Engine := ((initial .epoch).newFactory .fresh).1

def made : Engine := (empty.newTracer config (some ⟨0⟩)).1

def processor : Processor :=
  .traced (interceptor ⟨0⟩ none ⟨⟨0⟩, "to", none, []⟩) (.leaf none [.setBody .empty])

/-- One exchange with a text and two without; between those a reset and another policy. -/
def run : List Operation := [
  .process processor (.new "a" (.text "A")),
  .process processor (.new "b" .opaqueValue),
  .act (.perform ⟨0⟩ .resetTraceCounter),
  .act (.perform ⟨0⟩ (.setLossPolicy .ignore)),
  .process processor (.new "c" .opaqueValue),
  .act (.perform ⟨0⟩ .dumpAll)]

def past : List Occurrence := made.history ⟨0⟩ (made.actionsAll run)

end Sample

/-- The sample run: one number since the reset, one event, one loss that was counted. -/
theorem capture_accounting_sample :
    let t := (Sample.made.operateAll Sample.run).tracer ⟨0⟩
    Sample.empty.newTracer Sample.config (some ⟨0⟩) = (Sample.made, .ok ⟨0⟩) ∧
    (∀ a ∈ Sample.made.actionsAll Sample.run, a.KeepsApart ⟨0⟩) ∧
    (captures Sample.past).length < UInt64.size ∧
    t.traceCounter.toNat = 1 ∧ t.backlog.stats.pushed.toNat = 1 ∧ t.captureFailures.toNat = 1 := by
  intro t
  have hnew : Sample.empty.newTracer Sample.config (some ⟨0⟩) = (Sample.made, .ok ⟨0⟩) := rfl
  have hprocessor : Sample.processor.Within (Action.KeepsApart ⟨0⟩) := by
    refine ⟨fun x => Iff.rfl, trivial, fun s hs => ?_⟩
    obtain rfl := List.mem_singleton.mp hs
    exact Step.within_edit _ _
  have hapart : ∀ a ∈ Sample.made.actionsAll Sample.run, a.KeepsApart ⟨0⟩ := by
    refine actionsAll_within (fun a ha => ?_) ?_ Sample.made
    · cases a with
      | perform s c => exact ha.elim
      | enter i x => exact ha.elim
      | _ => trivial
    · simp only [Sample.run, List.forall_mem_cons]
      exact ⟨hprocessor, hprocessor, trivial, trivial, hprocessor, trivial,
        List.forall_mem_nil _⟩
  have hcaptures : (captures Sample.past).length = 3 := by rfl
  have hrecent : (sinceReset Sample.past).length = 1 := by rfl
  have hstored : (stored (captures Sample.past)).length = 1 := by rfl
  have hlosses : ((captures Sample.past).filter Capture.countedLoss).length = 1 := by rfl
  have hfew : (captures Sample.past).length < UInt64.size := by
    rw [hcaptures]
    decide
  obtain ⟨-, -, hcounter, -, hpushed, hfailures, -⟩ :=
    capture_accounting hnew Sample.run hapart hfew
  refine ⟨hnew, hapart, hfew, ?_, ?_, ?_⟩
  · exact hcounter.trans hrecent
  · exact hpushed.trans hstored
  · exact hfailures.trans hlosses

end Engine

end TraceBacklog
