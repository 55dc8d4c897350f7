/-
# Totals do not depend on the interleaving

Workers share a pipeline that one enabled tracer records. However their steps are interleaved,
each tally that their exchanges leave behind is left exactly once: what has been left and what is
still to come is the same all the time, up to the order (`Crew.Leaves`). When all workers are
through there is nothing to come, so the totals are those of the exchanges, and they are the same
for a worker that sends all exchanges through by itself.

Numbers are taken one after the other by whoever comes next, so they are consecutive, although
the events that carry them may be stored in another order.

Key definitions: `Worker.ahead`, `Crew.Leaves`, `rise`.
Key theorems: `Worker.step_leaves`, `Crew.exists_run_leaves`, `Crew.totals_of_interleaving`.
-/
import TraceBacklog.Proofs.Workers.Course

namespace TraceBacklog

/-! ### Changing one of many -/

section Set

variable {α β : Type} {values : List α} {k : ℕ} {old new : α} (h : values[k]? = some old)

include h

theorem flatMap_set_perm {f : α → List β} {more less : List β}
    (hf : more ++ f old = less ++ f new) :
    (more ++ values.flatMap f).Perm (less ++ (values.set k new).flatMap f) := by
  induction values generalizing k with
  | nil => cases h
  | cons value rest ih =>
    cases k with
    | zero =>
      cases h
      rw [List.flatMap_cons, List.set_cons_zero, List.flatMap_cons, ← List.append_assoc, hf,
        List.append_assoc]
    | succ k =>
      rw [List.flatMap_cons, List.set_cons_succ, List.flatMap_cons]
      exact (List.perm_append_comm_assoc ..).trans
        (((ih h).append_left (f value)).trans (List.perm_append_comm_assoc ..))

theorem foldr_add_set {f : α → ℕ} {n : ℕ} (hf : f new = f old + n) :
    (values.set k new).foldr (fun v m => f v + m) 0 = values.foldr (fun v m => f v + m) 0 + n := by
  induction values generalizing k with
  | nil => cases h
  | cons value rest ih =>
    cases k with
    | zero =>
      cases h
      rw [List.set_cons_zero, List.foldr_cons, List.foldr_cons, hf, Nat.add_right_comm]
    | succ k => rw [List.set_cons_succ, List.foldr_cons, List.foldr_cons, ih h, Nat.add_assoc]

end Set

/-! ### One worker -/

namespace Worker

/-- The tallies that a worker is still to leave behind. -/
def ahead (p : Processor) (w : Worker) : List Tally :=
  (w.task.toList.flatMap fun t => t.course.all) ++ w.waiting.flatMap fun x => (p.course x).all

/-- Nothing that the worker is at concerns another tracer. -/
def RecordedBy (r : TracerRef) (w : Worker) : Prop := ∀ t, w.task = some t → t.RecordedBy r

/-- The number of a capture that the worker has not recorded yet. -/
def holding (w : Worker) : List UInt64 := w.task.toList.flatMap Task.holding

/-- A step of a worker leaves these tallies behind, and the others are still to come. -/
structure Leaves (p : Processor) (r : TracerRef) (e : Engine) (w : Worker) (tallies : List Tally)
    (used : List UInt64) : Prop where
  ahead : w.ahead p = tallies ++ (w.step p e).2.ahead p
  tracer : (e.tracer r).Tallied tallies used ((w.step p e).1.tracer r)
  holding : (w.number? e).toList ++ w.holding = used ++ (w.step p e).2.holding
  numbers : (w.number? e).toList =
    numbersAfter (e.tracer r).traceCounter (tallies.count .number)
  failed : (w.step p e).2.failed = w.failed + tallies.count .failed
  recordedBy : (w.step p e).2.RecordedBy r

theorem step_leaves {p : Processor} {r : TracerRef} {e : Engine} {w : Worker}
    (hp : p.RecordedBy r) (hw : w.RecordedBy r) (henabled : (e.tracer r).enabled = true) :
    ∃ tallies used, Leaves p r e w tallies used := by
  obtain ⟨waiting, task, failed⟩ := w
  cases task with
  | none =>
    cases waiting with
    | nil => exact ⟨[], [], rfl, .refl _, rfl, rfl, rfl, hw⟩
    | cons x rest =>
      refine ⟨[], [], ?_, .refl _, rfl, rfl, rfl, fun t ht => ?_⟩
      · show (p.course x).all ++ _ = ((p.course x).all ++ []) ++ _
        rw [List.append_nil]
        rfl
      · cases ht
        exact ⟨hp, fun frame hframe => absurd hframe List.not_mem_nil⟩
  | some t =>
    cases hthrough : t.outcome? with
    | some outcome =>
      rw [Task.eq_of_outcome? hthrough]
      have hidle : RecordedBy r ⟨waiting, none, failed⟩ := fun t ht => by cases ht
      cases outcome with
      | ok => exact ⟨[], [], rfl, .refl _, rfl, rfl, rfl, hidle⟩
      | error stop => exact ⟨[.failed], [], rfl, .fail _, rfl, rfl, rfl, hidle⟩
    | none =>
      obtain ⟨tallies, used, hleaves⟩ := Task.step_leaves (hw t rfl) henabled hthrough
      have hstep : Worker.step p e ⟨waiting, some t, failed⟩ =
          ((t.step e).1, ⟨waiting, some (t.step e).2, failed⟩) := by
        simp only [step, hthrough]
      refine ⟨tallies, used, ?_, ?_, ?_, ?_, ?_, ?_⟩
      · rw [hstep]
        show (t.course.all ++ []) ++ _ = tallies ++ (((t.step e).2.course.all ++ []) ++ _)
        rw [hleaves.course, Course.all_after, List.append_assoc, List.append_assoc,
          List.append_assoc]
      · rw [hstep]
        exact hleaves.tracer
      · rw [hstep]
        show (t.number? e).toList ++ (t.holding ++ []) = used ++ ((t.step e).2.holding ++ [])
        rw [List.append_nil, List.append_nil, hleaves.holding]
      · exact hleaves.numbers
      · rw [hstep, hleaves.goesOn]
        rfl
      · rw [hstep]
        rintro _ ⟨rfl⟩
        exact hleaves.recordedBy

end Worker

/-! ### Many workers -/

namespace Crew

/-- The tallies that the workers are still to leave behind. -/
def ahead (p : Processor) (c : Crew) : List Tally := c.workers.flatMap (·.ahead p)

/-- Nothing that the workers are at concerns another tracer. -/
def RecordedBy (r : TracerRef) (c : Crew) : Prop := ∀ w ∈ c.workers, w.RecordedBy r

/-- The numbers of captures that are not recorded yet. -/
def holding (c : Crew) : List UInt64 := c.workers.flatMap (·.holding)

/-- From one moment to another such tallies were left behind, and such numbers were used up. -/
structure Leaves (p : Processor) (r : TracerRef) (tallies : List Tally) (used : List UInt64)
    (c c' : Crew) : Prop where
  ahead : (c.ahead p).Perm (tallies ++ c'.ahead p)
  tracer : (c.engine.tracer r).Tallied tallies used (c'.engine.tracer r)
  holding : (numbersAfter (c.engine.tracer r).traceCounter (tallies.count .number) ++
    c.holding).Perm (used ++ c'.holding)
  numbers : c'.numbers = c.numbers ++
    numbersAfter (c.engine.tracer r).traceCounter (tallies.count .number)
  failed : c'.failed = c.failed + tallies.count .failed

variable {p : Processor} {r : TracerRef} {c c' c'' : Crew}

theorem Leaves.refl (c : Crew) : Leaves p r [] [] c c :=
  ⟨.refl _, .refl _, .refl _, (List.append_nil _).symm, rfl⟩

theorem Leaves.append {tallies more : List Tally} {used used' : List UInt64}
    (h : Leaves p r tallies used c c') (h' : Leaves p r more used' c' c'') :
    Leaves p r (tallies ++ more) (used ++ used') c c'' where
  ahead := by
    rw [List.append_assoc]
    exact h.ahead.trans (h'.ahead.append_left tallies)
  tracer := h.tracer.append h'.tracer
  holding := by
    have hnew := h'.holding
    rw [h.tracer.traceCounter] at hnew
    rw [List.count_append, numbersAfter_add, List.append_assoc, List.append_assoc]
    -- The numbers that were taken later step aside while those of the first part are used.
    refine (List.perm_append_comm_assoc ..).trans ((h.holding.append_left _).trans ?_)
    exact (List.perm_append_comm_assoc ..).trans (hnew.append_left used)
  numbers := by
    rw [h'.numbers, h.numbers, h.tracer.traceCounter, List.count_append, numbersAfter_add,
      List.append_assoc]
  failed := by
    rw [h'.failed, h.failed, List.count_append, Nat.add_assoc]

/-- A turn of whichever worker leaves tallies behind, and the others are still to come. -/
theorem turn_leaves (hp : p.RecordedBy r) (hc : c.RecordedBy r)
    (henabled : (c.engine.tracer r).enabled = true) (t : Turn) :
    (∃ tallies used, Leaves p r tallies used c (c.turn p t)) ∧ (c.turn p t).RecordedBy r := by
  cases hw : c.workers[t.worker]? with
  | none =>
    rw [turn, hw]
    exact ⟨⟨[], [], .refl c⟩, hc⟩
  | some w =>
    obtain ⟨tallies, used, hleaves⟩ := Worker.step_leaves (e := { c.engine with clock := t.clock })
      hp (hc w (List.mem_of_getElem? hw)) henabled
    have hahead : [] ++ w.ahead p = tallies ++ (w.step p _).2.ahead p := hleaves.ahead
    have hholding := hleaves.holding
    rw [hleaves.numbers] at hholding
    rw [turn_of_getElem? hw t.clock]
    refine ⟨⟨tallies, used, ?_, hleaves.tracer, ?_, ?_, ?_⟩, fun v hv => ?_⟩
    · exact flatMap_set_perm hw hahead
    · exact flatMap_set_perm hw hholding
    · exact congrArg (c.numbers ++ ·) hleaves.numbers
    · exact foldr_add_set hw hleaves.failed
    · rcases List.mem_or_eq_of_mem_set hv with hv | rfl
      · exact hc v hv
      · exact hleaves.recordedBy

/-- So it is for every run. -/
theorem exists_run_leaves (hp : p.RecordedBy r) (hc : c.RecordedBy r)
    (henabled : (c.engine.tracer r).enabled = true) (turns : List Turn) :
    ∃ tallies used, Leaves p r tallies used c (c.run p turns) := by
  induction turns generalizing c with
  | nil => exact ⟨[], [], .refl c⟩
  | cons t rest ih =>
    obtain ⟨⟨first, used, hfirst⟩, hc'⟩ := turn_leaves hp hc henabled t
    obtain ⟨tallies, used', hrest⟩ := ih hc' (hfirst.tracer.enabled.trans henabled)
    exact ⟨first ++ tallies, used ++ used', hfirst.append hrest⟩

theorem ahead_start (e : Engine) (shares : List (List Exchange)) :
    (start e shares).ahead p = shares.flatten.flatMap fun x => (p.course x).all := by
  rw [ahead, start, List.flatMap_map]
  induction shares with
  | nil => rfl
  | cons exchanges rest ih =>
    rw [List.flatMap_cons, ih, List.flatten_cons, List.flatMap_append]
    rfl

theorem holding_start (e : Engine) (shares : List (List Exchange)) :
    (start e shares).holding = [] := by
  refine List.flatMap_eq_nil_iff.mpr fun w hw => ?_
  obtain ⟨exchanges, -, rfl⟩ := List.mem_map.mp hw
  rfl

theorem recordedBy_start (e : Engine) (shares : List (List Exchange)) :
    (start e shares).RecordedBy r := by
  intro w hw t ht
  obtain ⟨exchanges, -, rfl⟩ := List.mem_map.mp hw
  cases ht

theorem failed_start (e : Engine) (shares : List (List Exchange)) :
    (start e shares).failed = 0 := by
  induction shares with
  | nil => rfl
  | cons exchanges rest ih => exact (Nat.zero_add _).trans ih

theorem Finished.ahead (h : c.Finished) : c.ahead p = [] := by
  refine List.flatMap_eq_nil_iff.mpr fun w hw => ?_
  obtain ⟨htask, hwaiting⟩ := h w hw
  rw [Worker.ahead, htask, hwaiting]
  rfl

theorem Finished.holding (h : c.Finished) : c.holding = [] := by
  refine List.flatMap_eq_nil_iff.mpr fun w hw => ?_
  rw [Worker.holding, (h w hw).1]
  rfl

/-- When all workers are through, the tallies of all exchanges were left behind, and no others,
and all numbers that were taken are used up. -/
theorem exists_tallies_of_finished (hp : p.RecordedBy r) {e : Engine}
    (henabled : (e.tracer r).enabled = true) (shares : List (List Exchange)) {turns : List Turn}
    (hfinished : ((start e shares).run p turns).Finished) :
    ∃ tallies used, tallies.Perm (shares.flatten.flatMap fun x => (p.course x).all) ∧
      (e.tracer r).Tallied tallies used (((start e shares).run p turns).engine.tracer r) ∧
      ((start e shares).run p turns).numbers =
        numbersAfter (e.tracer r).traceCounter (tallies.count .number) ∧
      used.Perm ((start e shares).run p turns).numbers ∧
      ((start e shares).run p turns).failed = tallies.count .failed := by
  obtain ⟨tallies, used, hleaves⟩ := exists_run_leaves (c := start e shares) hp
    (recordedBy_start e shares) henabled turns
  have hahead := hleaves.ahead
  rw [hfinished.ahead, List.append_nil, ahead_start] at hahead
  have hnumbers : ((start e shares).run p turns).numbers =
      numbersAfter (e.tracer r).traceCounter (tallies.count .number) := hleaves.numbers
  have hholding := hleaves.holding
  rw [hfinished.holding, holding_start, List.append_nil, List.append_nil] at hholding
  refine ⟨tallies, used, hahead.symm, hleaves.tracer, hnumbers, ?_, ?_⟩
  · rw [hnumbers]
    exact hholding.symm
  · rw [hleaves.failed, failed_start, Nat.zero_add]

end Crew

/-! ### What the counters say -/

/-- By how much a counter rose. -/
def rise (before after : UInt64) : ℕ := (after - before).toNat

theorem rise_add {n : ℕ} (h : n < UInt64.size) (counter : UInt64) :
    rise counter (counter + UInt64.ofNat n) = n := by
  rw [rise, UInt64.add_comm, UInt64.add_sub_cancel, UInt64.toNat_ofNat_of_lt' h]

namespace Tracer.Tallied

variable {t t' : Tracer} {tallies : List Tally} {used : List UInt64}
  (h : Tallied tallies used t t')

include h

theorem pushed : t'.backlog.pushed = t.backlog.pushed + UInt64.ofNat (tallies.count .stored) := by
  obtain ⟨events, hlength, -, hbacklog⟩ := h.backlog
  rw [hbacklog, Backlog.pushed_pushAll, hlength]

/-- What there is no room for is gone. -/
theorem len : t'.backlog.len = min t.backlog.capacity (t.backlog.len + tallies.count .stored) := by
  obtain ⟨events, hlength, -, hbacklog⟩ := h.backlog
  rw [hbacklog, Backlog.len_eq_length, Backlog.events_pushAll, List.rtake, List.length_drop,
    List.length_append, ← Backlog.len_eq_length, hlength]
  omega

theorem evicted : t'.backlog.evicted = t.backlog.evicted +
    UInt64.ofNat (t.backlog.len + tallies.count .stored - t'.backlog.len) := by
  obtain ⟨events, hlength, -, hbacklog⟩ := h.backlog
  have hall := congrArg List.length (t.backlog.evicted_append_events_pushAll events)
  rw [List.length_append, List.length_append, ← Backlog.len_eq_length, ← Backlog.len_eq_length,
    hlength] at hall
  rw [hbacklog, Backlog.evictedCount_pushAll, ← hall, Nat.add_sub_cancel]

/-- The order of the tallies does not matter. -/
theorem agree {t'' : Tracer} {tallies' : List Tally} {used' : List UInt64}
    (h' : Tallied tallies' used' t t'') (hperm : tallies.Perm tallies') :
    t'.traceCounter = t''.traceCounter ∧ t'.backlog.pushed = t''.backlog.pushed ∧
      t'.captureFailures = t''.captureFailures := by
  rw [h.traceCounter, h'.traceCounter, h.pushed, h'.pushed, h.captureFailures,
    h'.captureFailures, hperm.count_eq, hperm.count_eq, hperm.count_eq]
  exact ⟨rfl, rfl, rfl⟩

variable (hbalanced : tallies.count .number = tallies.count .stored + tallies.count .lost)
  (hfew : tallies.count .number < UInt64.size)

include hfew

theorem rise_traceCounter : rise t.traceCounter t'.traceCounter = tallies.count .number := by
  rw [h.traceCounter, rise_add hfew]

include hbalanced

theorem rise_pushed : rise t.backlog.pushed t'.backlog.pushed = tallies.count .stored := by
  rw [h.pushed, rise_add (by omega)]

theorem rise_captureFailures : rise t.captureFailures t'.captureFailures =
    if t.lossPolicy = .ignore then 0 else tallies.count .number - tallies.count .stored := by
  have hlost : tallies.count .number - tallies.count .stored = tallies.count .lost := by omega
  rw [h.captureFailures, hlost, rise_add]
  split <;> omega

theorem rise_evicted : rise t.backlog.evicted t'.backlog.evicted =
    t.backlog.len + tallies.count .stored - t'.backlog.len := by
  have hlen := h.len
  have hroom : t.backlog.len ≤ t.backlog.capacity := t.backlog.size_le
  rw [h.evicted, rise_add (by omega)]

end Tracer.Tallied

namespace Crew

/-- **Totals do not depend on the interleaving.** Let workers send exchanges, each its own share,
through a pipeline that an enabled tracer records and whose processors act on the exchange alone.
However their steps are interleaved, they can be brought to their end. When they are through, as
many exchanges have failed, captures were numbered, events pushed and losses counted as when a
single worker sends all exchanges, in any order. The numbers that were taken are consecutive, in
the order in which they were taken, and none is taken twice; every event that was pushed has one
of them for itself. The backlog has kept what it has room for of the events it had and got, and
the others were evicted. -/
theorem totals_of_interleaving {p : Processor} {r : TracerRef} (hp : p.RecordedBy r) {e : Engine}
    (henabled : (e.tracer r).enabled = true) (shares : List (List Exchange)) (turns : List Turn) :
    let c := (start e shares).run p turns
    (∃ more, (c.run p more).Finished) ∧
    (c.Finished → c.numbers.length < UInt64.size →
      let before := e.tracer r
      let after := c.engine.tracer r
      let pushed := rise before.backlog.pushed after.backlog.pushed
      (∀ exchanges, exchanges.Perm shares.flatten →
        let alone := Processor.processEach e p exchanges
        c.failed = alone.2 ∧
          after.traceCounter = (alone.1.tracer r).traceCounter ∧
          after.backlog.pushed = (alone.1.tracer r).backlog.pushed ∧
          after.captureFailures = (alone.1.tracer r).captureFailures) ∧
      rise before.traceCounter after.traceCounter = c.numbers.length ∧
      rise before.captureFailures after.captureFailures =
        (if before.lossPolicy = .ignore then 0 else c.numbers.length - pushed) ∧
      c.numbers = numbersAfter before.traceCounter c.numbers.length ∧
      c.numbers.Nodup ∧
      (∃ events : List Event, events.length = pushed ∧
        after.backlog = (before.backlog.pushAll events).1 ∧
        (events.map (·.traceId)).Nodup ∧ events.map (·.traceId) ⊆ c.numbers) ∧
      after.backlog.len = min before.backlog.capacity (before.backlog.len + pushed) ∧
      rise before.backlog.evicted after.backlog.evicted =
        before.backlog.len + pushed - after.backlog.len) := by
  intro c
  refine ⟨exists_finished p c, fun hfinished hfew => ?_⟩
  obtain ⟨tallies, used, hperm, htallied, hnumbers, hused, hfailed⟩ :=
    exists_tallies_of_finished hp henabled shares hfinished
  have hlength : c.numbers.length = tallies.count .number := by
    rw [hnumbers, numbersAfter, List.length_map, List.length_range]
  have hbalanced := p.count_number_tallies shares.flatten
  dsimp only at hbalanced
  rw [← hperm.count_eq, ← hperm.count_eq, ← hperm.count_eq] at hbalanced
  rw [hlength] at hfew ⊢
  have hnodup : c.numbers.Nodup := by
    rw [hnumbers]
    exact nodup_numbersAfter _ hfew
  intro before after pushed
  have hpushed : pushed = tallies.count .stored := htallied.rise_pushed hbalanced hfew
  rw [hpushed]
  refine ⟨fun exchanges hsame => ?_, htallied.rise_traceCounter hfew,
    htallied.rise_captureFailures hbalanced hfew, hnumbers, hnodup, ?_, htallied.len,
    htallied.rise_evicted hbalanced hfew⟩
  · -- A worker that is alone is a crew of one, with the same tallies.
    obtain ⟨turns', hfinished', hengine', hfailed'⟩ := exists_run_processEach p e exchanges
    obtain ⟨tallies', used', hperm', htallied', -, -, hcount'⟩ :=
      exists_tallies_of_finished hp henabled [exchanges] hfinished'
    rw [List.flatten_singleton] at hperm'
    have htallies : tallies.Perm tallies' :=
      hperm.trans ((hsame.symm.flatMap_right _).trans hperm'.symm)
    rw [hengine'] at htallied'
    obtain ⟨hcounter, hstored, hlosses⟩ := htallied.agree htallied' htallies
    refine ⟨?_, hcounter, hstored, hlosses⟩
    rw [← hfailed', hcount', ← htallies.count_eq]
    exact hfailed
  · obtain ⟨events, hevents, hids, hbacklog⟩ := htallied.backlog
    exact ⟨events, hevents, hbacklog, hids.nodup (hused.nodup_iff.mpr hnodup),
      fun _ hid => hused.subset (hids.subset hid)⟩

namespace Sample

/-- A route whose first processor lets exchanges through that are signed. -/
def route : Route where
  id := some "load"
  outputs := ((NodeSpec.defineAll 1 [⟨"in", some "in", []⟩, ⟨"to", none, []⟩]).1.zip
    [Step.requireHeader "signed" (.processingFailed "in" "not signed"),
      .setHeader "seen" (.bool true)]).map fun (node, step) => ⟨node, .leaf none [step]⟩

def pipeline : Processor := .pipeline (route.stages [.trace ⟨0⟩])

/-- The tracer has room for two events. -/
def engine : Engine :=
  let config := { Config.default with capacity := 2, enabled := true, lossPolicy := .count }
  ⟨.empty, [.fresh], [.fresh config (Backlog.ofCapacity 2) ⟨0⟩], [], [], .epoch⟩

/-- The first worker has a signed exchange and one without a text, the second one has an exchange
that is not signed. -/
def shares : List (List Exchange) := [
  [(Exchange.new "x1" (.text "a")).setHeader "signed" (.bool true),
    (Exchange.new "x2" .opaqueValue).setHeader "signed" (.bool true)],
  [Exchange.new "x3" (.text "c")]]

/-- The first worker is held up when it has taken its first number. -/
def turns : List Turn :=
  List.replicate 5 ⟨0, .epoch⟩ ++ List.replicate 20 ⟨1, .epoch⟩ ++ List.replicate 40 ⟨0, .epoch⟩

end Sample

/-- Of five captures three are stored, the second one before the first, and it is evicted. One
exchange fails. -/
theorem totals_of_interleaving_sample :
    let c := (start Sample.engine Sample.shares).run Sample.pipeline Sample.turns
    let after := c.engine.tracer ⟨0⟩
    Sample.pipeline.RecordedBy ⟨0⟩ ∧ (Sample.engine.tracer ⟨0⟩).enabled = true ∧ c.Finished ∧
      c.numbers = [1, 2, 3, 4, 5] ∧ after.captureFailures = 2 ∧
      after.backlog.events.map (·.traceId) = [1, 3] ∧ rise 0 after.backlog.evicted = 1 ∧
      c.failed = 1 ∧
      (Processor.processEach Sample.engine Sample.pipeline Sample.shares.flatten).2 = 1 := by
  intro c after
  have hp : Sample.pipeline.RecordedBy ⟨0⟩ :=
    Route.recordedBy_stages (by simp [Sample.route, NodeSpec.defineAll, NodeSpec.define,
      Processor.ActsOnExchange, Processor.Within, Step.requireHeader, Step.setHeader,
      Action.IsVisit]) (by simp) fun s hs => by simpa using hs
  have hfinished : c.Finished := by decide +kernel
  have hnumbers : c.numbers.length = 5 := by decide +kernel
  have hfailed : c.failed = 1 := by decide +kernel
  have henabled : (Sample.engine.tracer ⟨0⟩).enabled = true := rfl
  obtain ⟨-, h⟩ := totals_of_interleaving hp henabled Sample.shares Sample.turns
  obtain ⟨halone, -, -, hconsecutive, -, -, -, -⟩ := h hfinished (by rw [hnumbers]; decide)
  refine ⟨hp, henabled, hfinished, ?_, ?_, ?_, ?_, hfailed, ?_⟩
  · rw [hnumbers] at hconsecutive
    exact hconsecutive
  · decide +kernel
  · decide +kernel
  · decide +kernel
  · exact (halone _ (.refl _)).1.symm.trans hfailed

end Crew

end TraceBacklog
