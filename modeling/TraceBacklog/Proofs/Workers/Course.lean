/-
# What an exchange leaves behind

A pipeline that one tracer records, and whose processors and wrappers act on the exchange alone,
treats an exchange the same whatever the engine is. So it is known beforehand which tallies an
exchange on its way will still leave behind: a number for every capture, then an event or a
loss, and at the end perhaps a failure. `Task.course` says this of a task in the middle of
anything.

A step leaves the first of these tallies behind, or none, and the others are still to come
(`Task.step_leaves`). What they are to the tracer says `Tracer.Tallied`; it does not matter when
they were left or by whom, so it can be put together over any number of steps
(`Tracer.Tallied.append`).

Key definitions: `Tally`, `Tracer.Tallied`, `Processor.RecordedBy`, `Processor.course`,
`Task.course`.
Key theorems: `Processor.count_number_tallies`, `Task.step_leaves`.
-/
import Mathlib.Data.List.Nodup
import TraceBacklog.Proofs.Route.Captures
import TraceBacklog.Proofs.Workers.Machine

namespace TraceBacklog

/-! ### Tallies -/

/-- What an exchange can leave behind. -/
inductive Tally where
  /-- A capture took its number. -/
  | number
  | stored
  | lost
  /-- The exchange did not get through. -/
  | failed
deriving DecidableEq

/-- What a capture leaves behind when it has its number. -/
def Exchange.tally (x : Exchange) : Tally :=
  match x.body.text? with
  | .ok _ => .stored
  | .error _ => .lost

theorem Exchange.tally_eq (x : Exchange) : x.tally = .stored ∨ x.tally = .lost := by
  unfold tally
  split
  · exact .inl rfl
  · exact .inr rfl

/-- The next `n` numbers of a counter. -/
def numbersAfter (counter : UInt64) (n : ℕ) : List UInt64 :=
  (List.range n).map fun k => counter + UInt64.ofNat (k + 1)

theorem numbersAfter_add (counter : UInt64) (m n : ℕ) : numbersAfter counter (m + n) =
    numbersAfter counter m ++ numbersAfter (counter + UInt64.ofNat m) n := by
  rw [numbersAfter, List.range_add, List.map_append, List.map_map]
  refine congrArg _ (List.map_congr_left fun k _ => ?_)
  show counter + UInt64.ofNat (m + k + 1) = counter + UInt64.ofNat m + UInt64.ofNat (k + 1)
  rw [UInt64.add_assoc, ← UInt64.ofNat_add, Nat.add_assoc]

/-- Consecutive numbers are distinct as long as they do not overflow. -/
theorem nodup_numbersAfter (counter : UInt64) {n : ℕ} (h : n < UInt64.size) :
    (numbersAfter counter n).Nodup := by
  refine List.Nodup.map_on (fun a ha b hb hab => ?_) List.nodup_range
  have ha : a < n := List.mem_range.mp ha
  have hb : b < n := List.mem_range.mp hb
  have hnat := congrArg UInt64.toNat ((UInt64.add_right_inj counter).mp hab)
  rw [UInt64.toNat_ofNat_of_lt' (show a + 1 < UInt64.size by omega),
    UInt64.toNat_ofNat_of_lt' (show b + 1 < UInt64.size by omega)] at hnat
  omega

namespace Tracer

/-- What a tracer has become after such tallies, with captures that used up such numbers. -/
structure Tallied (tallies : List Tally) (used : List UInt64) (t t' : Tracer) : Prop where
  traceCounter : t'.traceCounter = t.traceCounter + UInt64.ofNat (tallies.count .number)
  backlog : ∃ events : List Event, events.length = tallies.count .stored ∧
    (events.map (·.traceId)).Sublist used ∧ t'.backlog = (t.backlog.pushAll events).1
  captureFailures : t'.captureFailures = t.captureFailures +
    UInt64.ofNat (if t.lossPolicy = .ignore then 0 else tallies.count .lost)
  lossPolicy : t'.lossPolicy = t.lossPolicy
  enabled : t'.enabled = t.enabled

namespace Tallied

variable {t t' t'' : Tracer} {tallies more : List Tally} {used used' : List UInt64}

theorem refl (t : Tracer) : Tallied [] [] t t where
  traceCounter := (UInt64.add_zero _).symm
  backlog := ⟨[], rfl, .slnil, rfl⟩
  captureFailures := by simp
  lossPolicy := rfl
  enabled := rfl

/-- Tallies add up. -/
theorem append (h : Tallied tallies used t t') (h' : Tallied more used' t' t'') :
    Tallied (tallies ++ more) (used ++ used') t t'' where
  traceCounter := by
    rw [h'.traceCounter, h.traceCounter, List.count_append, UInt64.ofNat_add, UInt64.add_assoc]
  backlog := by
    obtain ⟨events, hlength, hused, hbacklog⟩ := h.backlog
    obtain ⟨events', hlength', hused', hbacklog'⟩ := h'.backlog
    refine ⟨events ++ events', ?_, ?_, ?_⟩
    · rw [List.length_append, hlength, hlength', List.count_append]
    · rw [List.map_append]
      exact hused.append hused'
    · rw [hbacklog', hbacklog, Backlog.pushAll_append]
  captureFailures := by
    rw [h'.captureFailures, h.captureFailures, h.lossPolicy, List.count_append, UInt64.add_assoc,
      ← UInt64.ofNat_add]
    split <;> rfl
  lossPolicy := h'.lossPolicy.trans h.lossPolicy
  enabled := h'.enabled.trans h.enabled

/-- A capture takes its number. -/
theorem nextCapture (t : Tracer) : Tallied [.number] [] t t.nextCapture :=
  ⟨rfl, ⟨[], rfl, .slnil, rfl⟩, by simp [Tracer.nextCapture], rfl, rfl⟩

/-- An event is stored. -/
theorem push (t : Tracer) (event : Event) :
    Tallied [.stored] [event.traceId] t { t with backlog := (t.backlog.push event).1 } :=
  ⟨by simp, ⟨[event], rfl, .refl _, rfl⟩, by simp, rfl, rfl⟩

/-- An exchange that does not get through is no concern of the tracer. -/
theorem fail (t : Tracer) : Tallied [.failed] [] t t :=
  ⟨by simp, ⟨[], rfl, .slnil, rfl⟩, by simp, rfl, rfl⟩

/-- A message has no snapshot, and its number is used up all the same. -/
theorem lose (t : Tracer) (traceId : UInt64) : Tallied [.lost] [traceId] t t.lose where
  traceCounter := by simp [keep_lose (·.traceCounter) (fun _ _ => rfl)]
  backlog := ⟨[], rfl, List.nil_sublist _, keep_lose (·.backlog) (fun _ _ => rfl) t⟩
  captureFailures := by
    unfold Tracer.lose
    cases t.lossPolicy <;> simp
  lossPolicy := keep_lose (·.lossPolicy) (fun _ _ => rfl) t
  enabled := keep_lose (·.enabled) (fun _ _ => rfl) t

end Tallied

end Tracer

/-! ### What is recorded by one tracer -/

/-- Notes a visit, or reaches an interceptor of the tracer. -/
def Action.RecordedBy (r : TracerRef) : Action → Prop
  | .visit _ _ => True
  | .enter i _ => i.tracer = r ∧ i.store = r
  | _ => False

/-- The processors act on the exchange alone, and all interceptors are the tracer's. -/
def Processor.RecordedBy (r : TracerRef) (p : Processor) : Prop := p.Within (·.RecordedBy r)

/-- A leaf has no interceptor. -/
theorem Processor.RecordedBy.actsOnExchange {r : TracerRef} {name : Option String}
    {steps : List Step} (h : (leaf name steps).RecordedBy r) :
    (leaf name steps).ActsOnExchange := by
  rw [RecordedBy, Within] at h
  rw [ActsOnExchange, Within]
  exact ⟨trivial, fun s hs x => (h.2 s hs x).mono (fun _ _ h => h.elim) fun _ h => h.elim⟩

/-- A route is recorded by the tracer that it is built with, if its processors and what other
strategies put in front of them act on the exchange alone. -/
theorem Route.recordedBy_stages {r : TracerRef} {route : Route}
    (h : ∀ o ∈ route.outputs, o.processor.ActsOnExchange) {strategies : List Strategy}
    (hs : ∀ s ∈ strategies, s.Within Action.IsVisit route.outline)
    (hr : ∀ s, .trace s ∈ strategies → s = r) :
    (Processor.pipeline (route.stages strategies)).RecordedBy r := by
  have hvisit : ∀ a : Action, a.IsVisit → a.RecordedBy r := fun a ha => by
    cases a with
    | visit name kind => trivial
    | _ => exact ha.elim
  refine Route.within_stagesBy _ (fun o ho => (h o ho).mono hvisit) (fun s hs' => ?_) ?_
  · exact (hs s hs').mono hvisit
  · rintro s hs' o - x
    exact ⟨hr s hs', hr s hs'⟩

/-! ### Courses -/

/-- What becomes of an exchange, and the tallies that it leaves behind. -/
structure Course where
  tallies : List Tally
  exchange : Exchange
  outcome : Outcome

namespace Course

/-- The course with tallies before it. -/
def after (c : Course) (tallies : List Tally) : Course := { c with tallies := tallies ++ c.tallies }

@[simp] theorem after_nil (c : Course) : c.after [] = c := rfl

theorem after_append (c : Course) (first rest : List Tally) :
    c.after (first ++ rest) = (c.after rest).after first := by
  rw [after, after, after, List.append_assoc]

/-- Goes on if all went well so far. -/
def andThen (c : Course) (next : Exchange → Course) : Course :=
  match c.outcome with
  | .ok () => (next c.exchange).after c.tallies
  | .error _ => c

theorem andThen_after (c : Course) (tallies : List Tally) (next : Exchange → Course) :
    (c.after tallies).andThen next = (c.andThen next).after tallies := by
  obtain ⟨m, x, outcome⟩ := c
  cases outcome with
  | ok => exact after_append ..
  | error stop => rfl

/-- All tallies of an exchange that has no more to go through. -/
def all (c : Course) : List Tally := c.tallies ++ if c.outcome.isOk then [] else [.failed]

theorem all_after (c : Course) (tallies : List Tally) : (c.after tallies).all = tallies ++ c.all :=
  List.append_assoc ..

end Course

/-- The course of a wrapper, given that of its target. Where it asks or looks, it is answered as in
an engine with nothing in it. -/
def Handling.course (target : Exchange → Course) : Handling Unit → Course
  | .finish x outcome => ⟨[], x, outcome⟩
  | .send _ x next =>
    let c := target x
    ((next c.exchange c.outcome).course target).after c.tallies
  | .ask r c next => (next ((default : Engine).perform r c).2).course target
  | .look n next => (next n.givenId).course target

namespace Processor

mutual

/-- The course of an exchange that enters a processor. -/
def course (x : Exchange) : Processor → Course
  | .leaf name steps =>
    let p := (Processor.leaf name steps).process default x
    ⟨[], p.exchange, p.outcome⟩
  | .pipeline stages => courseAll x stages
  | .traced _ target => (target.course x).after [.number, x.tally]
  | .handled handler target => (handler x).course fun x => target.course x

def courseAll (x : Exchange) : List Processor → Course
  | [] => ⟨[], x, .ok ()⟩
  | p :: rest => (p.course x).andThen fun x => courseAll x rest

end

end Processor

/-! ### Every capture is stored or lost -/

/-- There are as many captures as events and losses. -/
def Course.Balanced (c : Course) : Prop :=
  c.tallies.count .number = c.tallies.count .stored + c.tallies.count .lost

namespace Course.Balanced

variable {c : Course}

theorem after (h : c.Balanced) {tallies : List Tally}
    (htallies : tallies.count .number = tallies.count .stored + tallies.count .lost) :
    (c.after tallies).Balanced := by
  rw [Balanced, Course.after, List.count_append, List.count_append, List.count_append, h, htallies]
  omega

theorem andThen (h : c.Balanced) {next : Exchange → Course} (hnext : ∀ x, (next x).Balanced) :
    (c.andThen next).Balanced := by
  unfold Course.andThen
  split
  · exact (hnext _).after h
  · exact h

end Course.Balanced

theorem Handling.balanced_course {target : Exchange → Course} (htarget : ∀ x, (target x).Balanced)
    (h : Handling Unit) : (h.course target).Balanced := by
  induction h with
  | finish x outcome => rfl
  | send _ x next ih => exact (ih _ _).after (htarget x)
  | ask r c next ih => exact ih _
  | look n next ih => exact ih _

namespace Processor

mutual

theorem balanced_course (x : Exchange) : ∀ p : Processor, (p.course x).Balanced
  | .leaf _ _ => by
    rw [course]
    rfl
  | .pipeline stages => by
    rw [course]
    exact balanced_courseAll x stages
  | .traced _ target => by
    rw [course]
    refine (balanced_course x target).after ?_
    obtain htally | htally := x.tally_eq <;> rw [htally] <;> rfl
  | .handled handler target => by
    rw [course]
    exact Handling.balanced_course (fun x => balanced_course x target) (handler x)

theorem balanced_courseAll (x : Exchange) : ∀ ps : List Processor, (courseAll x ps).Balanced
  | [] => by
    rw [courseAll]
    rfl
  | p :: rest => by
    rw [courseAll]
    exact (balanced_course x p).andThen fun x => balanced_courseAll x rest

end

end Processor

/-- So it is with the tallies of many exchanges. -/
theorem Processor.count_number_tallies (p : Processor) (exchanges : List Exchange) :
    let tallies := exchanges.flatMap fun x => (p.course x).all
    tallies.count .number = tallies.count .stored + tallies.count .lost := by
  induction exchanges with
  | nil => rfl
  | cons x rest ih =>
    have hall : ∀ m ≠ Tally.failed, (p.course x).all.count m = (p.course x).tallies.count m := by
      intro m hm
      unfold Course.all
      split
      · rw [List.append_nil]
      · rw [List.count_append, List.count_singleton, beq_false_of_ne hm.symm]
        rfl
    have hx : (p.course x).Balanced := p.balanced_course x
    dsimp only at ih ⊢
    rw [Course.Balanced] at hx
    rw [List.flatMap_cons, List.count_append, List.count_append, List.count_append,
      hall _ (by decide), hall _ (by decide), hall _ (by decide), hx, ih]
    omega

/-! ### A task in the middle of anything -/

/-- The course of an exchange with which this is done next. -/
def Control.course (x : Exchange) : Control → Course
  | .process p => p.course x
  | .number _ target => (target.course x).after [.number, x.tally]
  | .name _ _ target => (target.course x).after [x.tally]
  | .record _ _ _ target => (target.course x).after [x.tally]
  | .handle h target => h.course fun x => target.course x
  | .ended outcome => ⟨[], x, outcome⟩

/-- The course with what waits for its end. -/
def Course.resume (c : Course) : List Frame → Course
  | [] => c
  | .stages rest :: stack => (c.andThen fun x => Processor.courseAll x rest).resume stack
  | .handler next target :: stack =>
    (((next c.exchange c.outcome).course fun x => target.course x).after c.tallies).resume stack

theorem Course.resume_after (c : Course) (tallies : List Tally) (stack : List Frame) :
    (c.after tallies).resume stack = (c.resume stack).after tallies := by
  induction stack generalizing c with
  | nil => rfl
  | cons frame stack ih =>
    cases frame with
    | stages rest => rw [resume, andThen_after, ih, resume]
    | handler next target =>
      rw [resume, resume, ← ih, ← after_append]
      rfl

namespace Task

/-- The course of a task from now on. -/
def course (t : Task) : Course := (t.control.course t.exchange).resume t.stack

end Task

/-! ### One step -/

/-- What is done next is recorded by the tracer. -/
def Control.RecordedBy (r : TracerRef) : Control → Prop
  | .process p => p.RecordedBy r
  | .number i target => (i.tracer = r ∧ i.store = r) ∧ target.RecordedBy r
  | .name i _ target => (i.tracer = r ∧ i.store = r) ∧ target.RecordedBy r
  | .record i _ _ target => (i.tracer = r ∧ i.store = r) ∧ target.RecordedBy r
  | .handle h target => h.Within (·.RecordedBy r) ∧ target.RecordedBy r
  | .ended _ => True

/-- So is what waits for its end. -/
def Frame.RecordedBy (r : TracerRef) : Frame → Prop
  | .stages rest => (Processor.pipeline rest).RecordedBy r
  | .handler next target =>
    (∀ x outcome, (next x outcome).Within (·.RecordedBy r)) ∧ target.RecordedBy r

/-- An event is stored or a loss is counted. -/
theorem Engine.tallied_record {e : Engine} {i : Interceptor} {r : TracerRef}
    (hi : i.tracer = r ∧ i.store = r) (hr : r.index < e.tracers.length) (traceId : UInt64)
    (toNode : String) (x : Exchange) :
    (e.tracer r).Tallied [x.tally] [traceId] ((e.record i traceId toNode x).tracer r) := by
  rw [record, hi.1, hi.2, Exchange.tally, Snapshot.capture]
  cases x.body.text? with
  | ok text =>
    dsimp only
    have hread : r.index < e.readClock.1.tracers.length := hr
    rw [storeEvent, tracer_modifyTracer_self _ hread]
    exact Tracer.Tallied.push _ (i.event traceId e.clock.now toNode _)
  | error reason =>
    dsimp only
    obtain ⟨journal, hlose⟩ := e.exists_lose_eq r (.captureFailed toNode reason)
    rw [hlose]
    show (e.tracer r).Tallied [.lost] [traceId] ((e.modifyTracer r (·.lose)).tracer r)
    rw [tracer_modifyTracer_self _ hr]
    exact Tracer.Tallied.lose ..

namespace Task

/-- Nothing that the task comes to concerns another tracer. -/
structure RecordedBy (r : TracerRef) (t : Task) : Prop where
  control : t.control.RecordedBy r
  stack : ∀ frame ∈ t.stack, frame.RecordedBy r

/-- The number of a capture that is not recorded yet. -/
def holding (t : Task) : List UInt64 :=
  match t.control with
  | .name _ traceId _ => [traceId]
  | .record _ traceId _ _ => [traceId]
  | _ => []

/-- A step of a task leaves these tallies behind, and the rest of its course is still to come. -/
structure Leaves (r : TracerRef) (e : Engine) (t : Task) (tallies : List Tally)
    (used : List UInt64) : Prop where
  course : t.course = (t.step e).2.course.after tallies
  tracer : (e.tracer r).Tallied tallies used ((t.step e).1.tracer r)
  holding : (t.number? e).toList ++ t.holding = used ++ (t.step e).2.holding
  numbers : (t.number? e).toList =
    numbersAfter (e.tracer r).traceCounter (tallies.count .number)
  goesOn : tallies.count .failed = 0
  recordedBy : (t.step e).2.RecordedBy r

/-- A step that the tracer does not notice. -/
theorem Leaves.silent {r : TracerRef} {e : Engine} {t : Task} (hnumber : t.number? e = none)
    (hholding : t.holding = (t.step e).2.holding) (htracers : (t.step e).1.tracers = e.tracers)
    (hcourse : t.course = (t.step e).2.course) (hrecorded : (t.step e).2.RecordedBy r) :
    Leaves r e t [] [] where
  course := hcourse
  tracer := by
    rw [Engine.tracer_congr htracers]
    exact .refl _
  holding := by
    rw [hnumber]
    exact hholding
  numbers := by
    rw [hnumber]
    rfl
  goesOn := rfl
  recordedBy := hrecorded

/-- The exchange of a task is through when nothing waits for the end. -/
theorem eq_of_outcome? {t : Task} {outcome : Outcome} (h : t.outcome? = some outcome) :
    t = ⟨t.exchange, .ended outcome, []⟩ := by
  obtain ⟨x, control, stack⟩ := t
  cases control with
  | ended last =>
    cases stack with
    | nil =>
      cases h
      rfl
    | cons frame stack => cases h
  | _ => cases h

variable {r : TracerRef} {e : Engine} {x : Exchange} {stack : List Frame}

/-- A processor begins. -/
theorem leaves_process (henabled : (e.tracer r).enabled = true) {p : Processor}
    (hp : p.RecordedBy r) (hstack : ∀ frame ∈ stack, frame.RecordedBy r) :
    Leaves r e ⟨x, .process p, stack⟩ [] [] := by
  cases p with
  | leaf name steps =>
    have hleaf := hp.actsOnExchange
    obtain ⟨hexchange, houtcome⟩ := hleaf.process_alike e default x
    refine .silent rfl rfl (hleaf.sameTracing e x).tracers.symm ?_ ⟨trivial, hstack⟩
    show ((Processor.leaf name steps).course x).resume stack =
      Course.resume ⟨[], (Processor.process e x (.leaf name steps)).exchange,
        (Processor.process e x (.leaf name steps)).outcome⟩ stack
    rw [Processor.course, hexchange, houtcome]
  | pipeline stages =>
    refine .silent rfl rfl rfl ?_ ⟨trivial, List.forall_mem_cons.mpr ⟨hp, hstack⟩⟩
    show ((Processor.pipeline stages).course x).resume stack =
      ((Processor.courseAll x stages).after []).resume stack
    rw [Processor.course, Course.after_nil]
  | traced i target =>
    rw [Processor.RecordedBy, Processor.Within] at hp
    have hi : i.tracer = r ∧ i.store = r := hp.1 x
    have hstep : Task.step e ⟨x, .process (.traced i target), stack⟩ =
        (e, ⟨x, .number i target, stack⟩) := by
      simp only [step, Engine.shouldTrace, hi.1, henabled, if_true]
    refine .silent rfl ?_ ?_ ?_ ?_ <;> rw [hstep]
    · rfl
    · rw [course, course]
      show ((Processor.traced i target).course x).resume stack = _
      rw [Processor.course]
      rfl
    · exact ⟨⟨hi, hp.2⟩, hstack⟩
  | handled handler target =>
    rw [Processor.RecordedBy, Processor.Within] at hp
    refine .silent rfl rfl rfl ?_ ⟨⟨hp.1 x, hp.2⟩, hstack⟩
    show ((Processor.handled handler target).course x).resume stack = _
    rw [Processor.course]
    rfl

/-- Something has ended. -/
theorem leaves_ended {outcome : Outcome} {frame : Frame}
    (hframe : frame.RecordedBy r) (hstack : ∀ frame ∈ stack, frame.RecordedBy r) :
    Leaves r e ⟨x, .ended outcome, frame :: stack⟩ [] [] := by
  cases frame with
  | stages rest =>
    cases outcome with
    | error stop => cases rest <;> exact .silent rfl rfl rfl rfl ⟨trivial, hstack⟩
    | ok =>
      cases rest with
      | nil => exact .silent rfl rfl rfl rfl ⟨trivial, hstack⟩
      | cons p rest =>
        rw [Frame.RecordedBy, Processor.RecordedBy, Processor.Within, Processor.AllWithin] at hframe
        refine .silent rfl rfl rfl ?_ ⟨hframe.1, List.forall_mem_cons.mpr ⟨?_, hstack⟩⟩
        · show ((Processor.courseAll x (p :: rest)).after []).resume stack = _
          rw [Processor.courseAll]
          rfl
        · rw [Frame.RecordedBy, Processor.RecordedBy, Processor.Within]
          exact hframe.2
  | handler next target => exact .silent rfl rfl rfl rfl ⟨⟨hframe.1 _ _, hframe.2⟩, hstack⟩

/-- **A step leaves the first of the tallies behind, or none.** -/
theorem step_leaves {t : Task} (ht : t.RecordedBy r) (henabled : (e.tracer r).enabled = true)
    (hopen : t.outcome? = none) : ∃ tallies used, Leaves r e t tallies used := by
  obtain ⟨x, control, stack⟩ := t
  obtain ⟨hcontrol, hstack⟩ := ht
  have hr : r.index < e.tracers.length := Engine.lt_length_of_enabled henabled
  -- Only taking a number and recording a capture leave something behind.
  cases control with
  | process p => exact ⟨[], [], leaves_process henabled hcontrol hstack⟩
  | number i target =>
    obtain ⟨⟨hi, hstore⟩, htarget⟩ := hcontrol
    refine ⟨[.number], [], ?_, ?_, rfl, ?_, rfl, ⟨⟨hi, hstore⟩, htarget⟩, hstack⟩
    · show ((target.course x).after ([.number] ++ [x.tally])).resume stack = _
      rw [Course.after_append, Course.resume_after]
      rfl
    · show (e.tracer r).Tallied [.number] [] ((e.modifyTracer i.tracer (·.nextCapture)).tracer r)
      rw [hi, Engine.tracer_modifyTracer_self _ hr]
      exact .nextCapture _
    · show [(e.tracer i.tracer).nextCapture.traceCounter] = _
      rw [hi]
      rfl
  | name i traceId target =>
    exact ⟨[], [], .silent rfl rfl (e.tracers_nodeId ..) rfl ⟨hcontrol, hstack⟩⟩
  | record i traceId toNode target =>
    refine ⟨[x.tally], [traceId], ?_, Engine.tallied_record hcontrol.1 hr traceId toNode x, rfl,
      ?_, ?_, hcontrol.2, hstack⟩
    · show ((target.course x).after [x.tally]).resume stack = _
      rw [Course.resume_after]
      rfl
    · obtain htally | htally := x.tally_eq <;> rw [htally] <;> rfl
    · obtain htally | htally := x.tally_eq <;> rw [htally] <;> rfl
  | handle h target =>
    cases h with
    | finish y outcome => exact ⟨[], [], .silent rfl rfl rfl rfl ⟨trivial, hstack⟩⟩
    | send _ y next =>
      refine ⟨[], [], .silent rfl rfl rfl rfl ⟨hcontrol.2, ?_⟩⟩
      exact List.forall_mem_cons.mpr ⟨hcontrol, hstack⟩
    | ask s c next => exact hcontrol.1.1.elim
    | look n next => exact hcontrol.1.1.elim
  | ended outcome =>
    cases stack with
    | nil => cases hopen
    | cons frame stack =>
      obtain ⟨hframe, hstack⟩ := List.forall_mem_cons.mp hstack
      exact ⟨[], [], leaves_ended hframe hstack⟩

end Task

end TraceBacklog
