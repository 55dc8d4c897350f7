/-
# Workers, step by step

Workers share a pipeline. Each sends exchanges of its own through it, one after the other, and
goes on by elementary steps: the processor at a leaf runs, a capture takes its number, makes sure
that its node has an id, and stores its event or counts a loss, a wrapper asks or looks. Between
two steps of a worker the others may take any number of steps, and the time goes on; an interleaving is the list of turns
that were taken. What a worker is in the middle of is written down as a task: the exchange, what
is done with it next, and what is waiting for this to end.

A worker that is alone does what `Processor.processEach` does, action by action
(`Worker.reaches_processEach`), whatever the processors are. From any moment on all workers can
be brought to their end (`Crew.exists_finished`), so no interleaving gets stuck.

Key definitions: `Task`, `Task.step`, `Worker.step`, `Crew`, `Crew.run`, `Crew.Finished`.
Key theorems: `Task.reaches_process`, `Worker.reaches_processEach`, `Crew.exists_finished`.
-/
import Mathlib.Logic.Relation
import TraceBacklog.Proofs.Engine.Action

namespace TraceBacklog

/-! ### Tasks -/

/-- What is done next with an exchange. -/
inductive Control where
  | process (p : Processor)
  /-- A capture takes its number. -/
  | number (i : Interceptor) (target : Processor)
  /-- It makes sure that the node has an id. -/
  | name (i : Interceptor) (traceId : UInt64) (target : Processor)
  /-- It stores its event or counts a loss. -/
  | record (i : Interceptor) (traceId : UInt64) (toNode : String) (target : Processor)
  | handle (h : Handling Unit) (target : Processor)
  /-- What was done last has ended so. -/
  | ended (outcome : Outcome)

/-- What waits for something to end. -/
inductive Frame where
  /-- The stages of a pipeline that come after it. -/
  | stages (rest : List Processor)
  /-- A wrapper that goes on with what comes back from its target. -/
  | handler (next : Exchange → Outcome → Handling Unit) (target : Processor)

/-- An exchange on its way; what waits longest comes last. -/
structure Task where
  exchange : Exchange
  control : Control
  stack : List Frame

namespace Task

/-- Something has ended: what waits for it goes on. -/
def resume (t : Task) (outcome : Outcome) : Task :=
  match t.stack, outcome with
  | [], _ => t
  | .stages (p :: rest) :: stack, .ok () => ⟨t.exchange, .process p, .stages rest :: stack⟩
  | .stages _ :: stack, outcome => ⟨t.exchange, .ended outcome, stack⟩
  | .handler next target :: stack, outcome =>
    ⟨t.exchange, .handle (next t.exchange outcome) target, stack⟩

/-- One elementary step. -/
def step (e : Engine) (t : Task) : Engine × Task :=
  match t.control with
  | .process (.leaf name steps) =>
    let p := (Processor.leaf name steps).process e t.exchange
    (p.engine, ⟨p.exchange, .ended p.outcome, t.stack⟩)
  | .process (.pipeline stages) => (e, ⟨t.exchange, .ended (.ok ()), .stages stages :: t.stack⟩)
  | .process (.traced i target) =>
    (e, { t with control := if e.shouldTrace i.tracer then .number i target else .process target })
  | .process (.handled handler target) =>
    (e, { t with control := .handle (handler t.exchange) target })
  | .number i target =>
    let (e, traceId) := e.takeTraceId i.tracer
    (e, { t with control := .name i traceId target })
  | .name i traceId target =>
    let (e, toNode) := e.nodeId (e.tracer i.tracer).factory i.node
    (e, { t with control := .record i traceId toNode target })
  | .record i traceId toNode target =>
    (e.record i traceId toNode t.exchange, { t with control := .process target })
  | .handle (.finish x outcome) _ => (e, ⟨x, .ended outcome, t.stack⟩)
  | .handle (.send _ x next) target => (e, ⟨x, .process target, .handler next target :: t.stack⟩)
  | .handle (.ask r c next) target =>
    let (e, answer) := e.perform r c
    (e, { t with control := .handle (next answer) target })
  | .handle (.look n next) target => (e, { t with control := .handle (next (n.id? e.ids)) target })
  | .ended outcome => (e, t.resume outcome)

/-- How the exchange got through, if it is through. -/
def outcome? (t : Task) : Option Outcome :=
  match t.control, t.stack with
  | .ended outcome, [] => some outcome
  | _, _ => none

/-- The number that is taken in the next step. -/
def number? (e : Engine) (t : Task) : Option UInt64 :=
  match t.control with
  | .number i _ => some (e.takeTraceId i.tracer).2
  | _ => none

end Task

/-! ### Workers -/

/-- A worker, with the exchanges that it has not begun with. -/
structure Worker where
  waiting : List Exchange
  task : Option Task
  /-- How many of its exchanges did not get through. -/
  failed : ℕ

namespace Worker

/-- A worker before its first exchange. -/
def fresh (exchanges : List Exchange) : Worker := ⟨exchanges, none, 0⟩

/-- Goes on with an exchange, or with the next one, whatever became of the last. -/
def step (p : Processor) (e : Engine) (w : Worker) : Engine × Worker :=
  match w.task with
  | none =>
    match w.waiting with
    | [] => (e, w)
    | x :: rest => (e, { w with waiting := rest, task := some ⟨x, .process p, []⟩ })
  | some t =>
    match t.outcome? with
    | some outcome =>
      (e, { w with task := none, failed := w.failed + if outcome.isOk then 0 else 1 })
    | none => ((t.step e).1, { w with task := some (t.step e).2 })

/-- The number that is taken in the next step. -/
def number? (e : Engine) (w : Worker) : Option UInt64 := w.task.bind (·.number? e)

/-- All its exchanges are through. -/
def Finished (w : Worker) : Prop := w.task = none ∧ w.waiting = []

instance (w : Worker) : Decidable w.Finished :=
  decidable_of_iff (w.task.isNone ∧ w.waiting.isEmpty)
    (and_congr Option.isNone_iff_eq_none List.isEmpty_iff)

end Worker

/-- Workers at a pipeline, and what they share. -/
structure Crew where
  engine : Engine
  workers : List Worker
  /-- The numbers that captures took, in this order. -/
  numbers : List UInt64

/-- A worker takes a step; the clock has gone on meanwhile. -/
structure Turn where
  worker : ℕ
  clock : Clock

namespace Crew

/-- Before the first turn: one worker for each share of the exchanges. -/
def start (e : Engine) (shares : List (List Exchange)) : Crew := ⟨e, shares.map Worker.fresh, []⟩

def turn (p : Processor) (c : Crew) (t : Turn) : Crew :=
  match c.workers[t.worker]? with
  | none => c
  | some w =>
    let e := { c.engine with clock := t.clock }
    let (e', w') := w.step p e
    ⟨e', c.workers.set t.worker w', c.numbers ++ (w.number? e).toList⟩

/-- Takes one turn after the other. -/
def run (p : Processor) (c : Crew) (turns : List Turn) : Crew := turns.foldl (turn p) c

def Finished (c : Crew) : Prop := ∀ w ∈ c.workers, w.Finished

instance (c : Crew) : Decidable c.Finished :=
  inferInstanceAs (Decidable (∀ w ∈ c.workers, w.Finished))

/-- How many exchanges did not get through. -/
def failed (c : Crew) : ℕ := c.workers.foldr (fun w n => w.failed + n) 0

theorem run_append (p : Processor) (c : Crew) (first rest : List Turn) :
    c.run p (first ++ rest) = (c.run p first).run p rest := List.foldl_append

end Crew

/-! ### A task that is not interrupted -/

namespace Task

/-- The next moment of a task that is not through. -/
def Next (s s' : Engine × Task) : Prop := s.2.outcome? = none ∧ s' = s.2.step s.1

/-- The later moments of a task that is not interrupted. -/
def Reaches : Engine × Task → Engine × Task → Prop := Relation.ReflTransGen Next

theorem Reaches.step {e : Engine} {t : Task} {s : Engine × Task} (hopen : t.outcome? = none)
    (h : Reaches (t.step e) s) : Reaches (e, t) s := .head ⟨hopen, rfl⟩ h

/-- A handler goes on as `Handling.run` says, if its target does as it is processed. -/
theorem reaches_handle {target : Processor}
    (htarget : ∀ e x stack, Reaches (e, ⟨x, .process target, stack⟩)
      ((target.process e x).engine,
        ⟨(target.process e x).exchange, .ended (target.process e x).outcome, stack⟩))
    (h : Handling Unit) (e : Engine) (x : Exchange) (stack : List Frame) :
    Reaches (e, ⟨x, .handle h target, stack⟩)
      ((h.run (fun _ e x => target.process e x) e).engine,
        ⟨(h.run (fun _ e x => target.process e x) e).exchange,
          .ended (h.run (fun _ e x => target.process e x) e).outcome, stack⟩) := by
  induction h generalizing e x with
  | finish y outcome => exact .step rfl .refl
  | send _ y next ih => exact .step rfl ((htarget e y _).trans (Reaches.step rfl (ih _ _ _ _)))
  | ask r c next ih => exact .step rfl (ih _ (e.perform r c).1 x)
  | look n next ih => exact .step rfl (ih _ e x)

/-- What was in front of a processor gets done, and no more. -/
theorem reaches_record (i : Interceptor) (target : Processor) (e : Engine) (x : Exchange)
    (stack : List Frame) : Reaches (e, ⟨x, .process (.traced i target), stack⟩)
      (e.enter i x, ⟨x, .process target, stack⟩) := by
  refine .step rfl ?_
  rw [Engine.enter]
  simp only [step]
  cases e.shouldTrace i.tracer with
  | false => exact .refl
  | true => exact .step rfl (.step rfl (.step rfl .refl))

mutual

/-- A task that is not interrupted does what processing does. -/
theorem reaches_process (e : Engine) (x : Exchange) (stack : List Frame) : ∀ p : Processor,
    Reaches (e, ⟨x, .process p, stack⟩)
      ((p.process e x).engine, ⟨(p.process e x).exchange, .ended (p.process e x).outcome, stack⟩)
  | .leaf _ _ => .step rfl .refl
  | .pipeline stages => by
    rw [Processor.process]
    exact .step rfl (reaches_processAll e x stack stages)
  | .traced i target => by
    rw [Processor.process]
    exact (reaches_record i target e x stack).trans (reaches_process _ x stack target)
  | .handled handler target => by
    rw [Processor.process]
    refine .step rfl (reaches_handle (fun e x stack => ?_) (handler x) e x stack)
    exact reaches_process e x stack target

theorem reaches_processAll (e : Engine) (x : Exchange) (stack : List Frame) :
    ∀ ps : List Processor, Reaches (e, ⟨x, .ended (.ok ()), .stages ps :: stack⟩)
      ((Processor.processAll e x ps).engine, ⟨(Processor.processAll e x ps).exchange,
        .ended (Processor.processAll e x ps).outcome, stack⟩)
  | [] => .step rfl .refl
  | p :: rest => by
    have hfirst := reaches_process e x (.stages rest :: stack) p
    rw [Processor.processAll]
    refine .step rfl (hfirst.trans ?_)
    generalize p.process e x = passage
    obtain ⟨e', x', outcome⟩ := passage
    cases outcome with
    | ok => exact reaches_processAll e' x' stack rest
    | error stop => cases rest <;> exact Reaches.step rfl .refl

end

/-- What is done next comes to an end. -/
theorem exists_reaches_ended (e : Engine) (x : Exchange) (control : Control) (stack : List Frame) :
    ∃ e' x' outcome, Reaches (e, ⟨x, control, stack⟩) (e', ⟨x', .ended outcome, stack⟩) := by
  have htarget (e : Engine) (target : Processor) := reaches_process e x stack target
  cases control with
  | process p => exact ⟨_, _, _, htarget e p⟩
  | number i target => exact ⟨_, _, _, .step rfl (.step rfl (.step rfl (htarget _ target)))⟩
  | name i traceId target => exact ⟨_, _, _, .step rfl (.step rfl (htarget _ target))⟩
  | record i traceId toNode target => exact ⟨_, _, _, .step rfl (htarget _ target)⟩
  | handle h target =>
    exact ⟨_, _, _, reaches_handle (fun e x stack => reaches_process e x stack target) h e x stack⟩
  | ended outcome => exact ⟨e, x, outcome, .refl⟩

/-- What waits for the end gets its turn, and the rest of the stack after it. -/
theorem exists_reaches_rest (e : Engine) (x : Exchange) (outcome : Outcome) (frame : Frame)
    (rest : List Frame) : ∃ e' x' control,
      Reaches (e, ⟨x, .ended outcome, frame :: rest⟩) (e', ⟨x', control, rest⟩) := by
  cases frame with
  | stages ps =>
    cases outcome with
    | ok => exact ⟨_, _, _, reaches_processAll e x rest ps⟩
    | error stop => exact ⟨e, x, .ended (.error stop), by cases ps <;> exact .step rfl .refl⟩
  | handler next target => exact ⟨e, x, .handle (next x outcome) target, .step rfl .refl⟩

/-- A task that is not interrupted gets through. -/
theorem exists_reaches_through (e : Engine) (t : Task) :
    ∃ e' x' outcome, Reaches (e, t) (e', ⟨x', .ended outcome, []⟩) := by
  obtain ⟨x, control, stack⟩ := t
  induction stack generalizing e x control with
  | nil => exact exists_reaches_ended e x control []
  | cons frame rest ih =>
    obtain ⟨e₁, x₁, outcome, hended⟩ := exists_reaches_ended e x control (frame :: rest)
    obtain ⟨e₂, x₂, control, hrest⟩ := exists_reaches_rest e₁ x₁ outcome frame rest
    obtain ⟨e₃, x₃, last, hthrough⟩ := ih e₂ x₂ control
    exact ⟨e₃, x₃, last, (hended.trans hrest).trans hthrough⟩

end Task

/-! ### A worker that is alone -/

namespace Worker

variable {p : Processor}

/-- The later moments of a worker that is not interrupted. -/
def Reaches (p : Processor) : Engine × Worker → Engine × Worker → Prop :=
  Relation.ReflTransGen fun s s' => s' = s.2.step p s.1

theorem Reaches.step {e : Engine} {w : Worker} {s : Engine × Worker}
    (h : Reaches p (w.step p e) s) : Reaches p (e, w) s := .head rfl h

/-- What a task reaches, a worker reaches that is at it. -/
theorem reaches_of_task {e e' : Engine} {t t' : Task} (h : Task.Reaches (e, t) (e', t'))
    (waiting : List Exchange) (failed : ℕ) :
    Reaches p (e, ⟨waiting, some t, failed⟩) (e', ⟨waiting, some t', failed⟩) := by
  refine Relation.ReflTransGen.lift
    (fun s : Engine × Task => (s.1, (⟨waiting, some s.2, failed⟩ : Worker))) ?_ _ _ h
  rintro ⟨e, t⟩ _ ⟨hopen, rfl⟩
  simp only [Function.onFun, Worker.step, hopen]

/-- A worker that is alone sends its exchanges through one after the other. -/
theorem reaches_processEach (e : Engine) (exchanges : List Exchange) (failed : ℕ) :
    Reaches p (e, ⟨exchanges, none, failed⟩) ((Processor.processEach e p exchanges).1,
      ⟨[], none, failed + (Processor.processEach e p exchanges).2⟩) := by
  induction exchanges generalizing e failed with
  | nil => exact .refl
  | cons x rest ih =>
    have hthrough := reaches_of_task (p := p) (Task.reaches_process e x [] p) rest failed
    have hrest := ih (p.process e x).engine
      (failed + if (p.process e x).outcome.isOk then 0 else 1)
    rw [Nat.add_assoc, Nat.add_comm (ite _ 0 1)] at hrest
    exact .step (hthrough.trans (Reaches.step hrest))

/-- A worker that is not interrupted gets to its end. -/
theorem exists_reaches_finished (e : Engine) (w : Worker) :
    ∃ e' w', Reaches p (e, w) (e', w') ∧ w'.Finished := by
  obtain ⟨waiting, task, failed⟩ := w
  have hidle (e : Engine) (failed : ℕ) :
      ∃ e' w', Reaches p (e, ⟨waiting, none, failed⟩) (e', w') ∧ w'.Finished :=
    ⟨_, _, reaches_processEach e waiting failed, rfl, rfl⟩
  cases task with
  | none => exact hidle e failed
  | some t =>
    obtain ⟨e₁, x, outcome, hthrough⟩ := Task.exists_reaches_through e t
    obtain ⟨e₂, w', hrest, hfinished⟩ := hidle e₁ (failed + if outcome.isOk then 0 else 1)
    exact ⟨e₂, w', (reaches_of_task hthrough waiting failed).trans (Reaches.step hrest), hfinished⟩

end Worker

/-! ### Turns of one worker -/

namespace Crew

variable {p : Processor}

theorem turn_of_getElem? {c : Crew} {k : ℕ} {w : Worker} (h : c.workers[k]? = some w)
    (clock : Clock) : c.turn p ⟨k, clock⟩ =
      let e := { c.engine with clock := clock }
      ⟨(w.step p e).1, c.workers.set k (w.step p e).2, c.numbers ++ (w.number? e).toList⟩ := by
  rw [turn, h]

/-- A worker of a crew can go on as if it were alone. -/
theorem exists_run_of_reaches {c : Crew} {k : ℕ} {w : Worker} (h : c.workers[k]? = some w)
    {s : Engine × Worker} (hreaches : Worker.Reaches p (c.engine, w) s) :
    ∃ turns, (c.run p turns).engine = s.1 ∧ (c.run p turns).workers = c.workers.set k s.2 := by
  induction hreaches with
  | refl =>
    refine ⟨[], rfl, ?_⟩
    obtain ⟨hk, rfl⟩ := List.getElem?_eq_some_iff.mp h
    exact (List.set_getElem_self hk).symm
  | @tail s s' _ hstep ih =>
    obtain ⟨turns, hengine, hworkers⟩ := ih
    have hk : k < c.workers.length := (List.getElem?_eq_some_iff.mp h).1
    have hs : (c.run p turns).workers[k]? = some s.2 := by
      rw [hworkers, List.getElem?_set_self hk]
    -- The time stands still: it is set to what it is.
    have hturn := turn_of_getElem? (p := p) hs s.1.clock
    rw [hengine] at hturn
    have hrun : c.run p (turns ++ [⟨k, s.1.clock⟩]) = (c.run p turns).turn p ⟨k, s.1.clock⟩ :=
      run_append ..
    refine ⟨turns ++ [⟨k, s.1.clock⟩], ?_, ?_⟩
    · rw [hrun, hturn, hstep]
    · rw [hrun, hturn, hstep]
      show (c.run p turns).workers.set k _ = _
      rw [hworkers, List.set_set]

/-- From any moment on all workers can be brought to their end. -/
theorem exists_finished (p : Processor) (c : Crew) : ∃ turns, (c.run p turns).Finished := by
  -- The workers that are through stand first: no turn of another one touches them.
  suffices h : ∀ (rest done : List Worker) (c : Crew), c.workers = done ++ rest →
      (∀ w ∈ done, w.Finished) → ∃ turns, (c.run p turns).Finished from
    h c.workers [] c rfl fun _ hw => absurd hw List.not_mem_nil
  intro rest
  induction rest with
  | nil =>
    intro done c hworkers hdone
    refine ⟨[], fun w hw => hdone w ?_⟩
    rwa [run, List.foldl_nil, hworkers, List.append_nil] at hw
  | cons w rest ih =>
    intro done c hworkers hdone
    obtain ⟨e', w', hreaches, hfinished⟩ := Worker.exists_reaches_finished (p := p) c.engine w
    have hw : c.workers[done.length]? = some w := by simp [hworkers]
    obtain ⟨turns, -, hafter⟩ := exists_run_of_reaches hw hreaches
    have hset : (c.run p turns).workers = (done ++ [w']) ++ rest := by
      rw [hafter, hworkers]
      simp
    have hmore : ∀ v ∈ done ++ [w'], v.Finished := fun v hv => by
      rcases List.mem_append.mp hv with hv | hv
      · exact hdone v hv
      · exact List.mem_singleton.mp hv ▸ hfinished
    obtain ⟨more, hall⟩ := ih _ _ hset hmore
    exact ⟨turns ++ more, by rwa [run_append]⟩

/-- A crew of one sends all exchanges through one after the other. -/
theorem exists_run_processEach (p : Processor) (e : Engine) (exchanges : List Exchange) :
    ∃ turns, let c := (start e [exchanges]).run p turns
      c.Finished ∧ c.engine = (Processor.processEach e p exchanges).1 ∧
        c.failed = (Processor.processEach e p exchanges).2 := by
  have hreaches := Worker.reaches_processEach (p := p) e exchanges 0
  obtain ⟨turns, hengine, hworkers⟩ := exists_run_of_reaches
    (c := start e [exchanges]) (k := 0) rfl hreaches
  refine ⟨turns, fun w hw => ?_, hengine, ?_⟩
  · rw [hworkers] at hw
    obtain rfl := List.mem_singleton.mp hw
    exact ⟨rfl, rfl⟩
  · rw [failed, hworkers]
    exact (Nat.add_zero _).trans (Nat.zero_add _)

end Crew

end TraceBacklog
