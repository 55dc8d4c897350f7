/-
# The history of a backlog

A backlog loses nothing, repeats nothing and reorders nothing: over any history of
commands, the events that left it, in the order in which they left, followed by those
that it still holds, are the events that were pushed (`left_append_events_run`). What it
holds is the end of what was pushed since it was last drained or cleared
(`events_run`), and its counters are the sizes of what the replies handed out
(`pushed_run`, `evicted_run`, `drained_run`).

A history is read off its turns: what the backlog was, what it was asked, what it
answered. A push gives up its events in the reply and so does a drain; what a clear
discards is what was held before it.

Key definitions: `Backlog.Turn`, `Backlog.turns`, `Turn.pushed`, `Turn.left`,
`Backlog.fresh`.
Key theorems: `Backlog.events_push_eq_rtake`, `Backlog.left_append_events_run`,
`Backlog.events_run`, `Backlog.bounded_fifo`.
-/
import Mathlib.Data.List.DropRight
import TraceBacklog.Backlog.Command

namespace TraceBacklog

/-- Cutting a list to its last `n` items before more items come makes no difference to
the last `n` items. -/
theorem rtake_rtake_append {α : Type} (l m : List α) (n : ℕ) :
    (l.rtake n ++ m).rtake n = (l ++ m).rtake n := by
  simp only [List.rtake_eq_reverse_take_reverse, List.reverse_append, List.reverse_reverse,
    List.take_append, List.take_take]
  congr 3
  omega

namespace Backlog

/-! ### Pushes -/

theorem length_events_le (b : Backlog) : b.events.length ≤ b.capacity :=
  b.len_eq_length ▸ b.size_le

/-- A push appends its event and keeps the last ones for which there is room. -/
theorem events_push_eq_rtake (b : Backlog) (e : Event) :
    (b.push e).1.events = (b.events ++ [e]).rtake b.capacity := by
  have hle := b.length_events_le
  have hpos := b.capacity_pos
  rw [events_push, List.rtake, List.length_append, List.length_singleton]
  by_cases hfull : b.isFull = true
  · have hlen : b.events.length = b.capacity := le_antisymm hle (b.isFull_iff.mp hfull)
    rw [if_pos hfull, hlen, Nat.add_sub_cancel_left, List.drop_append_of_le_length (by omega),
      List.drop_one]
  · have hlt : b.events.length < b.capacity := by
      rw [isFull_iff] at hfull
      omega
    rw [if_neg hfull, Nat.sub_eq_zero_of_le (by omega), List.drop_zero]

/-- What a push gives up comes before what it leaves. -/
theorem evicted_append_events_push (b : Backlog) (e : Event) :
    (b.push e).2.toList ++ (b.push e).1.events = b.events ++ [e] := by
  rw [evicted_push, events_push]
  by_cases hfull : b.isFull = true
  · obtain ⟨old, rest, h⟩ := List.exists_cons_of_ne_nil (events_ne_nil_of_isFull hfull)
    simp [hfull, h]
  · simp [hfull]

theorem evicted_push_of_lt {b : Backlog} (h : b.len < b.capacity) (e : Event) :
    (b.push e).2 = none := by
  rw [evicted_push, if_neg]
  rw [isFull_iff, ← len_eq_length]
  omega

theorem evicted_push_of_le {b : Backlog} (h : b.capacity ≤ b.len) (e : Event) :
    ∃ oldest rest, b.events = oldest :: rest ∧ (b.push e).2 = some oldest := by
  have hfull : b.isFull = true := by rwa [isFull_iff, ← len_eq_length]
  obtain ⟨oldest, rest, hb⟩ := List.exists_cons_of_ne_nil (events_ne_nil_of_isFull hfull)
  refine ⟨oldest, rest, hb, ?_⟩
  rw [evicted_push, if_pos hfull, hb, List.head?_cons]

theorem pushed_push (b : Backlog) (e : Event) : (b.push e).1.pushed = b.pushed + 1 := by
  unfold push
  split
  · split <;> rfl
  · rfl

theorem drained_push (b : Backlog) (e : Event) : (b.push e).1.drained = b.drained := by
  unfold push
  split
  · split <;> rfl
  · rfl

theorem evictedCount_push (b : Backlog) (e : Event) :
    (b.push e).1.evicted = b.evicted + UInt64.ofNat (b.push e).2.toList.length := by
  unfold push
  split
  · split
    · rfl
    · simp
  · simp

theorem pushAll_append (b : Backlog) (first rest : List Event) :
    (b.pushAll (first ++ rest)).1 = ((b.pushAll first).1.pushAll rest).1 := by
  induction first generalizing b with
  | nil => rfl
  | cons e first ih => exact ih _

@[simp] theorem capacity_pushAll (b : Backlog) (es : List Event) :
    (b.pushAll es).1.capacity = b.capacity := by
  induction es generalizing b with
  | nil => rfl
  | cons e rest ih => rw [pushAll, ih, capacity_push]

theorem events_pushAll (b : Backlog) (es : List Event) :
    (b.pushAll es).1.events = (b.events ++ es).rtake b.capacity := by
  induction es generalizing b with
  | nil =>
    rw [pushAll, List.append_nil, List.rtake, Nat.sub_eq_zero_of_le b.length_events_le,
      List.drop_zero]
  | cons e rest ih =>
    rw [pushAll, ih, capacity_push, events_push_eq_rtake, rtake_rtake_append, List.append_assoc,
      List.singleton_append]

theorem evicted_append_events_pushAll (b : Backlog) (es : List Event) :
    (b.pushAll es).2 ++ (b.pushAll es).1.events = b.events ++ es := by
  induction es generalizing b with
  | nil => simp [pushAll]
  | cons e rest ih =>
    rw [pushAll, List.append_assoc, ih, ← List.append_assoc, evicted_append_events_push,
      List.append_assoc, List.singleton_append]

theorem pushed_pushAll (b : Backlog) (es : List Event) :
    (b.pushAll es).1.pushed = b.pushed + UInt64.ofNat es.length := by
  induction es generalizing b with
  | nil => simp [pushAll]
  | cons e rest ih =>
    rw [pushAll, ih, pushed_push, List.length_cons, UInt64.ofNat_add, UInt64.add_assoc,
      UInt64.add_comm 1]
    rfl

theorem drained_pushAll (b : Backlog) (es : List Event) :
    (b.pushAll es).1.drained = b.drained := by
  induction es generalizing b with
  | nil => rfl
  | cons e rest ih => rw [pushAll, ih, drained_push]

theorem evictedCount_pushAll (b : Backlog) (es : List Event) :
    (b.pushAll es).1.evicted = b.evicted + UInt64.ofNat (b.pushAll es).2.length := by
  induction es generalizing b with
  | nil => simp [pushAll]
  | cons e rest ih =>
    rw [pushAll, ih, evictedCount_push, List.length_append, UInt64.ofNat_add, UInt64.add_assoc]

/-! ### Turns

A turn keeps the backlog that was asked, since a clear does not answer with what it
discards. -/

/-- One command of a history: the backlog before it, the command, the reply. -/
structure Turn where
  before : Backlog
  command : Command
  reply : Reply

namespace Turn

/-- The events that were pushed. -/
def pushed (t : Turn) : List Event :=
  match t.command with
  | .push e => [e]
  | .pushAll events => events
  | _ => []

/-- The events that pushes gave up. -/
def evicted (t : Turn) : List Event :=
  match t.command, t.reply with
  | .push _, .evicted e => e.toList
  | .pushAll events, _ => (t.before.pushAll events).2
  | _, _ => []

/-- The events that a drain handed out. -/
def drained (t : Turn) : List Event :=
  match t.command, t.reply with
  | .drain, .events events => events
  | _, _ => []

/-- The events that a clear discarded. -/
def cleared (t : Turn) : List Event :=
  match t.command with
  | .clear => t.before.events
  | _ => []

/-- The events that left the backlog; no command lets go of any in two ways. -/
def left (t : Turn) : List Event := t.evicted ++ t.drained ++ t.cleared

end Turn

/-- What a command does to a backlog, as a turn. -/
def turn (b : Backlog) (c : Command) : Turn := ⟨b, c, (b.perform c).2⟩

/-- The turns of a history. -/
def turns (b : Backlog) : List Command → List Turn
  | [] => []
  | c :: rest => b.turn c :: (b.perform c).1.turns rest

/-- The events pushed since the backlog was last emptied, given those before a command. -/
def fresh (events : List Event) : Command → List Event
  | .push e => events ++ [e]
  | .pushAll more => events ++ more
  | .drain => []
  | .clear => []
  | _ => events

theorem run_cons (b : Backlog) (c : Command) (rest : List Command) :
    (b.run (c :: rest)).1 = ((b.perform c).1.run rest).1 := rfl

/-- The turns hold the replies that the history gave. -/
theorem map_reply_turns (b : Backlog) (commands : List Command) :
    (b.turns commands).map (·.reply) = (b.run commands).2 := by
  induction commands generalizing b with
  | nil => rfl
  | cons c rest ih => rw [turns, List.map_cons, ih]; rfl

/-! ### One turn -/

theorem capacity_perform (b : Backlog) (c : Command) :
    (b.perform c).1.capacity = b.capacity := by
  cases c with
  | push e => exact b.capacity_push e
  | pushAll events => exact b.capacity_pushAll events
  | _ => rfl

/-- A turn moves events from the front of what is held to what left, and adds what was
pushed behind it. -/
theorem left_append_events_perform (b : Backlog) (c : Command) :
    (b.turn c).left ++ (b.perform c).1.events = b.events ++ (b.turn c).pushed := by
  cases c with
  | push e =>
    have h := b.evicted_append_events_push e
    simpa [turn, perform, Turn.left, Turn.evicted, Turn.drained, Turn.cleared, Turn.pushed] using h
  | pushAll events =>
    have h := b.evicted_append_events_pushAll events
    simpa [turn, perform, Turn.left, Turn.evicted, Turn.drained, Turn.cleared, Turn.pushed] using h
  | drain =>
    show ([] ++ b.events ++ []) ++ [] = b.events ++ []
    simp
  | _ => simp [turn, perform, Turn.left, Turn.evicted, Turn.drained, Turn.cleared, Turn.pushed]

/-- What is held after a turn is the end of what is fresh after it. -/
theorem events_perform {b : Backlog} {events : List Event}
    (h : b.events = events.rtake b.capacity) (c : Command) :
    (b.perform c).1.events = (fresh events c).rtake b.capacity := by
  cases c with
  | push e => exact (b.events_push_eq_rtake e).trans (by rw [h, rtake_rtake_append]; rfl)
  | pushAll more => exact (b.events_pushAll more).trans (by rw [h, rtake_rtake_append]; rfl)
  | drain => simp [perform, fresh]
  | clear => simp [perform, fresh]
  | _ => exact h

theorem pushed_perform (b : Backlog) (c : Command) :
    (b.perform c).1.pushed = b.pushed + UInt64.ofNat (b.turn c).pushed.length := by
  cases c with
  | push e => exact b.pushed_push e
  | pushAll events => exact b.pushed_pushAll events
  | _ => exact (UInt64.add_zero _).symm

theorem evicted_perform (b : Backlog) (c : Command) :
    (b.perform c).1.evicted = b.evicted + UInt64.ofNat (b.turn c).evicted.length := by
  cases c with
  | push e => exact b.evictedCount_push e
  | pushAll events => exact b.evictedCount_pushAll events
  | _ => exact (UInt64.add_zero _).symm

theorem drained_perform (b : Backlog) (c : Command) :
    (b.perform c).1.drained = b.drained + UInt64.ofNat (b.turn c).drained.length := by
  cases c with
  | push e => exact (b.drained_push e).trans (UInt64.add_zero _).symm
  | pushAll events => exact (b.drained_pushAll events).trans (UInt64.add_zero _).symm
  | drain => exact congrArg (b.drained + UInt64.ofNat ·) b.len_eq_length
  | _ => exact (UInt64.add_zero _).symm

/-! ### Histories -/

theorem capacity_run (b : Backlog) (commands : List Command) :
    (b.run commands).1.capacity = b.capacity := by
  induction commands generalizing b with
  | nil => rfl
  | cons c rest ih => rw [run_cons, ih, capacity_perform]

/-- **Nothing is lost, repeated or reordered.** What left, in the order in which it left,
and then what is held, is what was held at first and then what was pushed. -/
theorem left_append_events_run (b : Backlog) (commands : List Command) :
    (b.turns commands).flatMap Turn.left ++ (b.run commands).1.events =
      b.events ++ (b.turns commands).flatMap Turn.pushed := by
  induction commands generalizing b with
  | nil => simp [turns, run]
  | cons c rest ih =>
    rw [turns, List.flatMap_cons, List.flatMap_cons, run_cons, List.append_assoc, ih,
      ← List.append_assoc, left_append_events_perform, List.append_assoc]

/-- A backlog that holds the end of some events goes on to hold the end of what is fresh. -/
theorem events_run {b : Backlog} {events : List Event} (h : b.events = events.rtake b.capacity)
    (commands : List Command) :
    (b.run commands).1.events = (commands.foldl fresh events).rtake b.capacity := by
  induction commands generalizing b events with
  | nil => exact h
  | cons c rest ih =>
    have hc := capacity_perform b c
    rw [run_cons, List.foldl_cons, ← hc]
    exact ih (by rw [events_perform h, hc])

/-- A counter that every turn raises by the number of certain events is raised by a
history by the number of all of them. -/
theorem counter_run (counter : Backlog → UInt64) (events : Turn → List Event)
    (hstep : ∀ b c, counter (b.perform c).1 = counter b + UInt64.ofNat (events (b.turn c)).length)
    (b : Backlog) (commands : List Command) :
    counter (b.run commands).1 =
      counter b + UInt64.ofNat ((b.turns commands).flatMap events).length := by
  induction commands generalizing b with
  | nil => exact (UInt64.add_zero _).symm
  | cons c rest ih =>
    rw [run_cons, ih, hstep, turns, List.flatMap_cons, List.length_append, UInt64.ofNat_add,
      UInt64.add_assoc]

/-- Such a counter, counting from zero, is the number of the events if a word can count
them. -/
theorem toNat_counter_run {counter : Backlog → UInt64} {events : Turn → List Event}
    (hstep : ∀ b c, counter (b.perform c).1 = counter b + UInt64.ofNat (events (b.turn c)).length)
    {b : Backlog} (hzero : counter b = 0) {commands : List Command}
    (hfew : ((b.turns commands).flatMap events).length < UInt64.size) :
    (counter (b.run commands).1).toNat = ((b.turns commands).flatMap events).length := by
  rw [counter_run counter events hstep, hzero, UInt64.zero_add]
  exact UInt64.toNat_ofNat_of_lt' hfew

/-- The events that left, by the way in which they did. -/
theorem length_flatMap_left (turns : List Turn) :
    (turns.flatMap Turn.left).length = (turns.flatMap Turn.evicted).length +
      (turns.flatMap Turn.drained).length + (turns.flatMap Turn.cleared).length := by
  induction turns with
  | nil => rfl
  | cons t rest ih =>
    simp only [List.flatMap_cons, List.length_append, ih, Turn.left]
    omega

/-! ### A fresh backlog -/

/-- **A backlog is a bounded first-in first-out store.** After any history of a fresh
backlog: it shows the last events pushed since it was last emptied, as many as it has room
for; a push gives up the oldest event if there is no room and none otherwise; what left
and what is held are what was pushed, in order; and, with fewer pushes than a word can
count, the counters count what the turns handed out, and what they leave over was
discarded. -/
theorem bounded_fifo (capacity : ℕ) (commands : List Command) :
    let start := ofCapacity capacity
    let b := (start.run commands).1
    let turns := start.turns commands
    let pushes := turns.flatMap Turn.pushed
    turns.map (·.reply) = (start.run commands).2 ∧
    b.capacity = max capacity 1 ∧
    (b.perform .contents).2 = .events ((commands.foldl fresh []).rtake b.capacity) ∧
    (∀ e, (b.len < b.capacity → (b.perform (.push e)).2 = .evicted none) ∧
      (b.capacity ≤ b.len → ∃ oldest rest, b.events = oldest :: rest ∧
        (b.perform (.push e)).2 = .evicted (some oldest))) ∧
    turns.flatMap Turn.left ++ b.events = pushes ∧
    (pushes.length < UInt64.size →
      b.stats.len = b.events.length ∧ b.stats.len ≤ b.stats.capacity ∧
      b.stats.capacity = b.capacity ∧
      b.stats.pushed.toNat = pushes.length ∧
      b.stats.evicted.toNat = (turns.flatMap Turn.evicted).length ∧
      b.stats.drained.toNat = (turns.flatMap Turn.drained).length ∧
      b.stats.pushed.toNat = b.stats.evicted.toNat + b.stats.drained.toNat + b.stats.len +
        (turns.flatMap Turn.cleared).length) := by
  intro start b turns pushes
  have hevents : b.events = (commands.foldl fresh []).rtake b.capacity := by
    rw [capacity_run]
    exact events_run (b := start) (List.rtake_nil start.capacity).symm commands
  have hleft : turns.flatMap Turn.left ++ b.events = pushes :=
    left_append_events_run start commands
  refine ⟨map_reply_turns start commands, capacity_run start commands,
    congrArg Reply.events hevents, fun e => ⟨fun hlt => ?_, fun hle => ?_⟩, hleft, fun hfew => ?_⟩
  · exact congrArg Reply.evicted (evicted_push_of_lt hlt e)
  · obtain ⟨oldest, rest, hb, he⟩ := evicted_push_of_le hle e
    exact ⟨oldest, rest, hb, congrArg Reply.evicted he⟩
  · have hlen := congrArg List.length hleft
    rw [List.length_append, length_flatMap_left] at hlen
    have hpushed : b.pushed.toNat = pushes.length := toNat_counter_run pushed_perform rfl hfew
    have hevicted : b.evicted.toNat = (turns.flatMap Turn.evicted).length := by
      refine toNat_counter_run evicted_perform rfl (show (turns.flatMap _).length < _ from ?_)
      omega
    have hdrained : b.drained.toNat = (turns.flatMap Turn.drained).length := by
      refine toNat_counter_run drained_perform rfl (show (turns.flatMap _).length < _ from ?_)
      omega
    refine ⟨b.len_eq_length, b.size_le, rfl, hpushed, hevicted, hdrained, ?_⟩
    show b.pushed.toNat = b.evicted.toNat + b.drained.toNat + b.len + _
    rw [hpushed, hevicted, hdrained, len_eq_length]
    omega

end Backlog

end TraceBacklog
