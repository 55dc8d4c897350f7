/-
# The bounded backlog

A first-in first-out store of events that holds at most `capacity` of them: when it is
full, the oldest event makes room for the newest. It counts what was ever pushed, what
was evicted and what was handed out by draining; the counters are 64-bit words.

Key definitions: `Backlog`, `Backlog.new`, `Backlog.push`, `Backlog.drain`,
`Backlog.clear`, `Backlog.filter`, `Backlog.stats`.
Key lemmas: `Backlog.events_push`, `Backlog.evicted_push`.
-/
import TraceBacklog.Event
import TraceBacklog.Queue

namespace TraceBacklog

/-- What a backlog has done since it was made. -/
structure Stats where
  len : Nat
  capacity : Nat
  pushed : UInt64
  evicted : UInt64
  drained : UInt64
deriving DecidableEq, Repr

/-- A bounded store of events. -/
structure Backlog where
  held : Queue Event
  capacity : Nat
  pushed : UInt64
  evicted : UInt64
  drained : UInt64
  capacity_pos : 0 < capacity
  size_le : held.size ≤ capacity

namespace Backlog

/-- An empty backlog for at least one event. -/
def ofCapacity (capacity : Nat) : Backlog :=
  ⟨.empty, max capacity 1, 0, 0, 0, by omega, Nat.zero_le _⟩

instance : Inhabited Backlog := ⟨ofCapacity 1⟩

/-- Room is set aside at once, eight bytes an event; a capacity whose room has no size
in signed 64 bits cannot be had. -/
def fits (capacity : Nat) : Bool := max capacity 1 * 8 < signedBound

/-- An empty backlog, if its room can be had. -/
def new (capacity : Nat) : Except Abort Backlog :=
  if fits capacity then .ok (ofCapacity capacity) else .error .capacityOverflow

/-- The events held, oldest first. -/
def events (b : Backlog) : List Event := b.held.toList

def len (b : Backlog) : Nat := b.held.size

def isEmpty (b : Backlog) : Bool := b.len = 0

def isFull (b : Backlog) : Bool := b.capacity ≤ b.len

def stats (b : Backlog) : Stats := ⟨b.len, b.capacity, b.pushed, b.evicted, b.drained⟩

theorem size_lt_of_not_isFull {b : Backlog} (h : ¬ b.isFull = true) : b.held.size < b.capacity :=
  Nat.lt_of_not_le fun hle => h (decide_eq_true hle)

/-- Adds the newest event. A full backlog gives up its oldest one for it. -/
def push (b : Backlog) (e : Event) : Backlog × Option Event :=
  if h : b.isFull then
    match hp : b.held.pop? with
    | some (old, rest) =>
      ({ b with held := rest.push e, pushed := b.pushed + 1, evicted := b.evicted + 1,
                size_le := Nat.le_trans (Nat.le_of_eq (Queue.size_of_pop? hp).symm) b.size_le },
        some old)
    | none =>
      ({ b with held := Queue.empty.push e, pushed := b.pushed + 1,
                size_le := b.capacity_pos }, none)
  else
    ({ b with held := b.held.push e, pushed := b.pushed + 1,
              size_le := size_lt_of_not_isFull h }, none)

/-- Hands out all events, oldest first. -/
def drain (b : Backlog) : Backlog × List Event :=
  ({ b with held := .empty, drained := b.drained + UInt64.ofNat b.len,
            size_le := Nat.zero_le _ }, b.events)

/-- Discards all events. -/
def clear (b : Backlog) : Backlog := { b with held := .empty, size_le := Nat.zero_le _ }

/-- The events that satisfy a predicate, oldest first. -/
def filter (b : Backlog) (p : Event → Bool) : List Event := b.events.filter p

theorem len_eq_length (b : Backlog) : b.len = b.events.length := b.held.size_eq_length

theorem isFull_iff (b : Backlog) : b.isFull = true ↔ b.capacity ≤ b.events.length := by
  simp [isFull, len_eq_length]

/-- A full backlog has an oldest event. -/
theorem events_ne_nil_of_isFull {b : Backlog} (h : b.isFull = true) : b.events ≠ [] := by
  have := (isFull_iff b).1 h
  have := b.capacity_pos
  intro hnil
  simp [hnil] at *
  omega

/-- A push shows as the event at the end, without the oldest one if there was no room. -/
theorem events_push (b : Backlog) (e : Event) :
    (b.push e).1.events = (if b.isFull then b.events.tail else b.events) ++ [e] := by
  unfold push
  split
  · next hfull =>
    split
    · next old rest h =>
      have := Queue.toList_of_pop? h
      simp [events, this]
    · next h => exact absurd (Queue.toList_of_pop?_eq_none h) (events_ne_nil_of_isFull hfull)
  · simp [events]

/-- What a push gives up is the oldest event, and nothing while there is room. -/
theorem evicted_push (b : Backlog) (e : Event) :
    (b.push e).2 = if b.isFull then b.events.head? else none := by
  unfold push
  split
  · next hfull =>
    split
    · next old rest h =>
      have := Queue.toList_of_pop? h
      simp [events, this]
    · next h => exact absurd (Queue.toList_of_pop?_eq_none h) (events_ne_nil_of_isFull hfull)
  · rfl

@[simp] theorem capacity_push (b : Backlog) (e : Event) :
    (b.push e).1.capacity = b.capacity := by
  unfold push
  split
  · split <;> rfl
  · rfl

@[simp] theorem events_drain (b : Backlog) : b.drain.1.events = [] := rfl

@[simp] theorem events_clear (b : Backlog) : b.clear.events = [] := rfl

end Backlog

end TraceBacklog
