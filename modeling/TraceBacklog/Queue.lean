/-
# First-in first-out queues

Items leave in the order in which they came. The queue is two lists, the oldest items
in order and the newest in reverse, and knows its size, so that an item enters and
leaves in constant time on average. What it holds, oldest first, is `Queue.toList`;
everything else is said of that list.

Key definitions: `Queue`, `Queue.push`, `Queue.pop?`, `Queue.toList`.
Key lemmas: `Queue.toList_push`, `Queue.toList_of_pop?`, `Queue.size_eq_length`.
-/

namespace TraceBacklog

/-- Items in the order of their arrival. -/
structure Queue (α : Type) where
  front : List α
  back : List α
  size : Nat
  size_eq : size = front.length + back.length

namespace Queue

variable {α : Type}

/-- The items, oldest first. -/
def toList (q : Queue α) : List α := q.front ++ q.back.reverse

def empty : Queue α := ⟨[], [], 0, rfl⟩

instance : Inhabited (Queue α) := ⟨empty⟩

/-- Adds the newest item. -/
def push (q : Queue α) (a : α) : Queue α :=
  ⟨q.front, a :: q.back, q.size + 1, by rw [List.length_cons, q.size_eq]; omega⟩

/-- Takes the oldest item out. -/
def pop? (q : Queue α) : Option (α × Queue α) :=
  match h : q.front with
  | a :: front =>
    some (a, ⟨front, q.back, q.size - 1, by rw [q.size_eq, h, List.length_cons]; omega⟩)
  | [] =>
    match h' : q.back.reverse with
    | a :: front =>
      some (a, ⟨front, [], q.size - 1, by
        have := congrArg List.length h'
        simp at this
        simp [q.size_eq, h, this]⟩)
    | [] => none

@[simp] theorem toList_empty : (empty : Queue α).toList = [] := rfl

@[simp] theorem toList_push (q : Queue α) (a : α) : (q.push a).toList = q.toList ++ [a] := by
  simp [toList, push]

theorem size_eq_length (q : Queue α) : q.size = q.toList.length := by
  simp [toList, q.size_eq]

/-- The item that leaves is the oldest one. -/
theorem toList_of_pop? {q r : Queue α} {a : α} (h : q.pop? = some (a, r)) :
    q.toList = a :: r.toList := by
  unfold pop? at h
  split at h
  · next hf =>
    simp only [Option.some.injEq, Prod.mk.injEq] at h
    obtain ⟨rfl, rfl⟩ := h
    simp [toList, hf]
  · next hf =>
    split at h
    · next hb =>
      simp only [Option.some.injEq, Prod.mk.injEq] at h
      obtain ⟨rfl, rfl⟩ := h
      simp [toList, hf, hb]
    · cases h

theorem size_of_pop? {q r : Queue α} {a : α} (h : q.pop? = some (a, r)) :
    q.size = r.size + 1 := by
  rw [size_eq_length, size_eq_length, toList_of_pop? h, List.length_cons]

/-- Only an empty queue has no oldest item. -/
theorem toList_of_pop?_eq_none {q : Queue α} (h : q.pop? = none) : q.toList = [] := by
  unfold pop? at h
  split at h
  · cases h
  · next hf =>
    split at h
    · cases h
    · next hb => simp [toList, hf, hb]

end Queue

end TraceBacklog
