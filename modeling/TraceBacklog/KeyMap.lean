/-
# Maps in key order

A `KeyMap` holds one value for each of its keys and lists them by key; texts as keys
are ordered code point by code point, which is the order of their UTF-8 bytes. The
order is part of the type, so a map is determined by its entries and two histories that
end in the same entries end in the same map.

Key definitions: `KeyMap`, `KeyMap.insert`, `KeyMap.erase`, `KeyMap.get?`.
Key lemmas: `KeyMap.get?_insert`, `KeyMap.get?_erase`.
-/

namespace TraceBacklog

section Entries

variable {κ : Type} [LT κ] [DecidableLT κ] [DecidableEq κ]

/-- Puts a value where its key belongs, in place of the value the key had. -/
def insertEntry {α : Type} (key : κ) (value : α) : List (κ × α) → List (κ × α)
  | [] => [(key, value)]
  | (k, v) :: rest =>
    if key < k then (key, value) :: (k, v) :: rest
    else if key = k then (key, value) :: rest
    else (k, v) :: insertEntry key value rest

/-- Each key is below the keys after it. -/
def Ascending {κ α : Type} [LT κ] (entries : List (κ × α)) : Prop :=
  entries.Pairwise fun a b => a.1 < b.1

theorem mem_insertEntry {α : Type} {key : κ} {value : α} {e : κ × α} :
    ∀ {entries : List (κ × α)}, e ∈ insertEntry key value entries →
      e = (key, value) ∨ e ∈ entries
  | [], h => by simpa [insertEntry] using h
  | (k, v) :: rest, h => by
    simp only [insertEntry] at h
    split at h
    · simpa using h
    · split at h
      · rcases List.mem_cons.1 h with h | h
        · exact .inl h
        · exact .inr (List.mem_cons_of_mem _ h)
      · rcases List.mem_cons.1 h with h | h
        · exact .inr (h ▸ List.mem_cons_self)
        · rcases mem_insertEntry h with h | h
          · exact .inl h
          · exact .inr (List.mem_cons_of_mem _ h)

theorem lt_of_not_lt_of_ne {κ : Type} [LT κ] [LE κ] [Std.IsLinearOrder κ] [Std.LawfulOrderLT κ]
    {a b : κ} (h : ¬ a < b) (hne : a ≠ b) : b < a := by
  rcases Std.le_total (a := a) (b := b) with hab | hab
  · exact absurd (Std.lt_of_le_of_ne hab hne) h
  · exact Std.lt_of_le_of_ne hab (Ne.symm hne)

theorem ascending_insertEntry {α : Type} [LE κ] [Std.IsLinearOrder κ] [Std.LawfulOrderLT κ]
    (key : κ) (value : α) :
    ∀ {entries : List (κ × α)}, Ascending entries → Ascending (insertEntry key value entries)
  | [], _ => by simp [insertEntry, Ascending]
  | (k, v) :: rest, h => by
    have hrest := List.pairwise_cons.1 h
    simp only [insertEntry]
    split
    · next hlt =>
      refine List.pairwise_cons.2 ⟨fun e he => ?_, h⟩
      rcases List.mem_cons.1 he with rfl | he
      · exact hlt
      · exact Std.lt_trans hlt (hrest.1 e he)
    · split
      · next heq =>
        subst heq
        exact List.pairwise_cons.2 ⟨hrest.1, hrest.2⟩
      · next hlt hne =>
        refine List.pairwise_cons.2 ⟨fun e he => ?_, ascending_insertEntry key value hrest.2⟩
        rcases mem_insertEntry he with rfl | he
        · exact lt_of_not_lt_of_ne hlt hne
        · exact hrest.1 e he

/-- A key above all others goes to the end. -/
theorem insertEntry_of_forall_lt {α : Type} [LE κ] [Std.IsLinearOrder κ] [Std.LawfulOrderLT κ]
    {key : κ} (value : α) :
    ∀ {entries : List (κ × α)}, (∀ e ∈ entries, e.1 < key) →
      insertEntry key value entries = entries ++ [(key, value)]
  | [], _ => rfl
  | (k, v) :: rest, h => by
    have hk : k < key := h (k, v) List.mem_cons_self
    have hne : key ≠ k := fun heq => Std.lt_irrefl (heq ▸ hk)
    rw [insertEntry, if_neg fun hlt => Std.lt_irrefl (Std.lt_trans hlt hk), if_neg hne,
      insertEntry_of_forall_lt value fun e he => h e (List.mem_cons_of_mem _ he)]
    rfl

/-- The value found first under a key. -/
def findEntry {κ α : Type} [DecidableEq κ] (key : κ) : List (κ × α) → Option α
  | [] => none
  | (k, v) :: rest => if k = key then some v else findEntry key rest

theorem findEntry_insertEntry {α : Type} (key : κ) (value : α) (other : κ) :
    ∀ entries : List (κ × α), findEntry other (insertEntry key value entries) =
      if key = other then some value else findEntry other entries
  | [] => by simp [insertEntry, findEntry]
  | (k, v) :: rest => by
    simp only [insertEntry]
    split
    · simp [findEntry]
    · split
      · next heq => subst heq; simp only [findEntry]; split <;> rfl
      · next hne =>
        simp only [findEntry, findEntry_insertEntry key value other rest]
        split
        · next hk => rw [if_neg]; rintro rfl; exact hne hk.symm
        · rfl

/-- What is left when a key goes. -/
theorem findEntry_filter_ne {κ α : Type} [DecidableEq κ] (key other : κ) :
    ∀ entries : List (κ × α), findEntry other (entries.filter (·.1 ≠ key)) =
      if key = other then none else findEntry other entries
  | [] => by simp [findEntry]
  | (k, v) :: rest => by
    have ih := findEntry_filter_ne key other rest
    by_cases hk : k = key
    · subst hk
      simp only [ne_eq, not_true_eq_false, decide_false, Bool.false_eq_true, not_false_eq_true,
        List.filter_cons_of_neg, findEntry] at ih ⊢
      rw [ih]
      split <;> rfl
    · simp only [ne_eq, hk, not_false_eq_true, decide_true, List.filter_cons_of_pos, findEntry]
        at ih ⊢
      rw [ih]
      by_cases ho : k = other
      · simp only [ho, if_true]
        rw [if_neg]
        rintro rfl
        exact hk ho
      · simp [ho]

end Entries

/-- Values by key, listed in key order. -/
structure KeyMap (κ α : Type) [LT κ] where
  entries : List (κ × α)
  ascending : Ascending entries

namespace KeyMap

section Core

variable {κ α : Type} [LT κ]

/-- A map is determined by its entries. -/
theorem eq_of_entries {m n : KeyMap κ α} (h : m.entries = n.entries) : m = n := by
  cases m
  cases n
  cases h
  rfl

instance [DecidableEq κ] [DecidableEq α] : DecidableEq (KeyMap κ α) := fun a b =>
  if h : a.entries = b.entries then
    isTrue (by cases a; cases b; simp at h; subst h; rfl)
  else isFalse fun hab => h (hab ▸ rfl)

instance [Repr κ] [Repr α] : Repr (KeyMap κ α) := ⟨fun m _ => repr m.entries⟩

def empty : KeyMap κ α := ⟨[], List.Pairwise.nil⟩

instance : Inhabited (KeyMap κ α) := ⟨empty⟩

def size (m : KeyMap κ α) : Nat := m.entries.length

def isEmpty (m : KeyMap κ α) : Bool := m.entries.isEmpty

/-- The values, by key. -/
def values (m : KeyMap κ α) : List α := m.entries.map (·.2)

/-- The same keys with other values. -/
def map {β : Type} (f : α → β) (m : KeyMap κ α) : KeyMap κ β :=
  ⟨m.entries.map fun e => (e.1, f e.2), by
    have h := m.ascending
    unfold Ascending at h ⊢
    exact List.pairwise_map.2 h⟩

variable [DecidableEq κ]

def get? (m : KeyMap κ α) (key : κ) : Option α := findEntry key m.entries

def contains (m : KeyMap κ α) (key : κ) : Bool := (m.get? key).isSome

/-- Drops a key and its value. -/
def erase (m : KeyMap κ α) (key : κ) : KeyMap κ α :=
  ⟨m.entries.filter (·.1 ≠ key), m.ascending.filter _⟩

@[simp] theorem get?_empty (key : κ) : (empty : KeyMap κ α).get? key = none := rfl

theorem get?_erase (m : KeyMap κ α) (key other : κ) :
    (m.erase key).get? other = if key = other then none else m.get? other :=
  findEntry_filter_ne key other m.entries

end Core

section Insert

variable {κ α : Type} [LT κ] [DecidableLT κ] [DecidableEq κ] [LE κ] [Std.IsLinearOrder κ]
  [Std.LawfulOrderLT κ]

/-- Sets the value of a key. -/
def insert (m : KeyMap κ α) (key : κ) (value : α) : KeyMap κ α :=
  ⟨insertEntry key value m.entries, ascending_insertEntry key value m.ascending⟩

/-- Sets the entries of a list one after the other, so the last one of a key counts. -/
def ofList (entries : List (κ × α)) : KeyMap κ α :=
  entries.foldl (fun m e => m.insert e.1 e.2) empty

theorem get?_insert (m : KeyMap κ α) (key : κ) (value : α) (other : κ) :
    (m.insert key value).get? other = if key = other then some value else m.get? other :=
  findEntry_insertEntry key value other m.entries

end Insert

end KeyMap

end TraceBacklog
