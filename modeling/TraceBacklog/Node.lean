/-
# Nodes and their ids

A node is one stage of a route as it was defined: a label, perhaps an id, and nodes
nested in it. Nodes are told apart by keys, which are numbered in the order of their
definition, a node before its children.

A node defined without an id may get one later. Ids given later stand in an `IdTable`
and are never replaced; an id from the definition is part of the node, so no table can
change it. New ids come from an `IdFactory`.

Key definitions: `Node`, `NodeSpec.define`, `IdTable`, `Node.id?`, `IdFactory`,
`Node.nameAll`, `Node.display`.
-/
import TraceBacklog.KeyMap

namespace TraceBacklog

/-- Tells nodes apart, whatever their ids. -/
structure NodeKey where
  index : Nat
deriving DecidableEq, Repr, Inhabited

def NodeKey.display (k : NodeKey) : String := "K" ++ toString k.index

/-- A stage of a route. -/
structure Node where
  key : NodeKey
  label : String
  givenId : Option String
  children : List Node
deriving Repr, Inhabited

/-- What a node is to be. -/
structure NodeSpec where
  label : String
  id : Option String
  children : List NodeSpec
deriving Repr, Inhabited

namespace NodeSpec

mutual

/-- Defines a node whose key is number `next`; gives back the next free number. -/
def define (next : Nat) : NodeSpec → Node × Nat
  | ⟨label, id, children⟩ =>
    let (nodes, after) := defineAll (next + 1) children
    (⟨⟨next⟩, label, id, nodes⟩, after)

/-- Defines nodes one after the other. -/
def defineAll (next : Nat) : List NodeSpec → List Node × Nat
  | [] => ([], next)
  | s :: rest =>
    let (n, after) := s.define next
    let (ns, last) := defineAll after rest
    (n :: ns, last)

end

end NodeSpec

/-- The ids that nodes got after their definition. -/
structure IdTable where
  entries : List (NodeKey × String)
deriving Repr

namespace IdTable

def empty : IdTable := ⟨[]⟩

instance : Inhabited IdTable := ⟨empty⟩

def get? (t : IdTable) (k : NodeKey) : Option String := findEntry k t.entries

/-- Gives an id to a key that has none. -/
def assign (t : IdTable) (k : NodeKey) (id : String) : IdTable :=
  match t.get? k with
  | some _ => t
  | none => ⟨(k, id) :: t.entries⟩

/-- An id in the table stays. -/
theorem get?_assign_of_some {t : IdTable} {k k' : NodeKey} {id id' : String}
    (h : t.get? k = some id) : (t.assign k' id').get? k = some id := by
  unfold assign
  cases hk : t.get? k' with
  | some _ => exact h
  | none =>
    have hne : k' ≠ k := by
      rintro rfl
      rw [h] at hk
      cases hk
    simpa [get?, findEntry, hne] using h

theorem get?_assign_self (t : IdTable) (k : NodeKey) (id : String) :
    (t.assign k id).get? k = some ((t.get? k).getD id) := by
  unfold assign
  cases hk : t.get? k with
  | some old => simp [hk]
  | none => simp [get?, findEntry]

end IdTable

namespace Node

/-- The id of a node: the one it was defined with, or else the one it got later. -/
def id? (n : Node) (t : IdTable) : Option String :=
  match n.givenId with
  | some id => some id
  | none => t.get? n.key

def hasId (n : Node) (t : IdTable) : Bool := (n.id? t).isSome

/-- Was the id part of the definition? -/
def hasCustomId (n : Node) : Bool := n.givenId.isSome

/-- Label and id; the key stands in for an id that is still missing. -/
def display (n : Node) (t : IdTable) : String :=
  n.label ++ "[" ++ (n.id? t).getD n.key.display ++ "]"

/-- Gives an id to a node that has none. -/
def initId (n : Node) (id : String) (t : IdTable) : IdTable :=
  match n.id? t with
  | some _ => t
  | none => t.assign n.key id

end Node

/-- Where new ids come from: a label with a number of its own count, from 1 on, a label
with a fixed text in front, or whatever somebody answers, one time after the other. What is
true for all `answers` is true of every factory, whatever it looks at. -/
inductive IdFactory where
  | counting (counts : KeyMap String UInt64)
  | leading (lead : String)
  | answering (answers : Nat → String) (given : Nat)

namespace IdFactory

/-- A factory that has counted nothing yet. -/
def fresh : IdFactory := .counting .empty

instance : Inhabited IdFactory := ⟨fresh⟩

/-- A new id for a node with this label. -/
def create (f : IdFactory) (label : String) : String × IdFactory :=
  match f with
  | .counting counts =>
    let n := (counts.get? label).getD 0 + 1
    (label ++ toString n.toNat, .counting (counts.insert label n))
  | .leading lead => (lead ++ label, f)
  | .answering answers given => (answers given, .answering answers (given + 1))

end IdFactory

namespace Node

/-- Gives the node an id of the factory unless it has one. -/
def name (n : Node) (f : IdFactory) (t : IdTable) : IdFactory × IdTable :=
  match n.id? t with
  | some _ => (f, t)
  | none =>
    let (id, f') := f.create n.label
    (f', t.assign n.key id)

mutual

/-- Gives an id to the node and to all nodes below it that have none: a node before its
children, children in order. -/
def nameAll (f : IdFactory) (t : IdTable) : Node → IdFactory × IdTable
  | ⟨key, label, givenId, children⟩ =>
    let (f, t) := name ⟨key, label, givenId, children⟩ f t
    nameEach f t children

/-- Does so for nodes one after the other. -/
def nameEach (f : IdFactory) (t : IdTable) : List Node → IdFactory × IdTable
  | [] => (f, t)
  | n :: rest =>
    let (f, t) := n.nameAll f t
    nameEach f t rest

end

/-- A named node has an id. -/
theorem hasId_name (n : Node) (f : IdFactory) (t : IdTable) : n.hasId (n.name f t).2 = true := by
  unfold name
  cases h : n.id? t with
  | some id => simp [hasId, h]
  | none =>
    have hg : n.givenId = none := by
      unfold id? at h
      cases hg : n.givenId with
      | none => rfl
      | some _ => simp [hg] at h
    simp [hasId, id?, hg, IdTable.get?_assign_self]

end Node

end TraceBacklog
