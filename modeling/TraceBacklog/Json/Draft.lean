/-
# A JSON text as far as it reads

A `Draft` is the tree of a JSON text before anybody has asked what its values mean:
texts and numbers are still literals, keys may repeat, and the place where the text
breaks down, if it does, is a leaf of the tree. Readers walk a draft in text order and
stop at the first thing that is wrong for them, so the first problem in the text wins,
whether it lies in the text or in what it says.

Key definitions: `Draft`, `Document`, `Document.ofChars`, `Draft.skip`.
-/
import TraceBacklog.Json.Token

namespace TraceBacklog

/-- How the fields of an object end: with its closing brace, with a fault after a
field, or with a fault where a key should stand. -/
inductive FieldsEnd where
  | closed
  | fault (f : Fault)
  | noKey (f : Fault)
deriving DecidableEq, Repr

/-- The tree of a JSON text as far as it reads. -/
inductive Draft where
  | null
  | bool (b : Bool)
  | number (n : Literal)
  | text (t : TextLiteral)
  /-- Items, and what is wrong where the array should go on or end. -/
  | array (items : List Draft) (fault : Option Fault)
  | object (fields : List (TextLiteral × Draft)) (ending : FieldsEnd)
  /-- Where a value should stand none starts: the text ends there, or goes on with
  something else. -/
  | absent (fault : Fault)
  /-- A value starts and breaks off; what those who want it and those who pass over it
  find. -/
  | broken (read skip : Fault)
deriving Repr, Inhabited

/-- What is found where something else should stand: a wrong word, or the end. -/
def Fault.ofFound : Option Token → Fault
  | none => .endOfText
  | some _ => .malformed

/-- What is wrong with the end of an object. -/
def FieldsEnd.fault? : FieldsEnd → Option Fault
  | .closed => none
  | .fault f => some f
  | .noKey f => some f

namespace Draft

/-- A tree, and the words after it unless the text broke down in it. -/
abbrev Rest (α : Type) := α × Option (List Token)

mutual

/-- Reads a value. -/
def read : Nat → List Token → Rest Draft
  | 0, _ => (.absent .endOfText, none)
  | _ + 1, [] => (.absent .endOfText, none)
  | fuel + 1, t :: rest =>
    match t with
    | .null => (.null, some rest)
    | .bool b => (.bool b, some rest)
    | .number n => (.number n, some rest)
    | .text s => (.text s, if s.fault.isSome then none else some rest)
    | .openArray =>
      match rest with
      | .closeArray :: rest => (.array [] none, some rest)
      | _ => readItems fuel rest
    | .openObject =>
      match rest with
      | .closeObject :: rest => (.object [] .closed, some rest)
      | _ => readFields fuel rest
    | .broken r s => (.broken r s, none)
    | _ => (.absent .malformed, none)

/-- Reads the items of an array from the next one on. -/
def readItems : Nat → List Token → Rest Draft
  | 0, _ => (.array [] (some .endOfText), none)
  | fuel + 1, ts =>
    match read fuel ts with
    | (v, none) => (.array [v] (some .malformed), none)
    | (v, some (.closeArray :: rest)) => (.array [v] none, some rest)
    | (v, some (.comma :: rest)) =>
      match readItems fuel rest with
      | (.array items fault, rest) => (.array (v :: items) fault, rest)
      | (other, rest) => (other, rest)
    | (v, some rest) => (.array [v] (some (.ofFound rest.head?)), none)

/-- Reads the fields of an object from the next one on. -/
def readFields : Nat → List Token → Rest Draft
  | 0, _ => (.object [] (.noKey .endOfText), none)
  | fuel + 1, ts =>
    match ts with
    | .text key :: .colon :: rest =>
      match read fuel rest with
      | (v, none) => (.object [(key, v)] (.fault .malformed), none)
      | (v, some (.closeObject :: rest)) => (.object [(key, v)] .closed, some rest)
      | (v, some (.comma :: rest)) =>
        match readFields fuel rest with
        | (.object fields ending, rest) => (.object ((key, v) :: fields) ending, rest)
        | (other, rest) => (other, rest)
      | (v, some rest) => (.object [(key, v)] (.fault (.ofFound rest.head?)), none)
    | .text key :: rest =>
      (.object [(key, .absent (.ofFound rest.head?))] (.fault .malformed), none)
    | _ => (.object [] (.noKey (.ofFound ts.head?)), none)

end

mutual

/-- Passes over a value: the first fault in it, for one who wants none of it. -/
def skip : Draft → Option Fault
  | .text t => t.fault
  | .array items fault => (skipItems items).or fault
  | .object fields ending => (skipFields fields).or ending.fault?
  | .absent f => some f
  | .broken _ s => some s
  | _ => none

def skipItems : List Draft → Option Fault
  | [] => none
  | v :: rest => v.skip.or (skipItems rest)

def skipFields : List (TextLiteral × Draft) → Option Fault
  | [] => none
  | (key, v) :: rest => (key.fault.or v.skip).or (skipFields rest)

end

end Draft

/-- A whole text: its value, and what is wrong after it. -/
structure Document where
  root : Draft
  fault : Option Fault
deriving Repr

/-- Reads the words of a text. -/
def Document.ofTokens (ts : List Token) : Document :=
  match Draft.read (2 * ts.length + 1) ts with
  | (root, some (_ :: _)) => ⟨root, some .malformed⟩
  | (root, _) => ⟨root, none⟩

/-- Reads a text. -/
def Document.ofChars (cs : List Char) : Document := .ofTokens (tokens cs)

end TraceBacklog
