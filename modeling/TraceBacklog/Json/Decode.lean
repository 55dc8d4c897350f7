/-
# Reading values out of a draft

A `Reader` takes what it wants from a draft, or says what is wrong first. Simple
readers want one kind of value; `Record` describes a record by its fields and reads it
from an object, whose fields may come in any order and among unknown ones, or from an
array of the fields in their order.

Key definitions: `Reader`, `readWord`, `readBool`, `readText`, `readOption`,
`readMap`, `Variants.read`, `Record.read`, `Draft.toJson`, `Document.decode`,
`Json.ofChars`.
-/
import TraceBacklog.Json.Error
import TraceBacklog.Json.Value

namespace TraceBacklog

/-- Takes a value from a draft. -/
abbrev Reader (α : Type) := Draft → Except ReadError α

/-- A fault, if there is one, stops the reading. -/
def stopAt : Option Fault → Except ReadError Unit
  | none => .ok ()
  | some f => .error (.fault f)

/-- The text of a literal. -/
def TextLiteral.read (t : TextLiteral) : Except ReadError String :=
  match t.value with
  | .ok s => .ok s
  | .error f => .error (.fault f)

/-- The number of a literal. -/
def Literal.read (n : Literal) : Except ReadError Number :=
  match n.number? with
  | some v => .ok v
  | none => .error (.fault .malformed)

namespace Draft

/-- The error of a reader that wants something else than what stands here. Numbers and
texts are read first, and may have a fault of their own. -/
def unexpected (expected : String) : Draft → ReadError
  | .null => .mismatch (.unexpectedType .null expected)
  | .bool b => .mismatch (.unexpectedType (.bool b) expected)
  | .number n =>
    match n.read with
    | .ok v => .mismatch (.unexpectedType (.number v) expected)
    | .error e => e
  | .text t =>
    match t.read with
    | .ok s => .mismatch (.unexpectedType (.text s) expected)
    | .error e => e
  | .array _ _ => .mismatch (.unexpectedType .sequence expected)
  | .object _ _ => .mismatch (.unexpectedType .map expected)
  | .absent f => .fault f
  | .broken r _ => .fault r

end Draft

/-- Reads an unsigned 64-bit word. -/
def readWord (expected : String) : Reader UInt64
  | .number n => do
    match ← n.read with
    | .int v =>
      if 0 ≤ v then .ok (UInt64.ofNat v.toNat)
      else .error (.mismatch (.unexpectedInteger v expected))
    | .float x => .error (.mismatch (.unexpectedType (.number (.float x)) expected))
  | d => .error (d.unexpected expected)

/-- A size in memory. -/
def readSize : Reader UInt64 := readWord "usize"

def readBool : Reader Bool
  | .bool b => .ok b
  | d => .error (d.unexpected "a boolean")

def readText : Reader String
  | .text t => t.read
  | d => .error (d.unexpected "a string")

/-- Reads a value that may be absent. -/
def readOption {α : Type} (r : Reader α) : Reader (Option α)
  | .null => .ok none
  | d => (r d).map some

/-- Reads the entries of a map; the last one of a key counts. -/
def readEntries {α : Type} (r : Reader α) :
    KeyMap String α → List (TextLiteral × Draft) → Except ReadError (KeyMap String α)
  | m, [] => .ok m
  | m, (key, d) :: rest => do
    let k ← key.read
    let v ← r d
    readEntries r (m.insert k v) rest

def readMap {α : Type} (r : Reader α) : Reader (KeyMap String α)
  | .object fields ending => do
    let m ← readEntries r .empty fields
    stopAt ending.fault?
    return m
  | d => .error (d.unexpected "a map")

/-- A choice between names. -/
structure Variants (α : Type) where
  choices : List (String × α)

namespace Variants

variable {α : Type}

def find (v : Variants α) (name : String) : Except ReadError α :=
  match findEntry name v.choices with
  | some a => .ok a
  | none => .error (.mismatch (.unknownVariant name (v.choices.map (·.1))))

/-- A choice carries nothing. -/
def readNothing : Reader Unit
  | .null => .ok ()
  | d => .error (d.unexpected "unit")

/-- Reads a choice: its name, or an object with the name as its one key and `null` as
the value. Anything else is no choice from its first character on, whether or not it
goes on to be a value. -/
def read (v : Variants α) : Reader α
  | .text t => do v.find (← t.read)
  | .object [] (.noKey f) => .error (.fault f)
  | .object ((key, d) :: rest) ending => do
    let a ← v.find (← key.read)
    readNothing d
    match rest, ending with
    | [], .closed => return a
    | [], .fault f => .error (.fault f)
    | _, _ => .error (.fault .malformed)
  | .absent f => .error (.fault f)
  | _ => .error (.fault .malformed)

end Variants

/-- A field of a record that is being filled. -/
structure Field (σ : Type) where
  name : String
  isFilled : σ → Bool
  fill : Draft → σ → Except ReadError σ

/-- A field held in an optional slot. -/
def Field.slot {σ α : Type} (name : String) (r : Reader α) (get : σ → Option α)
    (set : σ → Option α → σ) : Field σ where
  name := name
  isFilled s := (get s).isSome
  fill d s := do return set s (some (← r d))

/-- A record: its name, its fields in their order, and what makes it out of filled
fields. A record with defaults may be given as an array that stops early. -/
structure Record (σ α : Type) where
  name : String
  fields : List (Field σ)
  start : σ
  finish : σ → Except ReadError α
  hasDefaults : Bool

namespace Record

variable {σ α : Type}

/-- Fills the fields of an object in their order in the text. Unknown fields are passed
over; a known one may not come twice. -/
def fillFields (r : Record σ α) : σ → List (TextLiteral × Draft) → Except ReadError σ
  | s, [] => .ok s
  | s, (key, d) :: rest => do
    let name ← key.read
    match r.fields.find? (fun f => f.name = name) with
    | none => do
      stopAt d.skip
      r.fillFields s rest
    | some f =>
      if f.isFilled s then .error (.mismatch (.duplicateField name))
      else do
        let s ← f.fill d s
        r.fillFields s rest

/-- What an array that is too short should have been. -/
def expectation (r : Record σ α) : String :=
  "struct " ++ r.name ++ " with " ++ toString r.fields.length ++
    (if r.fields.length = 1 then " element" else " elements")

/-- Fills fields from the items of an array, `index` of them being filled. -/
def fillItems (r : Record σ α) (fault : Option Fault) :
    Nat → List (Field σ) → List Draft → σ → Except ReadError σ
  | _, [], [], s => do
    stopAt fault
    return s
  | _, [], _ :: _, _ => .error (.fault .malformed)
  | index, _ :: _, [], s => do
    stopAt fault
    if r.hasDefaults then return s
    else .error (.mismatch (.wrongLength index r.expectation))
  | index, f :: fs, d :: ds, s => do
    let s ← f.fill d s
    r.fillItems fault (index + 1) fs ds s

/-- Reads a record. -/
def read (r : Record σ α) : Reader α
  | .object fields ending => do
    let s ← r.fillFields r.start fields
    stopAt ending.fault?
    r.finish s
  | .array items fault => do
    let s ← r.fillItems fault 0 r.fields items r.start
    r.finish s
  | d => .error (d.unexpected ("struct " ++ r.name))

end Record

/-- The value of a slot that must have been filled. -/
def required {α : Type} (name : String) : Option α → Except ReadError α
  | some a => .ok a
  | none => .error (.mismatch (.missingField name))

/-- How deep values may nest. -/
def depthLimit : Nat := 128

namespace Draft

mutual

/-- Reads any value; `depth` more levels than this one may follow. -/
def toJson (depth : Nat) : Draft → Except ReadError Json
  | .null => .ok .null
  | .bool b => .ok (.bool b)
  | .number n => do return .number (← n.read)
  | .text t => do return .string (← t.read)
  | .array items fault =>
    if depth ≤ 1 then .error (.fault .malformed)
    else do
      let vs ← itemsToJson (depth - 1) items
      stopAt fault
      return .array vs
  | .object fields ending =>
    if depth ≤ 1 then .error (.fault .malformed)
    else do
      let entries ← fieldsToJson (depth - 1) fields
      stopAt ending.fault?
      return .ofMap (.ofList entries)
  | .absent f => .error (.fault f)
  | .broken r _ => .error (.fault r)

def itemsToJson (depth : Nat) : List Draft → Except ReadError (List Json)
  | [] => .ok []
  | d :: rest => do
    let v ← d.toJson depth
    let vs ← itemsToJson depth rest
    return v :: vs

def fieldsToJson (depth : Nat) :
    List (TextLiteral × Draft) → Except ReadError (List (String × Json))
  | [] => .ok []
  | (key, d) :: rest => do
    let k ← key.read
    let v ← d.toJson depth
    let kvs ← fieldsToJson depth rest
    return (k, v) :: kvs

end

end Draft

/-- Reads a whole text: first its value, then that nothing follows. -/
def Document.decode {α : Type} (doc : Document) (r : Reader α) : Except ReadError α := do
  let a ← r doc.root
  stopAt doc.fault
  return a

/-- Reads a text by a reader. -/
def decodeChars {α : Type} (r : Reader α) (cs : List Char) : Except ReadError α :=
  (Document.ofChars cs).decode r

/-- Reads a text as any JSON value. -/
def Json.ofChars (cs : List Char) : Except ReadError Json :=
  decodeChars (Draft.toJson depthLimit) cs

end TraceBacklog
