/-
# Tracer configuration

How much a tracer keeps, how much it reports as current, whether it starts enabled,
what it does about messages without a snapshot, and where it clips bodies. A
configuration is read from a JSON text; fields that are not given have their default.

Key definitions: `LossPolicy`, `Config`, `Config.validate`, `Config.toJson`,
`Config.ofChars`, `Config.ofFile`.
-/
import TraceBacklog.Failure
import TraceBacklog.Json.Decode

namespace TraceBacklog

/-- What to do about a message that has no snapshot. The exchange goes on in any case;
the policy decides how visible the lost event is. -/
inductive LossPolicy where
  | ignore
  | count
  | log
deriving DecidableEq, Repr, Inhabited

namespace LossPolicy

def name : LossPolicy → String
  | .ignore => "ignore"
  | .count => "count"
  | .log => "log"

def variants : Variants LossPolicy :=
  ⟨[.ignore, .count, .log].map fun p => (p.name, p)⟩

def reader : Reader LossPolicy := variants.read

end LossPolicy

/-- A configuration. -/
structure Config where
  /-- Events held across all nodes. -/
  capacity : UInt64
  /-- How many of the latest events of a node are current. -/
  backlogSize : UInt64
  enabled : Bool
  lossPolicy : LossPolicy
  /-- Characters of a body that are kept; zero keeps all. -/
  bodyMaxChars : UInt64
deriving DecidableEq, Repr

namespace Config

def default : Config := ⟨1000, 10, false, .log, 0⟩

instance : Inhabited Config := ⟨default⟩

/-- Refuses what a tracer cannot run with. -/
def validate (c : Config) : Except Failure Unit :=
  if c.capacity = 0 then .error (.invalidConfig "capacity must be a positive number")
  else if c.backlogSize = 0 then .error (.invalidConfig "backlog_size must be a positive number")
  else .ok ()

theorem validate_eq_ok_iff (c : Config) :
    c.validate = .ok () ↔ c.capacity ≠ 0 ∧ c.backlogSize ≠ 0 := by
  unfold validate
  split
  · simp [*]
  · split <;> simp [*]

def toJson (c : Config) : Json :=
  .object [("capacity", .nat c.capacity.toNat), ("backlog_size", .nat c.backlogSize.toNat),
    ("enabled", .bool c.enabled), ("capture_failure_policy", .string c.lossPolicy.name),
    ("body_max_chars", .nat c.bodyMaxChars.toNat)]

/-- A configuration that is being filled. -/
structure Slots where
  capacity : Option UInt64
  backlogSize : Option UInt64
  enabled : Option Bool
  lossPolicy : Option LossPolicy
  bodyMaxChars : Option UInt64

/-- Defaults take the place of what was not given. -/
def Slots.config (s : Slots) : Config where
  capacity := s.capacity.getD default.capacity
  backlogSize := s.backlogSize.getD default.backlogSize
  enabled := s.enabled.getD default.enabled
  lossPolicy := s.lossPolicy.getD default.lossPolicy
  bodyMaxChars := s.bodyMaxChars.getD default.bodyMaxChars

def record : Record Slots Config where
  name := "TracerConfig"
  fields := [
    .slot "capacity" readSize (·.capacity) (fun s v => { s with capacity := v }),
    .slot "backlog_size" readSize (·.backlogSize) (fun s v => { s with backlogSize := v }),
    .slot "enabled" readBool (·.enabled) (fun s v => { s with enabled := v }),
    .slot "capture_failure_policy" LossPolicy.reader (·.lossPolicy)
      (fun s v => { s with lossPolicy := v }),
    .slot "body_max_chars" readSize (·.bodyMaxChars) (fun s v => { s with bodyMaxChars := v })]
  start := ⟨none, none, none, none, none⟩
  finish s := .ok s.config
  hasDefaults := true

/-- Reads and checks a configuration. -/
def ofChars (cs : List Char) : Except Failure Config :=
  match decodeChars record.read cs with
  | .error e => .error (.json e)
  | .ok c => c.validate.map fun _ => c

/-- What a file system gives for a path: bytes, or the reason why not. -/
inductive FileContent where
  | bytes (data : ByteArray)
  | unreadable (reason : String)

/-- Reads and checks the configuration in a file. -/
def ofFile (path : String) (content : FileContent) : Except Failure Config :=
  match content with
  | .unreadable reason => .error (.io ("failed to read " ++ path ++ ": " ++ reason))
  | .bytes data =>
    match String.fromUTF8? data with
    | none => .error (.io ("failed to read " ++ path ++ ": stream did not contain valid UTF-8"))
    | some text => ofChars text.toList

end Config

end TraceBacklog
