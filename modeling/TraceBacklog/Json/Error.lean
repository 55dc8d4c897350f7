/-
# What can be wrong with a JSON text

A reader of a text stops for one of three reasons: the text ends too early, it is no
JSON, or it is fine so far but does not fit what is read. Only the last one has a
message that says what was wanted.

Key definitions: `Mismatch`, `Mismatch.message`, `ReadError`.
-/
import TraceBacklog.Json.Draft
import TraceBacklog.Text.Quoted

namespace TraceBacklog

/-- What stands where something else was wanted. -/
inductive Found where
  | null
  | bool (b : Bool)
  | number (n : Number)
  | text (s : String)
  | sequence
  | map
deriving DecidableEq, Repr

namespace Found

def describe : Found → String
  | .null => "null"
  | .bool b => "boolean `" ++ toString b ++ "`"
  | .number (.int n) => "integer `" ++ toString n ++ "`"
  | .number (.float x) => "floating point `" ++ x.text ++ "`"
  | .text s => "string " ++ quoted s
  | .sequence => "sequence"
  | .map => "map"

end Found

/-- How a JSON text does not fit what is read. -/
inductive Mismatch where
  | unexpectedType (found : Found) (expected : String)
  | unexpectedInteger (n : Int) (expected : String)
  | unknownVariant (name : String) (known : List String)
  | duplicateField (name : String)
  | missingField (name : String)
  | wrongLength (length : Nat) (expected : String)
  | invalidTimestamp
deriving DecidableEq, Repr

namespace Mismatch

def backquoted (s : String) : String := "`" ++ s ++ "`"

/-- The known names of a choice. -/
def oneOf : List String → String
  | [] => "there are no variants"
  | [a] => backquoted a
  | [a, b] => backquoted a ++ " or " ++ backquoted b
  | names => "one of " ++ ", ".intercalate (names.map backquoted)

def message : Mismatch → String
  | .unexpectedType found expected =>
    "invalid type: " ++ found.describe ++ ", expected " ++ expected
  | .unexpectedInteger n expected =>
    "invalid value: integer " ++ backquoted (toString n) ++ ", expected " ++ expected
  | .unknownVariant name known =>
    "unknown variant " ++ backquoted name ++ ", expected " ++ oneOf known
  | .duplicateField name => "duplicate field " ++ backquoted name
  | .missingField name => "missing field " ++ backquoted name
  | .wrongLength length expected =>
    "invalid length " ++ toString length ++ ", expected " ++ expected
  | .invalidTimestamp => "invalid timestamp"

end Mismatch

/-- Why a reader stopped. -/
inductive ReadError where
  | fault (f : Fault)
  | mismatch (m : Mismatch)
deriving DecidableEq, Repr

namespace ReadError

def message : ReadError → String
  | .fault .endOfText => "the text ends too early"
  | .fault .malformed => "the text is not well formed"
  | .mismatch m => m.message

end ReadError

end TraceBacklog
