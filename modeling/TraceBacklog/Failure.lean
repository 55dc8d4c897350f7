/-
# Failures

What can go wrong in the backlog and in a route, with a stable code, a category for
grouping and a message for people. Using a tracer after its shutdown is a mistake in
the program, not a failure; it ends the run (`Abort`).

Key definitions: `Failure`, `Category`, `Failure.code`, `Failure.category`,
`Failure.message`, `Failure.isRecoverable`, `Abort`, `Stop`.
-/
import TraceBacklog.Json.Error

namespace TraceBacklog

/-- Groups of related failures. -/
inductive Category where
  | validation
  | capture
  | processing
  | internal
  | external
deriving DecidableEq, Repr, Inhabited

namespace Category

def name : Category → String
  | .validation => "validation"
  | .capture => "capture"
  | .processing => "processing"
  | .internal => "internal"
  | .external => "external"

/-- Every category with its name. -/
def all : List (String × Category) :=
  [.validation, .capture, .processing, .internal, .external].map fun c => (c.name, c)

end Category

/-- What went wrong. -/
inductive Failure where
  /-- A per-node backlog size that is not positive. -/
  | invalidBacklogSize (size : Int64)
  | invalidConfig (reason : String)
  /-- A message that has no snapshot. -/
  | captureFailed (node reason : String)
  /-- A stage of a route that refused an exchange. -/
  | processingFailed (node reason : String)
  | json (error : ReadError)
  | io (message : String)
  | internal (reason : String)
deriving DecidableEq, Repr

namespace Failure

/-- The stable code. -/
def code : Failure → String
  | .invalidBacklogSize _ => "INVALID_BACKLOG_SIZE"
  | .invalidConfig _ => "INVALID_CONFIG"
  | .captureFailed _ _ => "CAPTURE_FAILED"
  | .processingFailed _ _ => "PROCESSING_FAILED"
  | .json _ => "JSON_ERROR"
  | .io _ => "IO_ERROR"
  | .internal _ => "INTERNAL_ERROR"

def category : Failure → Category
  | .invalidBacklogSize _ => .validation
  | .invalidConfig _ => .validation
  | .captureFailed _ _ => .capture
  | .processingFailed _ _ => .processing
  | .json _ => .external
  | .io _ => .external
  | .internal _ => .internal

/-- Only what a stage of a route refused may succeed when it is sent again. -/
def isRecoverable : Failure → Bool
  | .processingFailed _ _ => true
  | _ => false

def message : Failure → String
  | .invalidBacklogSize size =>
    "The backlog size must be a positive number, was: " ++ toString size.toInt
  | .invalidConfig reason => "Invalid tracer configuration: " ++ reason
  | .captureFailed node reason => "Failed to capture message at node '" ++ node ++ "': " ++ reason
  | .processingFailed node reason => "Processing failed at node '" ++ node ++ "': " ++ reason
  | .json error => "JSON error: " ++ error.message
  | .io message => "IO error: " ++ message
  | .internal reason => "Internal error: " ++ reason ++ ". This is a bug; please report it."

end Failure

/-- A mistake in the program that ends what it was doing. -/
inductive Abort where
  | usedAfterShutdown
  | capacityOverflow
deriving DecidableEq, Repr

namespace Abort

def message : Abort → String
  | .usedAfterShutdown => "backlog tracer used after shutdown"
  | .capacityOverflow => "capacity overflow"

end Abort

/-- Why an operation did not come to its end. -/
inductive Stop where
  | failed (f : Failure)
  | aborted (a : Abort)
deriving DecidableEq, Repr

end TraceBacklog
