import TraceBacklog.Main
import TraceBacklog.Proofs.Backlog.History
import TraceBacklog.Proofs.Engine.Action
import TraceBacklog.Proofs.Engine.Capture
import TraceBacklog.Proofs.Route.Build
import TraceBacklog.Proofs.Route.Transparency
import TraceBacklog.Proofs.Route.Captures
import TraceBacklog.Proofs.Engine.Run
import TraceBacklog.Proofs.Engine.Accounting
import TraceBacklog.Proofs.Engine.Shutdown
import TraceBacklog.Proofs.Engine.Naming
import TraceBacklog.Proofs.Number.Decimal
import TraceBacklog.Proofs.Json.Draft
import TraceBacklog.Proofs.Json.Words
import TraceBacklog.Proofs.Json.Literal
import TraceBacklog.Proofs.Json.Chars
import TraceBacklog.Proofs.Json.Read
import TraceBacklog.Proofs.Json.Grammar
import TraceBacklog.Proofs.Json.Written
import TraceBacklog.Proofs.Json.Layout
import TraceBacklog.Proofs.Failure
import TraceBacklog.Proofs.Config
import TraceBacklog.Proofs.Snapshot
import TraceBacklog.Proofs.Exchange
import TraceBacklog.Proofs.Timestamp
import TraceBacklog.Proofs.Event.JsonLines
import TraceBacklog.Proofs.Event.Markup
import TraceBacklog.Proofs.Event.Xml
import TraceBacklog.Proofs.Factory
import TraceBacklog.Proofs.Engine.Requests
import TraceBacklog.Proofs.Engine.Attribution
import TraceBacklog.Proofs.Engine.Identity
import TraceBacklog.Proofs.KeyMap
import TraceBacklog.Proofs.Engine.Tracking
import TraceBacklog.Proofs.Route.Teardown
import TraceBacklog.Proofs.Route.Nesting
import TraceBacklog.Proofs.Engine.Numbering
import TraceBacklog.Proofs.Engine.Queries
import TraceBacklog.Proofs.Event.Grammar
import TraceBacklog.Proofs.Event.WellFormed
import TraceBacklog.Proofs.Engine.Journal
import TraceBacklog.Proofs.Engine.Independence
import TraceBacklog.Proofs.Demo.Orders
import TraceBacklog.Proofs.Demo.Command
import TraceBacklog.Proofs.Workers.Machine
import TraceBacklog.Proofs.Workers.Course
import TraceBacklog.Proofs.Workers.Totals
import TraceBacklog.Proofs.Engine.Creation
