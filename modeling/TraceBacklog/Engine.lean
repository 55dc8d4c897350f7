/-
# The engine

Tracers, routes and processors act on a common state: the ids that nodes got, the
factories of ids, the tracers, the visits that named processors saw, the journal, and a clock.
Tracers and factories are known by number, so a reference can be copied freely and all
copies mean the same tracer.

What a tracer cannot do after its shutdown goes through `Engine.withUsable`; it ends in
an `Abort` and leaves the engine alone.

Key definitions: `Engine`, `TracerRef`, `Engine.tracer`, `Engine.modifyTracer`,
`Engine.newTracer`, `Engine.nodeId`, `Engine.nameNodes`, `Engine.withUsable`.
-/
import TraceBacklog.Journal
import TraceBacklog.Tracer

namespace TraceBacklog

/-- Names a tracer by its number. -/
structure TracerRef where
  index : Nat
deriving DecidableEq, Repr, Inhabited

/-- How a processor was visited. -/
inductive VisitKind where
  | called
  | stopped
deriving DecidableEq, Repr, Inhabited

/-- A visit at a named processor. -/
structure Visit where
  name : String
  kind : VisitKind
deriving DecidableEq, Repr

/-- The common state. -/
structure Engine where
  ids : IdTable
  factories : List IdFactory
  tracers : List Tracer
  /-- The latest visit comes first. -/
  visits : List Visit
  /-- The latest entry comes first. -/
  journal : List Entry
  clock : Clock

namespace Engine

/-- Nothing has been made yet. -/
def initial (clock : Clock) : Engine := ⟨.empty, [], [], [], [], clock⟩

instance : Inhabited Engine := ⟨initial .epoch⟩

/-- Reports something. -/
def log (e : Engine) (entry : Entry) : Engine := { e with journal := entry :: e.journal }

/-- Reads the clock. -/
def readClock (e : Engine) : Engine × Timestamp :=
  ({ e with clock := e.clock.after 1 }, e.clock.now)

/-- Notes a visit at a processor; only processors with a name are noted. -/
def visit (e : Engine) (name : Option String) (kind : VisitKind) : Engine :=
  match name with
  | none => e
  | some name => { e with visits := ⟨name, kind⟩ :: e.visits }

/-- How often a named processor was visited so. -/
def visitCount (e : Engine) (name : String) (kind : VisitKind) : Nat :=
  e.visits.count ⟨name, kind⟩

/-! ### Factories and ids -/

def factory (e : Engine) (f : FactoryRef) : IdFactory := e.factories.getD f.index default

def setFactory (e : Engine) (f : FactoryRef) (value : IdFactory) : Engine :=
  { e with factories := e.factories.set f.index value }

def newFactory (e : Engine) (value : IdFactory) : Engine × FactoryRef :=
  ({ e with factories := e.factories ++ [value] }, ⟨e.factories.length⟩)

/-- Takes a new id for a label from a factory. -/
def createId (e : Engine) (f : FactoryRef) (label : String) : Engine × String :=
  let (id, value) := (e.factory f).create label
  (e.setFactory f value, id)

/-- The id of a node, from the factory if it has none yet. -/
def nodeId (e : Engine) (f : FactoryRef) (n : Node) : Engine × String :=
  match n.id? e.ids with
  | some id => (e, id)
  | none =>
    let (e, id) := e.createId f n.label
    ({ e with ids := e.ids.assign n.key id }, id)

/-- The id of a node, or else the given one from now on. -/
def initNodeId (e : Engine) (n : Node) (id : String) : Engine × String :=
  ({ e with ids := n.initId id e.ids }, (n.id? e.ids).getD id)

/-- Gives ids to nodes and to all nodes below them. -/
def nameNodes (e : Engine) (f : FactoryRef) (nodes : List Node) : Engine :=
  let (value, ids) := Node.nameEach (e.factory f) e.ids nodes
  { e.setFactory f value with ids := ids }

/-- Gives ids to a node and to all nodes below it. -/
def nameNode (e : Engine) (f : FactoryRef) (n : Node) : Engine := e.nameNodes f [n]

/-! ### Tracers -/

def tracer (e : Engine) (r : TracerRef) : Tracer := e.tracers.getD r.index default

def modifyTracer (e : Engine) (r : TracerRef) (f : Tracer → Tracer) : Engine :=
  { e with tracers := e.tracers.modify r.index f }

/-- Makes a tracer; without a factory it gets one of its own. -/
def newTracer (e : Engine) (c : Config) (f : Option FactoryRef) :
    Engine × Except Stop TracerRef :=
  let (e', f) := match f with
    | some f => (e, f)
    | none => e.newFactory .fresh
  match Tracer.ofConfig c f with
  | .error stop => (e, .error stop)
  | .ok t => ({ e' with tracers := e'.tracers ++ [t] }, .ok ⟨e'.tracers.length⟩)

/-- Does something that needs a tracer that was not shut down. -/
def withUsable {α : Type} (e : Engine) (r : TracerRef)
    (act : Tracer → Engine × Except Stop α) : Engine × Except Stop α :=
  if (e.tracer r).isShutDown then (e, .error (.aborted .usedAfterShutdown)) else act (e.tracer r)

/-- Does something with a usable tracer that always succeeds. -/
def useTracer (e : Engine) (r : TracerRef) (act : Tracer → Engine) : Engine × Except Stop Unit :=
  e.withUsable r fun t => (act t, .ok ())

/-- Reads something off a usable tracer. -/
def askTracer {α : Type} (e : Engine) (r : TracerRef) (ask : Tracer → α) :
    Engine × Except Stop α :=
  e.withUsable r fun t => (e, .ok (ask t))

theorem tracer_modifyTracer (e : Engine) (r s : TracerRef) (f : Tracer → Tracer)
    (h : r.index < e.tracers.length) :
    (e.modifyTracer r f).tracer s = if r = s then f (e.tracer s) else e.tracer s := by
  obtain ⟨r⟩ := r
  obtain ⟨s⟩ := s
  simp only [modifyTracer, tracer, List.getD_eq_getElem?_getD, List.getElem?_modify,
    TracerRef.mk.injEq]
  by_cases hrs : r = s
  · subst hrs
    simp [List.getElem?_eq_getElem h]
  · simp [hrs]

/-- A tracer that was shut down answers with an abort, and nothing changes. -/
theorem withUsable_of_isShutDown {α : Type} {e : Engine} {r : TracerRef}
    {act : Tracer → Engine × Except Stop α} (h : (e.tracer r).isShutDown = true) :
    e.withUsable r act = (e, .error (.aborted .usedAfterShutdown)) := by
  simp [withUsable, h]

end Engine

end TraceBacklog
