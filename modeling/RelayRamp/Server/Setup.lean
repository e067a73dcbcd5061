import RelayRamp.Config.Validation
import RelayRamp.Plane.Engine
import RelayRamp.Server.Sink
import RelayRamp.Store.Backing
import RelayRamp.Store.Opening

/-!
# Setting up an engine from its configuration

The configuration is checked, the audit sink is made ready, the store is opened, and the engine is set up over
it, in this order.
-/
namespace RelayRamp.Server

open RelayRamp.Config RelayRamp.Files RelayRamp.Plane RelayRamp.Store

/-- Why a server cannot be set up or listen. -/
inductive ServerFault where
  | config (problem : Problem)
  | sink (fault : FileFault)
  | store (fault : StoreFault)
  | plane (fault : ValidationFault)
  /-- A listener could not be bound. -/
  | transport (listener words : String)
  deriving DecidableEq, Repr

/-- The words of the invalid configuration within a fault of the server. -/
def problemWords (problem : Problem) : String := (ConfigFault.invalid problem).message

def ServerFault.message : ServerFault → String
  | config problem => "config error: " ++ problemWords problem
  | sink fault => s!"init error: audit sink: {fault.message}"
  | store fault => s!"init error: {fault.openingMessage}"
  | plane fault => s!"init error: {fault.message}"
  | transport listener words => s!"transport error: {listener} bind failed: {words}"

/-- A word for the cause, for programs. -/
def ServerFault.label : ServerFault → String
  | config _ => "config"
  | sink _ | store _ | plane _ => "init"
  | transport .. => "transport"

/-- An engine with the sink of its audit events. -/
structure Station where
  engine : Engine Backing
  sink : AuditSink

variable {m : Type → Type} [Monad m] [FileAccess m]

/-- Opens the store that the configuration chooses. -/
def openStore (s : StoreSection) : m (Except StoreFault Backing) := do
  match s.location? with
  | none => pure (.ok (.memory .empty))
  | some path =>
    let loaded ← DurableStore.load path
    pure (loaded.map .durable)

/-- Sets up an engine at one moment. What it recorded while it was set up is still to be taken. -/
def setUp (c : GateConfig) (moment : Moment) : m (Except ServerFault Station) := do
  match c.validate with
  | .error problem => pure (.error (.config problem))
  | .ok () =>
    let sink := AuditSink.ofSection c.audit
    match ← sink.prepare with
    | .error fault => pure (.error (.sink fault))
    | .ok () =>
      match ← openStore c.store with
      | .error fault => pure (.error (.store fault))
      | .ok store =>
        match Plane.launch store c.engineSettings moment with
        | .error fault => pure (.error (.plane fault))
        | .ok (plane, effects) => pure (.ok ⟨Engine.opened plane moment effects, sink⟩)

/-- Hands the recorded events to the sink; gives the lines for the error output. -/
def Station.report (s : Station) : m (Station × List String) := do
  let (engine, events) := s.engine.takeEvents
  let lines ← s.sink.record engine.shared.wall events
  pure ({ s with engine }, lines)

/-- Writes a durable store back to its file. -/
def Station.save (s : Station) (section' : StoreSection) : m (Except StoreFault Unit) := do
  match section'.location?, s.engine.shared.plane.store with
  | some path, .durable store => store.save path
  | _, _ => pure (.ok ())

end RelayRamp.Server
