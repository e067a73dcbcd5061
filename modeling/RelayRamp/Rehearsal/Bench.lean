import RelayRamp.Plane.Engine
import RelayRamp.Rehearsal.Tagged

/-!
# Rehearsing an engine

An engine on the bench: its clocks are moved by hand, attempts can be started without waiting for them, and
admissions can be kept under tags. The engine can be taken down and set up again over the same store; the
clocks go on, and leases and tallies begin afresh.
-/
namespace RelayRamp.Rehearsal

open RelayRamp.Admission RelayRamp.Lease RelayRamp.Plane RelayRamp.Schedule RelayRamp.Store RelayRamp.Time

variable {σ : Type}

/-- An engine that is up. -/
structure Running (σ : Type) where
  engine : Engine σ
  /-- Attempts that were started. -/
  tasks : Tagged Nat
  held : Tagged Admission
  maintenance : Option Nat

/-- How an admission ends. -/
inductive Ending where
  /-- Its lease stays out. -/
  | detach
  /-- Its lease is released. -/
  | complete
  /-- It is kept under a tag. -/
  | hold (tag : String)
  deriving DecidableEq, Repr

namespace Running

variable [ThrottleStore σ]

def start (engine : Engine σ) : Running σ := ⟨engine, [], [], none⟩

def conduct : Conduct (World σ) Job := Engine.conduct

/-- Lets every woken job go on. -/
def settled (r : Running σ) : Running σ := { r with engine := r.engine.settled conduct }

def call (r : Running σ) (c : Call σ α) : Running σ × Except PlaneFault α :=
  let (engine, result) := Engine.call r.engine c
  ({ r with engine }, result)

/-- Ends an admission. One that is replaced under its tag is completed. -/
def finish (r : Running σ) (admission : Admission) : Ending → Running σ
  | .detach => r
  | .complete => { r with engine := Engine.complete r.engine admission }
  | .hold tag =>
    let engine := match r.held.get? tag with
      | some old => Engine.complete r.engine old
      | none => r.engine
    { r with engine, held := r.held.insert tag admission }

/-- Makes an attempt, which may take time, and ends it. -/
def attempt (r : Running σ) (request : AdmissionRequest) (ending : Ending) :
    Running σ × Option Admission :=
  match Engine.attempt r.engine request with
  | (engine, some admission) => ({ r with engine }.finish admission ending, some admission)
  | (engine, none) => ({ r with engine }, none)

/-- Starts an attempt. One of the same tag is left to itself. -/
def spawn (r : Running σ) (tag : String) (request : AdmissionRequest) : Running σ :=
  let engine := match r.tasks.get? tag with
    | some old => r.engine.unwatch conduct old
    | none => r.engine
  let (engine, number) := Engine.startAttempt engine request
  { r with engine, tasks := r.tasks.insert tag number }

/-- Ends a started attempt if it is decided. -/
def poll (r : Running σ) (tag : String) (number : Nat) (ending : Ending) :
    Running σ × Option Admission :=
  match Engine.decided? r.engine number with
  | none => (r, none)
  | some admission =>
    let r := { r with engine := r.engine.remove number, tasks := r.tasks.erase tag }
    (r.finish admission ending, some admission)

/-- Stops a started attempt and waits until it is gone; tells whether it had ended before. -/
def cancel (r : Running σ) (tag : String) (number : Nat) : Running σ × Bool :=
  let r := { r with tasks := r.tasks.erase tag }
  if Engine.isOver number r.engine then
    ({ r with engine := r.engine.discard conduct number }.settled, true)
  else ({ r with engine := r.engine.stop number }.settled, false)

/-- Ends an admission that is kept. -/
def endHeld (r : Running σ) (tag : String) (ending : Ending) : Option (Running σ × Admission) :=
  (r.held.get? tag).map fun admission =>
    ({ r with held := r.held.erase tag }.finish admission ending, admission)

def startMaintenance (r : Running σ) (persistEvery reclaimEvery : Nat) : Running σ :=
  let (engine, number) := Engine.startMaintenance r.engine persistEvery reclaimEvery
  { r with engine, maintenance := some number }

/-- Ends maintenance and waits for it; fails when there is none. -/
def stopMaintenance? (r : Running σ) : Option (Running σ) :=
  r.maintenance.map fun number =>
    let engine := Engine.settle (Engine.endMaintenance r.engine number)
    { r with engine := engine.remove number, maintenance := none }

def sleep (r : Running σ) (ms : Nat) : Running σ := { r with engine := r.engine.sleep conduct ms }

/-- Completes what is held and stops what runs, each in the order of tags. -/
def windDown (r : Running σ) : Engine σ :=
  let engine := r.held.sorted.foldl Engine.complete r.engine
  let engine := r.tasks.sorted.foldl (fun e number => (e.stop number).settled conduct) engine
  engine.settled conduct

end Running

/-- The bench with what outlasts an engine. While one is up, its own store and clocks count. -/
structure Bench (σ : Type) where
  settings : EngineSettings
  /-- The longest body that the admin interface takes. -/
  maxBody : Nat
  wall : Instant
  now : Nat
  store : σ
  events : List AuditEvent
  running : Option (Running σ)

namespace Bench

variable [ThrottleStore σ]

def fresh (settings : EngineSettings) (wall : Instant) (store : σ) : Bench σ :=
  ⟨settings, 65536, wall, 0, store, [], none⟩

/-- Sets up an engine over the store. -/
def launch (b : Bench σ) (settings : EngineSettings) : Except ValidationFault (Bench σ) := do
  let moment : Moment := ⟨b.wall, b.now⟩
  let (plane, effects) ← Plane.launch b.store settings moment
  pure { b with settings, running := some (.start (Engine.opened plane moment effects)) }

/-- Takes the engine down. -/
def close (b : Bench σ) : Bench σ :=
  match b.running with
  | none => b
  | some r =>
    let (engine, events) := r.windDown.takeEvents
    { b with
      wall := engine.shared.wall
      now := engine.now
      store := engine.shared.plane.store
      events := b.events ++ events
      running := none }

/-- Milliseconds on the clock on which jobs wait. -/
def clock (b : Bench σ) : Nat :=
  match b.running with
  | some r => r.engine.now
  | none => b.now

def wallClock (b : Bench σ) : Instant :=
  match b.running with
  | some r => r.engine.shared.wall
  | none => b.wall

def setWall (b : Bench σ) (wall : Instant) : Bench σ :=
  let running := b.running.map fun r =>
    { r with engine := { r.engine with shared := { r.engine.shared with wall } } }
  { b with wall, running }

def sleep (b : Bench σ) (ms : Nat) : Bench σ :=
  match b.running with
  | some r => { b with running := some (r.sleep ms) }
  | none => { b with now := b.now + ms }

/-- Works on the store behind the engine's back. -/
def withStore (b : Bench σ) (f : σ → α × σ) : α × Bench σ :=
  match b.running with
  | some r =>
    let (a, store) := f r.engine.shared.plane.store
    let shared := { r.engine.shared with plane := { r.engine.shared.plane with store } }
    (a, { b with running := some { r with engine := { r.engine with shared } } })
  | none =>
    let (a, store) := f b.store
    (a, { b with store })

/-- Lets every woken job go on and hands out what was recorded. -/
def settled (b : Bench σ) : Bench σ × List AuditEvent :=
  match b.running with
  | some r =>
    let (engine, events) := r.settled.engine.takeEvents
    ({ b with events := [], running := some { r with engine } }, b.events ++ events)
  | none => ({ b with events := [] }, b.events)

end Bench

end RelayRamp.Rehearsal
