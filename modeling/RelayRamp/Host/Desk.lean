import Std.Sync.Mutex
import Std.Async.Timer
import RelayRamp.Admin.Service
import RelayRamp.Host.Machine
import RelayRamp.Server.Setup

/-!
# The desk

One running engine that several connections share. Whoever works on it first brings it up to the present moment;
what it records is handed to the audit sink and what changes in a durable store is written to its file before
the next one comes.
-/
namespace RelayRamp.Host

open RelayRamp.Admission RelayRamp.Config RelayRamp.Plane RelayRamp.Server RelayRamp.Store
open Std.Async (Async)

structure Desk where
  config : GateConfig
  /-- The reading of the machine's clock at the start. -/
  begun : Nat
  state : Std.Mutex Station

namespace Desk

/-- Opens a desk for a station that was set up at the given reading of the clock. -/
def new (config : GateConfig) (begun : Nat) (station : Station) : IO Desk := do
  pure ⟨config, begun, ← Std.Mutex.new station⟩

/-- Works on the engine. -/
def work (d : Desk) (f : Engine Backing → Engine Backing × α) : IO α :=
  d.state.atomically do
    let before ← get
    let moment ← momentSince d.begun
    let (engine, a) := f (Engine.settle (Engine.upTo before.engine moment))
    let (station, lines) ← (Station.report { before with engine := Engine.settle engine } : IO _)
    for line in lines do
      (IO.eprintln line : IO Unit)
    if station.engine.shared.plane.store != before.engine.shared.plane.store then
      let _ ← (station.save d.config.store : IO _)
    set station
    pure a

/-- Brings the engine up to the present moment. -/
def touch (d : Desk) : IO Unit := d.work fun e => (e, ())

/-- Milliseconds between two looks at the engine. -/
def pause : Std.Time.Millisecond.Offset := 5

/-- Waits until an attempt is decided. -/
partial def await (d : Desk) (number : Nat) : Async Admission := do
  let found ← d.work fun e =>
    match Engine.decided? e number with
    | some admission => (e.remove number, some admission)
    | none => (e, none)
  match found with
  | some admission => pure admission
  | none =>
    Std.Async.sleep pause
    d.await number

/-- Makes an attempt and waits until it is decided. -/
def attempt (d : Desk) (request : AdmissionRequest) : Async Admission := do
  let number ← d.work fun e => Engine.startAttempt e request
  d.await number

end Desk

end RelayRamp.Host
