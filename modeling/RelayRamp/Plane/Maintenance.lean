import RelayRamp.Plane.Control
import RelayRamp.Plane.Metrics
import RelayRamp.Schedule.Board

/-!
# Maintenance

Three timers: one recovers leases that are held too long, one retries a degraded store and then writes the
counters, one reports the batch budget. The first two run at once and then at fixed distances; the third runs
after each batch interval. When maintenance ends the counters are written once more.
-/
namespace RelayRamp.Plane

open RelayRamp.Lease RelayRamp.Schedule RelayRamp.Store

/-- The running timers with the instants at which they are due. -/
structure Timers where
  persistEvery : Nat
  reclaimEvery : Nat
  reclaimAt : Nat
  persistAt : Nat
  batchAt : Nat
  deriving DecidableEq, Repr

inductive Maintenance where
  | requested (persistEvery reclaimEvery : Nat)
  | running (timers : Timers)
  /-- Told to end. -/
  | ending
  | ended
  deriving DecidableEq, Repr

namespace Maintenance

variable {σ : Type}

/-- Milliseconds from one batch report to the next. -/
def batchSpan (p : Plane σ) : Nat := max p.snapshot.config.batchIntervalMinutes 1 * 60000

def persistTick [ThrottleStore σ] : Call σ Unit := do
  if (← plane).snapshot.degraded then
    let _ ← reload
  persistCounters

def budgetText (b : BatchBudget) : String :=
  if b.releaseAll then "release_all=true"
  else
    let rest := s!"day_remaining={b.dayRemaining} burst_limit={b.burst}"
    s!"batch_size={b.batchSize} hour_remaining={b.hourRemaining} {rest}"

def batchTick : Call σ Unit := do
  match (← plane).batchBudget (← wallNow) with
  | .ok budget => report (.plain .batchBudget (budgetText budget))
  | .error fault => report (.plain .batchBudget fault.message)

/-- Makes a call whose failure does not matter. -/
def quietly (c : Call σ α) (moment : Moment) (p : Plane σ) : Plane σ × Effects :=
  let (_, p, effects) := c.run moment p
  (p, effects)

/-- Does what is due, first the leases, then the counters, then the report. -/
def tick [ThrottleStore σ] (moment : Moment) (p : Plane σ) (t : Timers) : Plane σ × Effects × Timers :=
  let now := moment.tick
  let (p, reclaimed, t) :=
    if t.reclaimAt ≤ now then
      let (p, effects) := quietly reclaimLeases moment p
      (p, effects, { t with reclaimAt := t.reclaimAt + t.reclaimEvery })
    else (p, .none, t)
  let (p, persisted, t) :=
    if t.persistAt ≤ now then
      let (p, effects) := quietly persistTick moment p
      (p, effects, { t with persistAt := t.persistAt + t.persistEvery })
    else (p, .none, t)
  let (p, reported, t) :=
    if t.batchAt ≤ now then
      let (p, effects) := quietly batchTick moment p
      (p, effects, { t with batchAt := now + batchSpan p })
    else (p, .none, t)
  (p, (reclaimed.and persisted).and reported, t)

def resume [ThrottleStore σ] (p : Plane σ) (moment : Moment) : Maintenance → Plane σ × Effects × Maintenance
  | .requested persistEvery reclaimEvery =>
    let now := moment.tick
    let (p, effects, t) := tick moment p ⟨persistEvery, reclaimEvery, now, now, now + batchSpan p⟩
    (p, effects, .running t)
  | .running t =>
    let (p, effects, t) := tick moment p t
    (p, effects, .running t)
  | .ending =>
    let (p, effects) := quietly persistCounters moment p
    (p, effects, .ended)
  | .ended => (p, .none, .ended)

def alarms : Maintenance → List Alarm
  | .running t => [⟨0, t.reclaimAt⟩, ⟨1, t.persistAt⟩, ⟨2, t.batchAt⟩]
  | _ => []

end Maintenance

end RelayRamp.Plane
