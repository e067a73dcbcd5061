import RelayRamp.Plane.Snapshot
import RelayRamp.Width

/-!
# Metrics and the batch budget

Readings of the engine's state that change nothing. The batch budget is the number of held items that may be
released at once: with throttling off there is no bound, and without a usable phase table there is no budget.
-/
namespace RelayRamp.Plane

open RelayRamp.Lease RelayRamp.Time RelayRamp.Warmup

structure ThrottleMetrics where
  sentToday : Nat
  sentThisHour : Nat
  tallies : Tallies
  limits : Option PhaseLimits
  transports : List Occupancy
  deriving DecidableEq, Repr

structure BatchBudget where
  releaseAll : Bool
  hourRemaining : Nat
  dayRemaining : Nat
  burst : Nat
  batchSize : Nat
  intervalMinutes : Nat
  deriving DecidableEq, Repr

/-- The greatest count, which stands for no bound. -/
def unbounded : Nat := Width.long - 1

variable {σ : Type}

protected def metrics (p : Plane σ) (now : Instant) : ThrottleMetrics :=
  let reading := p.counters.reading now
  { sentToday := reading.day
    sentThisHour := reading.hour
    tallies := p.tallies
    limits := p.snapshot.phases.toOption.map fun table => p.snapshot.config.limits table now
    transports := p.pool.metrics }

protected def batchBudget (p : Plane σ) (now : Instant) : Except ConfigurationFault BatchBudget := do
  let interval := p.snapshot.config.batchIntervalMinutes
  if !p.snapshot.config.enabled then
    return ⟨true, unbounded, unbounded, unbounded, unbounded, interval⟩
  let table ← p.snapshot.table
  let limits := p.snapshot.config.limits table now
  let reading := p.counters.reading now
  let hour := limits.maxPerHour - reading.hour
  let day := limits.maxPerDay - reading.day
  pure ⟨false, hour, day, limits.burst, min (min hour day) limits.burst, interval⟩

end RelayRamp.Plane
