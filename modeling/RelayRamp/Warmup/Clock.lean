import RelayRamp.Warmup.Config
import RelayRamp.Warmup.Phase

/-!
# The warmup clock

The phase of a warmup is a function of the configuration, the phase table and the present instant: the whole
days since the effective activation are placed in the table. Operator actions return a new configuration; the
clock itself has no state.
-/
namespace RelayRamp.Warmup

open RelayRamp.Time

structure WarmupStatus where
  currentPhase : Nat
  phaseName : String
  daysElapsed : Nat
  daysRemaining : Nat
  percentComplete : Float
  limits : PhaseLimits
  isEstablished : Bool
  overrideActive : Bool
  deriving Repr

/-- The share of the warmup that has passed, in percent and at most 100. -/
def percentComplete (days total : Nat) : Float :=
  if total = 0 then 100.0
  else
    let share := days.toFloat / total.toFloat * 100.0
    if share < 100.0 then share else 100.0

namespace WarmupConfig

def daysElapsed (config : WarmupConfig) (now : Instant) : Nat :=
  now.daysSince config.effectiveActivation.instant

/-- The limits in force. -/
def limits (config : WarmupConfig) (table : PhaseTable) (now : Instant) : PhaseLimits :=
  (table.active (config.daysElapsed now)).limits

def status (config : WarmupConfig) (table : PhaseTable) (now : Instant) : WarmupStatus :=
  let days := config.daysElapsed now
  let phase := table.active days
  { currentPhase := phase.number
    phaseName := phase.name
    daysElapsed := days
    daysRemaining := table.totalDays - days
    percentComplete := percentComplete days table.totalDays
    limits := phase.limits
    isEstablished := (table.position days).established
    overrideActive := config.phaseOverride.isSome }

/-- The configuration for which now is the first instant of the phase. -/
def withPhase (config : WarmupConfig) (table : PhaseTable) (number : Nat) (now : Instant) :
    Except ValidationFault WarmupConfig :=
  match table.get? number with
  | none => .error (.phase number .missing)
  | some _ =>
    let shifted := now.subDays (table.daysBefore number)
    .ok { config with phaseOverride := some ⟨number, shifted.stamp, now.stamp⟩ }

/-- The configuration whose warmup starts now, without an override. -/
def restarted (config : WarmupConfig) (now : Instant) : WarmupConfig :=
  { config with activation := now.stamp, phaseOverride := none }

end WarmupConfig

end RelayRamp.Warmup
