import RelayRamp.Fault
import RelayRamp.Time.Instant

/-!
# Warmup configuration

Whether throttling is on, when the warmup started, how often held mail may be released in batches, and the
operator's override of the phase. An override moves the activation that counts; the activation itself stays.
-/
namespace RelayRamp.Warmup

open RelayRamp.Time

structure PhaseOverride where
  phaseNumber : Nat
  effectiveActivation : Stamp
  appliedAt : Stamp
  deriving DecidableEq, Repr

structure WarmupConfig where
  enabled : Bool
  activation : Stamp
  batchIntervalMinutes : Nat
  phaseOverride : Option PhaseOverride
  deriving DecidableEq, Repr

structure ConfigUpdate where
  enabled : Option Bool
  batchIntervalMinutes : Option Nat
  deriving DecidableEq, Repr

def defaultBatchIntervalMinutes : Nat := 10
def maxBatchIntervalMinutes : Nat := 1440

def validateBatchInterval (minutes : Nat) : Except ValidationFault Unit :=
  if minutes = 0 ∨ minutes > maxBatchIntervalMinutes then .error (.batchInterval maxBatchIntervalMinutes)
  else .ok ()

namespace WarmupConfig

/-- A new configuration: throttling off, the warmup starting now. -/
def fresh (now : Instant) : WarmupConfig :=
  ⟨false, now.stamp, defaultBatchIntervalMinutes, none⟩

/-- The activation from which days are counted. -/
def effectiveActivation (config : WarmupConfig) : Stamp :=
  (config.phaseOverride.map (·.effectiveActivation)).getD config.activation

def validate (config : WarmupConfig) : Except ValidationFault Unit :=
  validateBatchInterval config.batchIntervalMinutes

/-- The configuration with the requested fields changed; a bad interval changes nothing. -/
def updated (config : WarmupConfig) (update : ConfigUpdate) : Except ValidationFault WarmupConfig := do
  if let some minutes := update.batchIntervalMinutes then
    validateBatchInterval minutes
  pure
    { config with
      enabled := update.enabled.getD config.enabled
      batchIntervalMinutes := update.batchIntervalMinutes.getD config.batchIntervalMinutes }

end WarmupConfig

end RelayRamp.Warmup
