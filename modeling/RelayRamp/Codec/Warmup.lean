import RelayRamp.Codec.Time
import RelayRamp.Warmup.Clock

/-!
# The warmup as JSON
-/
namespace RelayRamp.Warmup

open RelayRamp.Time

namespace PhaseLimits

def members (l : PhaseLimits) : List (String × Json) :=
  [ ("max_per_hour", .nat l.maxPerHour),
    ("max_per_day", .nat l.maxPerDay),
    ("burst_limit", .nat l.burst) ]

def toJson (l : PhaseLimits) : Json := .obj l.members

def ofJson? (j : Json) : Option PhaseLimits := do
  let [hour, day, burst] ← j.cells ["max_per_hour", "max_per_day", "burst_limit"] | none
  pure
    ⟨← hour.required Json.asLong?, ← day.required Json.asLong?, ← burst.required Json.asLong?⟩

end PhaseLimits

namespace WarmupPhase

def fieldNames : List String :=
  ["phase_number", "name", "duration_days", "max_per_hour", "max_per_day", "burst_limit"]

def toJson (p : WarmupPhase) : Json :=
  .obj
    ([("phase_number", .nat p.number), ("name", .str p.name), ("duration_days", .nat p.durationDays)]
      ++ p.limits.members)

def ofJson? (j : Json) : Option WarmupPhase := do
  let [number, name, days, hour, day, burst] ← j.cells fieldNames | none
  pure
    { number := ← number.required Json.asWord?
      name := ← name.required Json.asString?
      durationDays := ← days.required Json.asWord?
      limits :=
        { maxPerHour := ← hour.required Json.asLong?
          maxPerDay := ← day.required Json.asLong?
          burst := ← burst.required Json.asLong? } }

end WarmupPhase

def PhasePatch.ofJson? (j : Json) : Option PhasePatch := do
  let names := ["name", "duration_days", "max_per_hour", "max_per_day", "burst_limit"]
  let [name, days, hour, day, burst] ← j.cells names | none
  pure
    { name := ← name.defaulted Json.asString?
      durationDays := ← days.defaulted Json.asWord?
      maxPerHour := ← hour.defaulted Json.asLong?
      maxPerDay := ← day.defaulted Json.asLong?
      burst := ← burst.defaulted Json.asLong? }

namespace PhaseOverride

def toJson (o : PhaseOverride) : Json :=
  .obj
    [ ("phase_number", .nat o.phaseNumber),
      ("effective_activation", o.effectiveActivation.toJson),
      ("applied_at", o.appliedAt.toJson) ]

def ofJson? (j : Json) : Option PhaseOverride := do
  let [number, activation, applied] ←
    j.cells ["phase_number", "effective_activation", "applied_at"] | none
  pure
    ⟨← number.required Json.asWord?, ← activation.required Stamp.ofJson?,
      ← applied.required Stamp.ofJson?⟩

end PhaseOverride

namespace WarmupConfig

def toJson (c : WarmupConfig) : Json :=
  .obj
    [ ("enabled", .bool c.enabled),
      ("activation", c.activation.toJson),
      ("batch_interval_minutes", .nat c.batchIntervalMinutes),
      ("phase_override", .option PhaseOverride.toJson c.phaseOverride) ]

def ofJson? (j : Json) : Option WarmupConfig := do
  let names := ["enabled", "activation", "batch_interval_minutes", "phase_override"]
  let [enabled, activation, interval, phaseOverride] ← j.cells names | none
  pure
    { enabled := ← enabled.required Json.asBool?
      activation := ← activation.required Stamp.ofJson?
      batchIntervalMinutes := ← interval.required Json.asWord?
      phaseOverride := ← phaseOverride.defaulted PhaseOverride.ofJson? }

end WarmupConfig

def ConfigUpdate.ofJson? (j : Json) : Option ConfigUpdate := do
  let [enabled, interval] ← j.cells ["enabled", "batch_interval_minutes"] | none
  pure ⟨← enabled.defaulted Json.asBool?, ← interval.defaulted Json.asWord?⟩

def WarmupStatus.toJson (s : WarmupStatus) : Json :=
  .obj
    [ ("current_phase", .nat s.currentPhase),
      ("phase_name", .str s.phaseName),
      ("days_elapsed", .nat s.daysElapsed),
      ("days_remaining", .nat s.daysRemaining),
      ("percent_complete", .real s.percentComplete),
      ("limits", s.limits.toJson),
      ("is_established", .bool s.isEstablished),
      ("override_active", .bool s.overrideActive) ]

end RelayRamp.Warmup
