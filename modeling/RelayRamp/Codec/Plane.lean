import RelayRamp.Codec.Admission
import RelayRamp.Codec.Warmup
import RelayRamp.Plane.Metrics

/-!
# Readings of the engine as JSON
-/
namespace RelayRamp

open RelayRamp.Lease RelayRamp.Plane RelayRamp.Routing

def Lease.Occupancy.toJson (o : Occupancy) : Json :=
  .obj
    [ ("transport", o.transport.toJson),
      ("capacity", .nat o.capacity),
      ("outstanding", .nat o.outstanding),
      ("waiting", .nat o.waiting) ]

namespace Plane

def ThrottleMetrics.toJson (m : ThrottleMetrics) : Json :=
  .obj
    [ ("sent_today", .nat m.sentToday),
      ("sent_this_hour", .nat m.sentThisHour),
      ("held_count", .nat m.tallies.held),
      ("admitted_count", .nat m.tallies.admitted),
      ("rejected_count", .nat m.tallies.rejected),
      ("fail_safe_held_count", .nat m.tallies.failSafeHeld),
      ("limits", .option (·.toJson) m.limits),
      ("transports", .arr (m.transports.map (·.toJson))) ]

def BatchBudget.toJson (b : BatchBudget) : Json :=
  .obj
    [ ("release_all", .bool b.releaseAll),
      ("hour_remaining", .nat b.hourRemaining),
      ("day_remaining", .nat b.dayRemaining),
      ("burst_limit", .nat b.burst),
      ("batch_size", .nat b.batchSize),
      ("interval_minutes", .nat b.intervalMinutes) ]

def Tallies.toJson (t : Tallies) : Json :=
  .obj
    [ ("admitted", .nat t.admitted),
      ("held", .nat t.held),
      ("rejected", .nat t.rejected),
      ("fail_safe_held", .nat t.failSafeHeld) ]

def Snapshot.toJson (s : Snapshot) (settings : EngineSettings) : Json :=
  let phases := match s.phases with
    | .ok table => .arr (table.phases.map (·.toJson))
    | .error fault => .obj [("unusable", .str fault.message)]
  .obj
    [ ("config", s.config.toJson),
      ("phases", phases),
      ("active_rules", .nat s.matcher.rules.length),
      ("max_delivery_ms", .nat settings.maxDelivery) ]

/-- Reads settings; what is missing stays as it is. -/
def EngineSettings.ofJson? (base : EngineSettings) (j : Json) : Option EngineSettings := do
  let read {α : Type} (name : String) (fallback : α) (decode : Json → Option α) : Option α :=
    match j.given? name with
    | some value => decode value
    | none => some fallback
  pure
    { leaseTimeout := ← read "lease_timeout_ms" base.leaseTimeout Json.asLong?
      maxDelivery := ← read "max_delivery_ms" base.maxDelivery Json.asLong?
      failSafe := ← read "fail_safe" base.failSafe fun v => v.asVariant? >>= FailSafe.ofLabel?
      defaultTransport := ← read "default_transport" base.defaultTransport DefaultTransport.ofJson?
      seedPhases := ← read "seed_phases" base.seedPhases Json.asBool?
      seedRules := ← read "seed_rules" base.seedRules Json.asBool? }

end Plane

end RelayRamp
