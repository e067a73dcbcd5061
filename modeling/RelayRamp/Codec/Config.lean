import RelayRamp.Codec.Routing
import RelayRamp.Config.Validation

/-!
# The configuration as JSON

What a configuration comes to: addresses as numbers, the store with its options, and the settings of the engine.
-/
namespace RelayRamp.Config

open RelayRamp.Net RelayRamp.Plane

def addressJson (a : SocketAddress) : Json :=
  .obj [("ip", .arr (a.octets.map .nat)), ("port", .nat a.port)]

def settingsJson (s : EngineSettings) : Json :=
  .obj
    [ ("lease_timeout_ms", .nat s.leaseTimeout),
      ("max_delivery_ms", .nat s.maxDelivery),
      ("fail_safe", .str s.failSafe.label),
      ("default_transport", s.defaultTransport.toJson),
      ("seed_phases", .bool s.seedPhases),
      ("seed_rules", .bool s.seedRules) ]

def StoreSection.durableJson (s : StoreSection) : Json :=
  .option (fun path => .obj
    [ ("path", .str path),
      ("busy_timeout_ms", .nat s.busyTimeout),
      ("journal_mode", .str s.journal.label),
      ("sync_mode", .str s.sync.label) ]) s.location?

/-- A checked configuration. -/
def GateConfig.toJson (c : GateConfig) : Except Problem Json := do
  let bind ← c.server.bindAddress
  let policy ← c.server.policyAddress
  pure (.obj
    [ ("bind", addressJson bind),
      ("policy_bind", .option addressJson policy),
      ("max_body_bytes", .nat c.server.maxBodyOctets),
      ("store_type", .str c.store.type.label),
      ("sqlite", c.store.durableJson),
      ("engine", settingsJson c.engineSettings),
      ("persist_interval_ms", .nat c.maintenance.persistInterval),
      ("reclaim_interval_ms", .nat c.maintenance.reclaimInterval),
      ("audit_enabled", .bool c.audit.enabled),
      ("audit_path", .option .str c.audit.path) ])

end RelayRamp.Config
