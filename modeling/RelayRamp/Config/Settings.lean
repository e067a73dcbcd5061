import RelayRamp.Net.Address
import RelayRamp.Plane.Settings

/-!
# The sections of the configuration

Every section and every key has a default, so that an empty file describes a gate that keeps its state in
memory. Spans are in milliseconds.
-/
namespace RelayRamp.Config

open RelayRamp.Plane RelayRamp.Routing

structure ServerSection where
  bind : String
  policyBind : Option String
  maxBodyOctets : Nat
  deriving DecidableEq, Repr

inductive StoreType where
  | memory
  | durable
  deriving DecidableEq, Repr

def StoreType.label : StoreType → String
  | memory => "memory"
  | durable => "sqlite"

/-- How a durable store keeps its journal. -/
inductive JournalMode where
  | wal
  | delete
  deriving DecidableEq, Repr

def JournalMode.label : JournalMode → String
  | wal => "wal"
  | delete => "delete"

/-- How often a durable store waits for the disk. -/
inductive SyncMode where
  | full
  | normal
  deriving DecidableEq, Repr

def SyncMode.label : SyncMode → String
  | full => "full"
  | normal => "normal"

structure StoreSection where
  type : StoreType
  path : Option String
  busyTimeout : Nat
  journal : JournalMode
  sync : SyncMode
  deriving DecidableEq, Repr

structure AdmissionSection where
  leaseTimeout : Nat
  maxDelivery : Nat
  failSafe : FailSafe
  transport : String
  concurrency : Nat
  rateDelaySeconds : Nat
  deriving DecidableEq, Repr

structure SeedSection where
  phases : Bool
  rules : Bool
  deriving DecidableEq, Repr

structure MaintenanceSection where
  persistInterval : Nat
  reclaimInterval : Nat
  deriving DecidableEq, Repr

structure AuditSection where
  enabled : Bool
  /-- Events go to this file instead of the error output. -/
  path : Option String
  deriving DecidableEq, Repr

structure GateConfig where
  server : ServerSection
  store : StoreSection
  admission : AdmissionSection
  seed : SeedSection
  maintenance : MaintenanceSection
  audit : AuditSection
  deriving DecidableEq, Repr

def ServerSection.standard : ServerSection := ⟨"127.0.0.1:8480", none, 65536⟩

def StoreSection.standard : StoreSection := ⟨.memory, none, 5000, .wal, .full⟩

def AdmissionSection.standard : AdmissionSection := ⟨5000, 600000, .flowing, "default", 5, 1⟩

def SeedSection.standard : SeedSection := ⟨true, true⟩

def MaintenanceSection.standard : MaintenanceSection := ⟨30000, 15000⟩

def AuditSection.standard : AuditSection := ⟨true, none⟩

def GateConfig.standard : GateConfig :=
  ⟨.standard, .standard, .standard, .standard, .standard, .standard⟩

/-- The default transport, its name without blanks around it. -/
def AdmissionSection.defaultTransport (s : AdmissionSection) : DefaultTransport :=
  ⟨⟨Text.trim s.transport⟩, ⟨s.concurrency, s.rateDelaySeconds⟩⟩

/-- The settings that the engine runs with. -/
def GateConfig.engineSettings (c : GateConfig) : EngineSettings where
  leaseTimeout := c.admission.leaseTimeout
  maxDelivery := c.admission.maxDelivery
  failSafe := c.admission.failSafe
  defaultTransport := c.admission.defaultTransport
  seedPhases := c.seed.phases
  seedRules := c.seed.rules

end RelayRamp.Config
