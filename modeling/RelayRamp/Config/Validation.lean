import RelayRamp.Config.Fault
import RelayRamp.Config.Settings

/-!
# Checking the configuration

The sections are checked in order, and within a section its keys; the first problem counts.
-/
namespace RelayRamp.Config

open RelayRamp.Files RelayRamp.Net

/-- Both ends belong to the range. -/
def requireRange (field : String) (least greatest value : Nat) : Except Problem Unit :=
  if least ≤ value ∧ value ≤ greatest then .ok () else .error (.outOfRange field)

/-- A path must have text, and neither it nor a part of it may be too long. -/
def checkPath (field path : String) : Except Problem Unit :=
  if (Text.trim path).isEmpty then .error (.path field .blank)
  else if Text.octets path > maxPath then .error (.path field .long)
  else if hasLongPart path then .error (.path field .longPart)
  else .ok ()

def readAddress (field text : String) : Except Problem SocketAddress :=
  match SocketAddress.parse (Text.trim text) with
  | some address => .ok address
  | none => .error (.address field text)

namespace ServerSection

def bindAddress (s : ServerSection) : Except Problem SocketAddress := readAddress "server.bind" s.bind

def policyAddress (s : ServerSection) : Except Problem (Option SocketAddress) :=
  match s.policyBind with
  | none => .ok none
  | some text => some <$> readAddress "server.policy_bind" text

def validate (s : ServerSection) : Except Problem Unit := do
  let bind ← s.bindAddress
  let policy ← s.policyAddress
  if policy = some bind ∧ bind.port ≠ 0 then throw .sharedAddress
  requireRange "server.max_body_bytes" 1 (4 * 1024 * 1024) s.maxBodyOctets

end ServerSection

namespace StoreSection

def validate (s : StoreSection) : Except Problem Unit := do
  requireRange "store.busy_timeout_ms" 0 60000 s.busyTimeout
  match s.type, s.path with
  | .memory, some _ => throw .pathInMemory
  | .memory, none => pure ()
  | .durable, none => throw .pathMissing
  | .durable, some path => checkPath "store.path" path

/-- The path of a durable store. -/
def location? (s : StoreSection) : Option String :=
  match s.type with
  | .durable => s.path
  | .memory => none

end StoreSection

def AdmissionSection.validate (s : AdmissionSection) : Except Problem Unit := do
  requireRange "admission.lease_timeout_ms" 0 120000 s.leaseTimeout
  requireRange "admission.max_delivery_ms" 1000 86400000 s.maxDelivery
  s.defaultTransport.validate.mapError .transport

def MaintenanceSection.validate (s : MaintenanceSection) : Except Problem Unit := do
  requireRange "maintenance.persist_interval_ms" 100 3600000 s.persistInterval
  requireRange "maintenance.reclaim_interval_ms" 100 3600000 s.reclaimInterval

def AuditSection.validate (s : AuditSection) : Except Problem Unit :=
  match s.path with
  | some path => checkPath "audit.path" path
  | none => .ok ()

def GateConfig.validate (c : GateConfig) : Except Problem Unit := do
  c.server.validate
  c.store.validate
  c.admission.validate
  c.maintenance.validate
  c.audit.validate

end RelayRamp.Config
