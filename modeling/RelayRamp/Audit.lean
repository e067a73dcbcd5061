import RelayRamp.Json.Basic
import RelayRamp.Routing.Transport

/-!
# Audit events

What the engine reports about overrides, configuration changes, anomalies and attempts that were not admitted.
An event says what it is about; where its line goes is up to the sink.
-/
namespace RelayRamp

open RelayRamp.Routing

inductive AuditKind where
  | configUpdated
  | throttleEnabled
  | throttleDisabled
  | phaseOverride
  | warmupReset
  | phasesUpdated
  | transportCreated
  | transportUpdated
  | transportDeleted
  | admissionHeld
  | admissionRejected
  | anomalousRelease
  | leaseReclaimed
  | storeDegraded
  | counterPersistFailed
  | batchBudget
  | policyAcceptFailed
  deriving DecidableEq, Repr

def AuditKind.label : AuditKind → String
  | configUpdated => "config_updated"
  | throttleEnabled => "throttle_enabled"
  | throttleDisabled => "throttle_disabled"
  | phaseOverride => "phase_override"
  | warmupReset => "warmup_reset"
  | phasesUpdated => "phases_updated"
  | transportCreated => "transport_created"
  | transportUpdated => "transport_updated"
  | transportDeleted => "transport_deleted"
  | admissionHeld => "admission_held"
  | admissionRejected => "admission_rejected"
  | anomalousRelease => "anomalous_release"
  | leaseReclaimed => "lease_reclaimed"
  | storeDegraded => "store_degraded"
  | counterPersistFailed => "counter_persist_failed"
  | batchBudget => "batch_budget"
  | policyAcceptFailed => "policy_accept_failed"

def AuditKind.all : List AuditKind :=
  [ configUpdated, throttleEnabled, throttleDisabled, phaseOverride, warmupReset, phasesUpdated,
    transportCreated, transportUpdated, transportDeleted, admissionHeld, admissionRejected,
    anomalousRelease, leaseReclaimed, storeDegraded, counterPersistFailed, batchBudget,
    policyAcceptFailed ]

def AuditKind.ofLabel? (label : String) : Option AuditKind := all.find? (·.label = label)

structure AuditEvent where
  kind : AuditKind
  detail : String
  transport : Option TransportName
  leaseId : Option Nat
  phaseNumber : Option Nat
  deriving DecidableEq, Repr

namespace AuditEvent

/-- An event about nothing in particular. -/
def plain (kind : AuditKind) (detail : String) : AuditEvent := ⟨kind, detail, none, none, none⟩

def onTransport (kind : AuditKind) (detail : String) (transport : TransportName) : AuditEvent :=
  { plain kind detail with transport := some transport }

def onLease (kind : AuditKind) (detail : String) (transport : TransportName) (lease : Nat) : AuditEvent :=
  { plain kind detail with transport := some transport, leaseId := some lease }

def onPhase (kind : AuditKind) (detail : String) (phase : Nat) : AuditEvent :=
  { plain kind detail with phaseNumber := some phase }

/-- The members of the event that do not depend on when it happened. -/
def members (event : AuditEvent) : List (String × Option Json) :=
  [ ("kind", some (.str event.kind.label)),
    ("detail", some (.str event.detail)),
    ("transport", event.transport.map fun t => .str t.text),
    ("lease_id", event.leaseId.map Json.nat),
    ("phase_number", event.phaseNumber.map Json.nat) ]

/-- The line of an event: its members after a fixed name and the milliseconds since the epoch. -/
def line (event : AuditEvent) (timestampMs : Nat) : Json :=
  .object (("event", some (.str "throttle_audit")) :: ("timestamp_ms", some (.nat timestampMs)) ::
    event.members)

end AuditEvent

end RelayRamp
