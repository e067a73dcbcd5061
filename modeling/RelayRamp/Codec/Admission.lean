import RelayRamp.Admission.Verdict
import RelayRamp.Codec.Routing
import RelayRamp.Codec.Time

/-!
# Requests and verdicts as JSON

A verdict carries its state as a member `state`, a hold reason its kind as a member `kind`; a configuration
fault is a `kind` with a `detail`, which the fault without content lacks.
-/
namespace RelayRamp

open RelayRamp.Routing RelayRamp.Time

namespace ConfigurationFault

def toJson : ConfigurationFault → Json
  | malformedDomain text => .obj [("kind", .str "malformed_domain"), ("detail", .str text)]
  | unknownTransport name => .obj [("kind", .str "unknown_transport"), ("detail", .str name)]
  | inconsistentPhaseTable reason =>
    .obj [("kind", .str "inconsistent_phase_table"), ("detail", .str reason)]
  | emptyBatch => .obj [("kind", .str "empty_batch")]

def ofJson? (j : Json) : Option ConfigurationFault := do
  let [kind, detail] ← j.cells ["kind", "detail"] | none
  match ← kind.required Json.asString? with
  | "malformed_domain" => malformedDomain <$> detail.required Json.asString?
  | "unknown_transport" => unknownTransport <$> detail.required Json.asString?
  | "inconsistent_phase_table" => inconsistentPhaseTable <$> detail.required Json.asString?
  | "empty_batch" =>
    match detail with
    | .omitted | .given .null => some emptyBatch
    | _ => none
  | _ => none

end ConfigurationFault

namespace Admission

namespace AdmissionRequest

def toJson (r : AdmissionRequest) : Json :=
  .obj
    [ ("recipient", .str r.recipient),
      ("batch_size", .nat r.batchSize),
      ("transport", .option TransportName.toJson r.transport),
      ("lease_timeout_ms", .option .nat r.leaseTimeoutMs) ]

def ofJson? (j : Json) : Option AdmissionRequest := do
  let names := ["recipient", "batch_size", "transport", "lease_timeout_ms"]
  let [recipient, size, transport, timeout] ← j.cells names | none
  pure
    { recipient := ← recipient.required Json.asString?
      batchSize := ← size.orElse 1 Json.asWord?
      transport := ← transport.defaulted TransportName.ofJson?
      leaseTimeoutMs := ← timeout.defaulted Json.asLong? }

end AdmissionRequest

namespace HoldReason

def toJson (reason : HoldReason) : Json :=
  .obj (("kind", .str reason.label) ::
    match reason with
    | capacityExceeded window current requested limit =>
      [ ("window", window.toJson), ("current", .nat current), ("requested", .nat requested),
        ("limit", .nat limit) ]
    | burstExceeded requested limit => [("requested", .nat requested), ("burst_limit", .nat limit)]
    | leaseTimeout transport => [("transport", transport.toJson)]
    | failSafe => [])

def ofJson? (j : Json) : Option HoldReason := do
  let (kind, fields) ← j.tagged "kind"
  match kind with
  | "capacity_exceeded" =>
    let [window, current, requested, limit] ←
      fields.cells ["window", "current", "requested", "limit"] | none
    pure
      (capacityExceeded (← window.required WindowKind.ofJson?) (← current.required Json.asLong?)
        (← requested.required Json.asLong?) (← limit.required Json.asLong?))
  | "burst_exceeded" =>
    let [requested, limit] ← fields.cells ["requested", "burst_limit"] | none
    pure (burstExceeded (← requested.required Json.asLong?) (← limit.required Json.asLong?))
  | "lease_timeout" =>
    let [transport] ← fields.cells ["transport"] | none
    pure (leaseTimeout (← transport.required TransportName.ofJson?))
  | "fail_safe" =>
    let _ ← fields.cells []
    pure failSafe
  | _ => none

end HoldReason

namespace LeaseTicket

def toJson (t : LeaseTicket) : Json :=
  .obj [("transport", t.transport.toJson), ("lease_id", .nat t.leaseId)]

def ofJson? (j : Json) : Option LeaseTicket := do
  let [transport, lease] ← j.cells ["transport", "lease_id"] | none
  pure ⟨← transport.required TransportName.ofJson?, ← lease.required Json.asLong?⟩

end LeaseTicket

namespace Verdict

def toJson (v : Verdict) : Json :=
  .obj (("state", .str v.state) ::
    match v with
    | admitted transport ruleId lease counters =>
      [ ("transport", .option TransportName.toJson transport),
        ("rule_id", .option .nat ruleId),
        ("lease", .option LeaseTicket.toJson lease),
        ("counters", counters.toJson) ]
    | held reason => [("reason", reason.toJson)]
    | rejected reason => [("reason", reason.toJson)])

def ofJson? (j : Json) : Option Verdict := do
  let (state, fields) ← j.tagged "state"
  match state with
  | "admitted" =>
    let [transport, ruleId, lease, counters] ←
      fields.cells ["transport", "rule_id", "lease", "counters"] | none
    pure
      (admitted (← transport.optional TransportName.ofJson?) (← ruleId.optional Json.asLong?)
        (← lease.optional LeaseTicket.ofJson?) (← counters.required CounterReading.ofJson?))
  | "held" =>
    let [reason] ← fields.cells ["reason"] | none
    pure (held (← reason.required HoldReason.ofJson?))
  | "rejected" =>
    let [reason] ← fields.cells ["reason"] | none
    pure (rejected (← reason.required ConfigurationFault.ofJson?))
  | _ => none

end Verdict

end Admission

end RelayRamp
