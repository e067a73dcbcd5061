import RelayRamp.Fault
import RelayRamp.Routing.Transport
import RelayRamp.Time.Window

/-!
# Admission requests and verdicts

A send attempt ends admitted, held or rejected. A held attempt may be tried again later; a rejected one only
after an operator has corrected the configuration.
-/
namespace RelayRamp.Admission

open RelayRamp.Routing RelayRamp.Time

structure AdmissionRequest where
  recipient : String
  batchSize : Nat
  /-- A transport asked for by name instead of by the recipient's domain. -/
  transport : Option TransportName
  leaseTimeoutMs : Option Nat
  deriving DecidableEq, Repr

/-- A request for one item. -/
def AdmissionRequest.single (recipient : String) : AdmissionRequest := ⟨recipient, 1, none, none⟩

inductive HoldReason where
  | capacityExceeded (window : WindowKind) (current requested limit : Nat)
  | burstExceeded (requested limit : Nat)
  | leaseTimeout (transport : TransportName)
  | failSafe
  deriving DecidableEq, Repr

namespace HoldReason

def label : HoldReason → String
  | capacityExceeded .. => "capacity_exceeded"
  | burstExceeded .. => "burst_exceeded"
  | leaseTimeout _ => "lease_timeout"
  | failSafe => "fail_safe"

/-- The text shown to operators and mail clients. -/
def describe : HoldReason → String
  | capacityExceeded window current requested limit =>
    s!"{window.label} limit reached ({current}+{requested} > {limit})"
  | burstExceeded requested limit => s!"batch of {requested} exceeds burst limit {limit}"
  | leaseTimeout transport => s!"no free slot on transport {transport.text}"
  | failSafe => "throttle store unavailable"

end HoldReason

/-- Names a lease that is outstanding on a transport. -/
structure LeaseTicket where
  transport : TransportName
  leaseId : Nat
  deriving DecidableEq, Repr

inductive Verdict where
  /-- The send may proceed; without a transport when throttling did not apply. -/
  | admitted (transport : Option TransportName) (ruleId : Option Nat) (lease : Option LeaseTicket)
      (counters : CounterReading)
  | held (reason : HoldReason)
  | rejected (reason : ConfigurationFault)
  deriving DecidableEq, Repr

namespace Verdict

/-- The name of the state that the attempt ended in. -/
def state : Verdict → String
  | admitted .. => "admitted"
  | held _ => "held"
  | rejected _ => "rejected"

/-- The attempt may be made again without a change of configuration. -/
def isRetryable : Verdict → Bool
  | held _ => true
  | _ => false

/-- Every verdict ends its attempt. -/
def isTerminal (_ : Verdict) : Bool := true

end Verdict

end RelayRamp.Admission
