import RelayRamp.Admission.Counters
import RelayRamp.Lease.Pool
import RelayRamp.Plane.Settings
import RelayRamp.Store.Call
import RelayRamp.Warmup.Clock

/-!
# The state of the engine

Admissions read a published snapshot of configuration, phases and rules; writers replace it whole, and each
replacement has the next version. A degraded snapshot says that the store could not be read. Counters, leases
and tallies change with the attempts themselves.
-/
namespace RelayRamp.Plane

open RelayRamp.Admission RelayRamp.Lease RelayRamp.Routing RelayRamp.Store RelayRamp.Warmup

/-- Why there is no phase table. -/
inductive PhasesFault where
  | notLoaded
  | invalid (fault : ValidationFault)
  deriving DecidableEq, Repr

def PhasesFault.message : PhasesFault → String
  | notLoaded => "throttle store not loaded"
  | invalid fault => fault.message

structure Snapshot where
  version : Nat
  config : WarmupConfig
  phases : Except PhasesFault PhaseTable
  matcher : Matcher
  degraded : Bool

/-- Decisions since the start. -/
structure Tallies where
  admitted : Nat
  held : Nat
  rejected : Nat
  /-- Attempts held because the store was unavailable; they are not in `held`. -/
  failSafeHeld : Nat
  deriving DecidableEq, Repr

namespace Tallies

def zero : Tallies := ⟨0, 0, 0, 0⟩

/-- Counts one verdict. -/
def count (t : Tallies) : Verdict → Tallies
  | .admitted .. => { t with admitted := t.admitted + 1 }
  | .held .failSafe => { t with failSafeHeld := t.failSafeHeld + 1 }
  | .held _ => { t with held := t.held + 1 }
  | .rejected _ => { t with rejected := t.rejected + 1 }

end Tallies

/-- What a control-plane call can fail with. -/
inductive PlaneFault where
  | validation (fault : ValidationFault)
  | configuration (fault : ConfigurationFault)
  | store (fault : StoreFault)
  | ruleNotFound (id : Nat)
  deriving DecidableEq, Repr

def PlaneFault.message : PlaneFault → String
  | validation fault => fault.message
  | configuration fault => fault.message
  | store fault => fault.message
  | ruleNotFound id => s!"transport rule not found: {id}"

/-- Where a fault arose and a word for its cause, for programs. -/
def PlaneFault.label : PlaneFault → String
  | validation fault => "validation/" ++ fault.label
  | configuration fault => "configuration/" ++ fault.label
  | store fault => "store/" ++ fault.kind.label
  | ruleNotFound _ => "rule_not_found"

/-- The two clocks at one instant: wall time, and milliseconds that only grow. -/
structure Moment where
  wall : Time.Instant
  tick : Nat
  deriving DecidableEq, Repr

/-- The phase table, or the configuration fault of a snapshot without one. -/
def Snapshot.table (s : Snapshot) : Except ConfigurationFault PhaseTable :=
  s.phases.mapError fun fault => .inconsistentPhaseTable fault.message

end RelayRamp.Plane

namespace RelayRamp

open RelayRamp.Admission RelayRamp.Lease RelayRamp.Plane

structure Plane (σ : Type) where
  protected store : σ
  protected snapshot : Snapshot
  protected counters : Counters
  protected pool : Pool
  protected tallies : Tallies
  protected settings : EngineSettings

end RelayRamp
