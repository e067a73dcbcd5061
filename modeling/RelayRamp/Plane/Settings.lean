import RelayRamp.Routing.Transport

/-!
# Engine settings
-/
namespace RelayRamp.Plane

open RelayRamp.Routing

/-- What happens to attempts while the store is unavailable. -/
inductive FailSafe where
  /-- Throttling counts as switched off. -/
  | flowing
  /-- Every attempt is held. -/
  | closed
  deriving DecidableEq, Repr

def FailSafe.label : FailSafe → String
  | flowing => "open"
  | closed => "closed"

def FailSafe.ofLabel? : String → Option FailSafe
  | "open" => some flowing
  | "closed" => some closed
  | _ => none

/-- Spans are in milliseconds. -/
structure EngineSettings where
  leaseTimeout : Nat
  maxDelivery : Nat
  failSafe : FailSafe
  defaultTransport : DefaultTransport
  seedPhases : Bool
  seedRules : Bool
  deriving DecidableEq, Repr

def EngineSettings.standard : EngineSettings := ⟨5000, 600000, .flowing, .standard, true, true⟩

end RelayRamp.Plane
