import RelayRamp.Routing.Transport
import RelayRamp.Text.Natural
import RelayRamp.Text.Percent

/-!
# Endpoints

A request is for a resource, which its path names, and a method, which says what to do with it. Paths are
matched as they are written; only the variable parts are decoded. A method that a resource does not know is
told apart from a variable part that cannot be read, and the method is looked at first.
-/
namespace RelayRamp.Admin

open RelayRamp.Routing

inductive Method where
  | get
  | put
  | post
  | delete
  | other
  deriving DecidableEq, Repr

def Method.ofToken : String → Method
  | "GET" => get
  | "PUT" => put
  | "POST" => post
  | "DELETE" => delete
  | _ => other

/-- What a path names; variable parts are still as they were written. -/
inductive Resource where
  | config
  | warmup
  | jump (phase : String)
  | restart
  | phases
  | phase (number : String)
  | rules
  | transportMap
  | serviceBlock
  | rule (id : String)
  | metrics
  | batch
  | admissions
  | lease (transport id : String)
  | health
  deriving DecidableEq, Repr

/-- The resource of a path below the root of the interface, split at its slashes. A variable part at the end is
never empty. -/
def Resource.ofSegments? : List String → Option Resource
  | ["config"] => some config
  | ["warmup"] => some warmup
  | ["warmup", "reset"] => some restart
  | ["warmup", "phases"] => some phases
  | ["warmup", "phase", number] => if number.isEmpty then none else some (jump number)
  | ["warmup", "phases", number] => if number.isEmpty then none else some (phase number)
  | ["transports"] => some rules
  | ["transports", "map"] => some transportMap
  | ["transports", "master-cf"] => some serviceBlock
  | ["transports", id] => if id.isEmpty then none else some (rule id)
  | ["metrics"] => some metrics
  | ["batch"] => some batch
  | ["admissions"] => some admissions
  | ["leases", transport, id] => if id.isEmpty then none else some (lease transport id)
  | ["health"] => some health
  | _ => none

/-- The resource that a whole path names. -/
def Resource.ofPath? (path : String) : Option Resource :=
  match (Text.splitOn '/' path.toList).map String.ofList with
  | "" :: "api" :: "throttle" :: segments => ofSegments? segments
  | _ => none

/-- A call that can be made from outside. -/
inductive Endpoint where
  | readConfig
  | updateConfig
  | warmupStatus
  | setPhase (number : Nat)
  | resetWarmup
  | listPhases
  | replacePhases
  | updatePhase (number : Nat)
  | listRules
  | createRule
  | updateRule (id : Nat)
  | deleteRule (id : Nat)
  | transportMap
  | serviceBlock
  | metrics
  | batchBudget
  | requestAdmission
  | releaseLease (transport : TransportName) (id : Nat)
  | health
  deriving DecidableEq, Repr

/-- Why a request reaches no endpoint. -/
inductive Refusal where
  | unknownPath
  | wrongMethod
  | malformedParameter
  deriving DecidableEq, Repr

def Refusal.status : Refusal → Nat
  | unknownPath => 404
  | wrongMethod => 405
  | malformedParameter => 400

/-- Reads a variable part of a path. -/
def parameter (read : String → Option α) (written : String) : Except Refusal α :=
  match Text.Percent.decode written >>= read with
  | some a => .ok a
  | none => .error .malformedParameter

namespace Resource

/-- The endpoint of a method on a resource. -/
def endpoint (method : Method) : Resource → Except Refusal Endpoint
  | config =>
    match method with
    | .get => .ok .readConfig
    | .put => .ok .updateConfig
    | _ => .error .wrongMethod
  | warmup => if method = .get then .ok .warmupStatus else .error .wrongMethod
  | jump number =>
    if method = .put then .setPhase <$> parameter Text.word? number else .error .wrongMethod
  | restart => if method = .put then .ok .resetWarmup else .error .wrongMethod
  | phases =>
    match method with
    | .get => .ok .listPhases
    | .put => .ok .replacePhases
    | _ => .error .wrongMethod
  | phase number =>
    if method = .put then .updatePhase <$> parameter Text.word? number else .error .wrongMethod
  | rules =>
    match method with
    | .get => .ok .listRules
    | .post => .ok .createRule
    | _ => .error .wrongMethod
  | transportMap => if method = .get then .ok .transportMap else .error .wrongMethod
  | serviceBlock => if method = .get then .ok .serviceBlock else .error .wrongMethod
  | rule id =>
    match method with
    | .put => .updateRule <$> parameter Text.long? id
    | .delete => .deleteRule <$> parameter Text.long? id
    | _ => .error .wrongMethod
  | metrics => if method = .get then .ok .metrics else .error .wrongMethod
  | batch => if method = .get then .ok .batchBudget else .error .wrongMethod
  | admissions => if method = .post then .ok .requestAdmission else .error .wrongMethod
  | lease transport id =>
    if method = .delete then do
      let name ← parameter some transport
      let id ← parameter Text.long? id
      pure (.releaseLease ⟨name⟩ id)
    else .error .wrongMethod
  | health => if method = .get then .ok .health else .error .wrongMethod

end Resource

/-- The endpoint of a method and a path. -/
def Endpoint.find (method : Method) (path : String) : Except Refusal Endpoint :=
  match Resource.ofPath? path with
  | some resource => resource.endpoint method
  | none => .error .unknownPath

end RelayRamp.Admin
