import RelayRamp.Admin.Endpoint
import RelayRamp.Admin.Reply
import RelayRamp.Admin.Request
import RelayRamp.Codec.Plane
import RelayRamp.Json.Parser
import RelayRamp.Plane.Engine

/-!
# The admin interface

Each endpoint is one call of the control plane or one attempt. A call is replied to at once; an attempt may have
to wait, and its verdict is the reply. A body is read only after the path has led to an endpoint that takes one,
and its size is checked before its text.
-/
namespace RelayRamp.Admin

open RelayRamp.Admission RelayRamp.Plane RelayRamp.Routing RelayRamp.Store RelayRamp.Warmup

/-- Longer bodies are not even received. -/
def maxReceived : Nat := 2 * 1024 * 1024

/-- What a request comes to. -/
inductive Response where
  | reply (reply : Reply)
  /-- The reply is the verdict of an attempt. -/
  | attempt (request : AdmissionRequest)

/-- Reads the body for what the endpoint takes. -/
def readBody (limit : Nat) (body : List UInt8) (decode : Json → Option α) : Except Reply α :=
  if body.length > maxReceived then .error (.bare 413)
  else if body.length > limit then .error .tooLarge
  else
    match Json.parse body >>= decode with
    | some value => .ok value
    | none => .error (.invalidBody "request body does not have the expected form")

variable {σ : Type}

/-- Makes a call and replies with its result. -/
def replying [ThrottleStore σ] (e : Engine σ) (c : Call σ α) (encode : α → Reply) : Engine σ × Response :=
  match Engine.call e c with
  | (e, .ok value) => (e, .reply (encode value))
  | (e, .error fault) => (e, .reply (.ofFault fault))

/-- Goes on with what the body holds, or replies that it cannot be read. -/
def withBody (limit : Nat) (e : Engine σ) (body : List UInt8) (decode : Json → Option α)
    (go : α → Engine σ × Response) : Engine σ × Response :=
  match readBody limit body decode with
  | .ok value => go value
  | .error reply => (e, .reply reply)

def phasesReply (phases : List WarmupPhase) : Reply := .json (.arr (phases.map (·.toJson)))

def healthJson (s : Snapshot) : Json :=
  .obj
    [ ("version", .nat s.version), ("degraded", .bool s.degraded), ("enabled", .bool s.config.enabled) ]

/-- Serves one endpoint as far as that takes no time. -/
def Endpoint.serve [ThrottleStore σ] (limit : Nat) (e : Engine σ) (body : List UInt8) :
    Endpoint → Engine σ × Response
  | readConfig => replying e getConfig (.json ·.toJson)
  | updateConfig => withBody limit e body ConfigUpdate.ofJson? fun update =>
    replying e (Plane.updateConfig update) (.json ·.toJson)
  | warmupStatus => replying e Plane.warmupStatus (.json ·.toJson)
  | setPhase number => replying e (Plane.setPhase number) (.json ·.toJson)
  | resetWarmup => replying e Plane.resetWarmup (.json ·.toJson)
  | listPhases => replying e Plane.listPhases phasesReply
  | replacePhases => withBody limit e body (Json.asList? WarmupPhase.ofJson?) fun phases =>
    replying e (Plane.replacePhases phases) phasesReply
  | updatePhase number => withBody limit e body PhasePatch.ofJson? fun patch =>
    replying e (Plane.updatePhase number patch) (.json ·.toJson)
  | listRules => replying e Plane.listRules fun rules => .json (.arr (rules.map (·.toJson)))
  | createRule => withBody limit e body RuleDraft.ofJson? fun draft =>
    replying e (Plane.createRule draft) fun rule => { Reply.json rule.toJson with status := 201 }
  | updateRule id => withBody limit e body RulePatch.ofJson? fun patch =>
    replying e (Plane.updateRule id patch) (.json ·.toJson)
  | deleteRule id => replying e (Plane.deleteRule id) fun _ => .bare 204
  | transportMap => replying e Plane.transportMap .text
  | serviceBlock => replying e Plane.serviceBlock .text
  | metrics => (e, .reply (.json (e.shared.plane.metrics e.shared.wall).toJson))
  | batchBudget =>
    match e.shared.plane.batchBudget e.shared.wall with
    | .ok budget => (e, .reply (.json budget.toJson))
    | .error fault => (e, .reply (.ofFault (.configuration fault)))
  | requestAdmission => withBody limit e body AdmissionRequest.ofJson? fun request =>
    (e, .attempt request)
  | releaseLease transport id =>
    replying e (Plane.releaseLease transport id) fun result =>
      .json (.obj [("released", .bool (result = .released))])
  | health => (e, .reply (.json (healthJson e.shared.plane.snapshot)))

/-- Serves one request as far as that takes no time. A request for the head of a resource is answered like one
for the resource itself, but without content. -/
def respond [ThrottleStore σ] (limit : Nat) (e : Engine σ) (r : Request) : Engine σ × Response :=
  let serve (method : Method) : Engine σ × Response :=
    match Endpoint.find method r.path with
    | .ok endpoint => endpoint.serve limit e r.body
    | .error refusal => (e, .reply (.bare refusal.status))
  if r.method = "HEAD" then
    match serve .get with
    | (e, .reply reply) => (e, .reply reply.head)
    | attempted => attempted
  else serve (.ofToken r.method)

def verdictReply (admission : Admission) : Reply := .json admission.verdict.toJson

/-- Serves one request; time passes until it is replied to. -/
def handle [ThrottleStore σ] (limit : Nat) (e : Engine σ) (r : Request) : Engine σ × Reply :=
  match respond limit e r with
  | (e, .reply reply) => (e, reply)
  | (e, .attempt request) =>
    let (e, admission) := Engine.attempt e request
    (e, (admission.map verdictReply).getD (.bare 500))

end RelayRamp.Admin
