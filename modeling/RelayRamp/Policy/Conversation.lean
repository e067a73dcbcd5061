import RelayRamp.Plane.Engine
import RelayRamp.Policy.Framing

/-!
# Answering policy requests

Each request of a stream is an attempt for one item, decided before the next request is looked at. The lease of
an admitted attempt is given back at once, since the mail server delivers the message itself. A request without
recipient is answered without an attempt.
-/
namespace RelayRamp.Policy

open RelayRamp.Admission RelayRamp.Plane RelayRamp.Store

/-- The action for one request. -/
def evaluate [ThrottleStore σ] (e : Engine σ) (request : PolicyRequest) : Engine σ × PolicyAction :=
  match request.recipient? with
  | none => (e, .dunno)
  | some recipient =>
    match Engine.attempt e (.single recipient) with
    | (e, some admission) => (Engine.complete e admission, .ofVerdict admission.verdict)
    | (e, none) => (e, .dunno)

section

variable {m : Type → Type u} [Monad m]

/-- Decides a request and sends the reply. -/
def answer (judge : PolicyRequest → m PolicyAction) (send : String → m Unit) (request : PolicyRequest) : m Unit := do
  let action ← judge request
  send action.render

/-- Answers the requests of a connection, from the first octets that are read to the last. -/
def attend (judge : PolicyRequest → m PolicyAction) (send : String → m Unit) (reads : List (List UInt8)) : m Unit := do
  let _ ← reads.foldlM (Intake.hear (answer judge send)) .empty

end

/-- Everything that is sent back over one connection while nothing else happens at the engine. -/
def converse [ThrottleStore σ] (e : Engine σ) (reads : List (List UInt8)) : Engine σ × String :=
  let judge (request : PolicyRequest) : StateM (Engine σ × String) PolicyAction :=
    modifyGet fun (e, sent) =>
      let (e, action) := evaluate e request
      (action, (e, sent))
  let send (reply : String) : StateM (Engine σ × String) Unit :=
    modify fun (e, sent) => (e, sent ++ reply)
  ((attend judge send reads).run (e, "")).2

end RelayRamp.Policy
