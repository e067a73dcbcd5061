import RelayRamp.Json.Basic
import RelayRamp.Plane.Snapshot

/-!
# Replies of the admin interface

A reply has a status and may carry JSON or text. A fault of a call becomes a status and a label for programs
with the message for people.
-/
namespace RelayRamp.Admin

open RelayRamp.Plane

inductive Content where
  | empty
  | json (value : Json)
  | text (text : String)

structure Reply where
  status : Nat
  content : Content

namespace Reply

def bare (status : Nat) : Reply := ⟨status, .empty⟩

def json (value : Json) : Reply := ⟨200, .json value⟩

def text (text : String) : Reply := ⟨200, .text text⟩

/-- A labelled error. -/
def fault (status : Nat) (label message : String) : Reply :=
  ⟨status, .json (.obj [("error", .str label), ("message", .str message)])⟩

def tooLarge : Reply := fault 413 "body_too_large" "request body too large"

/-- The body is not what the endpoint takes. -/
def invalidBody (message : String) : Reply := fault 400 "invalid_body" message

def ofFault (f : PlaneFault) : Reply :=
  match f with
  | .validation (.duplicatePattern _) => fault 409 "duplicate_pattern" f.message
  | .validation _ => fault 400 "validation" f.message
  | .configuration _ => fault 409 "configuration" f.message
  | .store _ => fault 503 "store" f.message
  | .ruleNotFound _ => fault 404 "not_found" f.message

/-- The reply without its content. -/
def head (r : Reply) : Reply := { r with content := .empty }

end Reply

end RelayRamp.Admin
