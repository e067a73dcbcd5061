import RelayRamp.Admission.Verdict
import RelayRamp.Text.Blank

/-!
# Policy requests and replies

The mail server asks about one recipient at a time with `name=value` lines and gets one action back. Only a
held attempt leads to a hold; in every other case the server goes on with its own checks.
-/
namespace RelayRamp.Policy

open RelayRamp.Admission RelayRamp.Text

/-- The attributes of one request, the newest first. -/
structure PolicyRequest where
  attributes : List (String × String)
  deriving DecidableEq, Repr

namespace PolicyRequest

def empty : PolicyRequest := ⟨[]⟩

def maxAttributes : Nat := 128

/-- Takes in one line. A line without `=` is ignored, and so is every line after the request is full. -/
def push (r : PolicyRequest) (line : List Char) : PolicyRequest :=
  if r.attributes.length ≥ maxAttributes then r
  else
    match splitFirst '=' line with
    | none => r
    | some (name, value) =>
      let name := String.ofList (trimChars name)
      let value := String.ofList (trimChars value)
      ⟨(name, value) :: r.attributes.filter (·.1 ≠ name)⟩

def get? (r : PolicyRequest) (name : String) : Option String := r.attributes.lookup name

/-- The recipient, if one is named. -/
def recipient? (r : PolicyRequest) : Option String :=
  (r.get? "recipient").filter (· ≠ "")

end PolicyRequest

inductive PolicyAction where
  /-- No opinion. -/
  | dunno
  /-- Keep the message back for a later attempt. -/
  | hold (reason : String)
  deriving DecidableEq, Repr

namespace PolicyAction

/-- A reason on one line: control characters become blanks. -/
def oneLine (reason : String) : String :=
  String.ofList (reason.toList.map fun c => if isControl c then ' ' else c)

/-- The reply, with the empty line that ends it. -/
def render : PolicyAction → String
  | dunno => "action=DUNNO\n\n"
  | hold reason => "action=HOLD " ++ oneLine reason ++ "\n\n"

def ofVerdict : Verdict → PolicyAction
  | .held reason => hold ("warmup throttle: " ++ reason.describe)
  | _ => dunno

end PolicyAction

end RelayRamp.Policy
