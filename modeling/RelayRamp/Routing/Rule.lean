import RelayRamp.Routing.Pattern
import RelayRamp.Routing.Transport

/-!
# Transport rules

A rule routes the domains of a pattern to a transport. A draft is a rule without an id; validating it puts
its pattern into canonical form. A patch says for each field whether it stays or changes.
-/
namespace RelayRamp.Routing

open RelayRamp.Text

structure RuleDraft where
  pattern : String
  transport : TransportName
  limits : TransportLimits
  isActive : Bool
  description : Option String
  deriving DecidableEq, Repr

structure TransportRule extends RuleDraft where
  id : Nat
  deriving DecidableEq, Repr

def maxDescriptionLength : Nat := 512

namespace RuleDraft

/-- The pattern of the draft and the draft in canonical form. -/
def validate (draft : RuleDraft) : Except ValidationFault (DomainPattern × RuleDraft) := do
  let pattern ← DomainPattern.parse draft.pattern
  draft.transport.validate
  draft.limits.validate
  if octets (draft.description.getD "") > maxDescriptionLength then
    throw (.rule .longDescription)
  pure (pattern, { draft with pattern := pattern.canonical })

def withId (draft : RuleDraft) (id : Nat) : TransportRule := { draft with id := id }

end RuleDraft

/-- Changes to a rule. A description can be kept (`none`), cleared (`some none`) or set. -/
structure RulePatch where
  pattern : Option String
  transport : Option TransportName
  concurrency : Option Nat
  rateDelaySeconds : Option Nat
  isActive : Option Bool
  description : Option (Option String)
  deriving DecidableEq, Repr

namespace TransportRule

/-- The rule with the changes, not yet validated. -/
def patched (rule : TransportRule) (patch : RulePatch) : TransportRule where
  id := rule.id
  pattern := patch.pattern.getD rule.pattern
  transport := patch.transport.getD rule.transport
  limits :=
    { concurrency := patch.concurrency.getD rule.limits.concurrency
      rateDelaySeconds := patch.rateDelaySeconds.getD rule.limits.rateDelaySeconds }
  isActive := patch.isActive.getD rule.isActive
  description := patch.description.getD rule.description

def parsedPattern (rule : TransportRule) : Except ValidationFault DomainPattern :=
  DomainPattern.parse rule.pattern

end TransportRule

end RelayRamp.Routing
