/-!
# Faults

Everything that can be wrong with operator input or with the configured state, as causes. The wording of each
cause is in one place, its `message`.
-/
namespace RelayRamp

/-- What is wrong with a single phase. -/
inductive PhaseFault where
  | blankName
  | longName
  | zeroDuration
  | longDuration
  | missing
  deriving DecidableEq, Repr

def PhaseFault.message : PhaseFault → String
  | .blankName => "name must not be empty"
  | .longName => "name too long"
  | .zeroDuration => "duration_days must be greater than zero"
  | .longDuration => "duration_days too large"
  | .missing => "phase does not exist"

/-- What is wrong with a phase table as a whole. -/
inductive TableFault where
  | empty
  | tooMany (limit : Nat)
  | gap (expected found : Nat)
  deriving DecidableEq, Repr

def TableFault.message : TableFault → String
  | .empty => "at least one phase is required"
  | .tooMany limit => s!"at most {limit} phases are allowed"
  | .gap expected found => s!"phase numbers must be contiguous from 0; expected {expected}, found {found}"

/-- What is wrong with a domain pattern. -/
inductive PatternFault where
  | domain
  | suffix
  | wildcard
  deriving DecidableEq, Repr

def PatternFault.message : PatternFault → String
  | .domain => "invalid domain"
  | .suffix => "invalid suffix domain"
  | .wildcard => "wildcard is only allowed as a leading `*.` label"

/-- What is wrong with the values of a transport rule. -/
inductive RuleFault where
  | nameLength (limit : Nat)
  | nameCharacter
  | zeroConcurrency
  | concurrency (limit : Nat)
  | rateDelay (limit : Nat)
  | longDescription
  deriving DecidableEq, Repr

def RuleFault.message : RuleFault → String
  | .nameLength limit => s!"transport_name must be 1..={limit} characters"
  | .nameCharacter => "transport_name may only contain letters, digits, `_` and `-`"
  | .zeroConcurrency => "concurrency_limit must be greater than zero"
  | .concurrency limit => s!"concurrency_limit must not exceed {limit}"
  | .rateDelay limit => s!"rate_delay_seconds must not exceed {limit}"
  | .longDescription => "description too long"

/-- Input that is refused before anything changes. -/
inductive ValidationFault where
  | phaseTable (fault : TableFault)
  | phase (number : Nat) (fault : PhaseFault)
  | pattern (text : String) (fault : PatternFault)
  | duplicatePattern (text : String)
  | rule (fault : RuleFault)
  | batchInterval (limit : Nat)
  deriving DecidableEq, Repr

def ValidationFault.message : ValidationFault → String
  | .phaseTable fault => s!"invalid phase table: {fault.message}"
  | .phase number fault => s!"invalid phase {number}: {fault.message}"
  | .pattern text fault => s!"invalid domain pattern `{text}`: {fault.message}"
  | .duplicatePattern text => s!"domain pattern `{text}` already exists"
  | .rule fault => s!"invalid transport rule: {fault.message}"
  | .batchInterval limit =>
    s!"invalid warmup config: batch_interval_minutes must be between 1 and {limit}"

/-- A word for the cause, for programs. -/
def ValidationFault.label : ValidationFault → String
  | .phaseTable _ => "phase_table"
  | .phase .. => "phase"
  | .pattern .. => "domain_pattern"
  | .duplicatePattern _ => "duplicate_pattern"
  | .rule _ => "rule"
  | .batchInterval _ => "config"

/-- A configuration that prevents a decision until an operator mends it. -/
inductive ConfigurationFault where
  | malformedDomain (text : String)
  | unknownTransport (name : String)
  | inconsistentPhaseTable (reason : String)
  | emptyBatch
  deriving DecidableEq, Repr

def ConfigurationFault.message : ConfigurationFault → String
  | .malformedDomain text => s!"malformed recipient domain `{text}`"
  | .unknownTransport name => s!"unknown transport `{name}`"
  | .inconsistentPhaseTable reason => s!"inconsistent phase table: {reason}"
  | .emptyBatch => "batch size must be greater than zero"

/-- A word for the cause, for programs. -/
def ConfigurationFault.label : ConfigurationFault → String
  | .malformedDomain _ => "malformed_domain"
  | .unknownTransport _ => "unknown_transport"
  | .inconsistentPhaseTable _ => "inconsistent_phase_table"
  | .emptyBatch => "empty_batch"

end RelayRamp
