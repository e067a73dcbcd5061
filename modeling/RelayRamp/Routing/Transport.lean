import RelayRamp.Fault
import RelayRamp.Text.Blank

/-!
# Transports and their limits

A transport is a named delivery path with a bound on concurrent deliveries and a least spacing between sends.
When several rules name one transport, their limits combine to the tighter bound and the wider spacing.
-/
namespace RelayRamp.Routing

open RelayRamp.Text

structure TransportName where
  text : String
  deriving DecidableEq, Repr, Inhabited

namespace TransportName

/-- Names are ordered by their characters. -/
def before (a b : TransportName) : Bool := a.text < b.text

def maxLength : Nat := 64

def isNameChar (c : Char) : Bool :=
  isAlphanumeric c || c == '_' || c == '-'

def validate (name : TransportName) : Except ValidationFault Unit :=
  if name.text.isEmpty || octets name.text > maxLength then .error (.rule (.nameLength maxLength))
  else if !name.text.toList.all isNameChar then .error (.rule .nameCharacter)
  else .ok ()

end TransportName

structure TransportLimits where
  concurrency : Nat
  rateDelaySeconds : Nat
  deriving DecidableEq, Repr

namespace TransportLimits

def maxConcurrency : Nat := 10000
def maxRateDelaySeconds : Nat := 3600

def validate (limits : TransportLimits) : Except ValidationFault Unit :=
  if limits.concurrency = 0 then .error (.rule .zeroConcurrency)
  else if limits.concurrency > maxConcurrency then .error (.rule (.concurrency maxConcurrency))
  else if limits.rateDelaySeconds > maxRateDelaySeconds then
    .error (.rule (.rateDelay maxRateDelaySeconds))
  else .ok ()

/-- The least spacing of grants in milliseconds. -/
def rateDelay (limits : TransportLimits) : Nat := limits.rateDelaySeconds * 1000

/-- The tighter bound and the wider spacing. -/
def merge (a b : TransportLimits) : TransportLimits where
  concurrency := min a.concurrency b.concurrency
  rateDelaySeconds := max a.rateDelaySeconds b.rateDelaySeconds

end TransportLimits

/-- The transport for domains that no rule matches. -/
structure DefaultTransport where
  name : TransportName
  limits : TransportLimits
  deriving DecidableEq, Repr

namespace DefaultTransport

def validate (fallback : DefaultTransport) : Except ValidationFault Unit := do
  fallback.name.validate
  fallback.limits.validate

/-- The transport used when none is configured. -/
def standard : DefaultTransport := ⟨⟨"default"⟩, ⟨5, 1⟩⟩

end DefaultTransport

/-- Where a domain is routed; the rule is absent for the default transport and for a transport asked for by
name. -/
structure Route where
  transport : TransportName
  limits : TransportLimits
  ruleId : Option Nat
  deriving DecidableEq, Repr

end RelayRamp.Routing
