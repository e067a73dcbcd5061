import RelayRamp.Routing.Rule

/-!
# Routing by rules

A matcher is built from the active rules and a default transport. The rule that wins has the longest literal
part among those that match; of equally long ones the oldest, that is the one with the smallest id, wins. The
limits of a transport combine those of every active rule that names it, and of the default transport.
-/
namespace RelayRamp.Routing

/-- A list of transports in the order of their names. -/
abbrev Roster (α : Type) := List (TransportName × α)

namespace Roster

/-- Changes the entry of a name, or puts a new one into its place in the order. -/
def upsert (change : Option α → α) (name : TransportName) : Roster α → Roster α
  | [] => [(name, change none)]
  | (key, value) :: rest =>
    if key = name then (key, change (some value)) :: rest
    else if name.before key then (name, change none) :: (key, value) :: rest
    else (key, value) :: upsert change name rest

def get? (name : TransportName) (roster : Roster α) : Option α :=
  (roster.find? (·.1 = name)).map (·.2)

end Roster

/-- A rule in the matcher. -/
structure CompiledRule where
  id : Nat
  pattern : DomainPattern
  transport : TransportName
  deriving DecidableEq, Repr

/-- The first rule is tried no later than the second. -/
def CompiledRule.precedes (a b : CompiledRule) : Bool :=
  a.pattern.literalLength > b.pattern.literalLength
    || (a.pattern.literalLength == b.pattern.literalLength && a.id ≤ b.id)

structure Matcher where
  /-- Active rules in the order in which they are tried. -/
  rules : List CompiledRule
  /-- Limits of every transport that a rule or the default names. -/
  transports : Roster TransportLimits
  fallback : TransportName
  deriving DecidableEq, Repr

/-- The limits of every transport that one of the rules names, combined. -/
def rosterOf (start : Roster TransportLimits) (rules : List RuleDraft) : Roster TransportLimits :=
  rules.foldl (fun roster rule =>
    roster.upsert (fun found => (found.map (·.merge rule.limits)).getD rule.limits) rule.transport) start

namespace Matcher

def compile (rule : TransportRule) : Except ValidationFault CompiledRule := do
  let pattern ← rule.parsedPattern
  pure ⟨rule.id, pattern, rule.transport⟩

/-- Builds a matcher; fails when the default transport is invalid or an active rule has a bad pattern. -/
def build (rules : List TransportRule) (fallback : DefaultTransport) :
    Except ValidationFault Matcher := do
  fallback.validate
  let active := rules.filter (·.isActive)
  let compiled ← active.mapM compile
  pure
    { rules := compiled.mergeSort CompiledRule.precedes
      transports := rosterOf [(fallback.name, fallback.limits)] (active.map (·.toRuleDraft))
      fallback := fallback.name }

/-- The limits used for a transport that the matcher does not know. -/
def unlisted : TransportLimits := ⟨1, 0⟩

/-- Routes a domain in normal form. -/
def route (m : Matcher) (domain : String) : Route :=
  let hit := m.rules.find? (·.pattern.isMatch domain)
  let transport := (hit.map (·.transport)).getD m.fallback
  { transport
    limits := (m.transports.get? transport).getD unlisted
    ruleId := hit.map (·.id) }

def resolve (m : Matcher) (domain : String) : Except ConfigurationFault Route :=
  match normalizeDomain domain with
  | some d => .ok (m.route d)
  | none => .error (.malformedDomain domain)

def resolveRecipient (m : Matcher) (recipient : String) : Except ConfigurationFault Route :=
  match recipientDomain recipient with
  | some d => .ok (m.route d)
  | none => .error (.malformedDomain recipient)

/-- A transport asked for by name. -/
def byName (m : Matcher) (name : TransportName) : Except ConfigurationFault Route :=
  match m.transports.get? name with
  | some limits => .ok ⟨name, limits, none⟩
  | none => .error (.unknownTransport name.text)

end Matcher

/-- What a route is asked for by. -/
inductive RouteQuery where
  | domain (text : String)
  | recipient (text : String)
  | transport (name : TransportName)
  deriving DecidableEq, Repr

def Matcher.answer (m : Matcher) : RouteQuery → Except ConfigurationFault Route
  | .domain text => m.resolve text
  | .recipient text => m.resolveRecipient text
  | .transport name => m.byName name

end RelayRamp.Routing
