import RelayRamp.Json.Basic
import RelayRamp.Routing.Matcher

/-!
# Transports and rules as JSON

In a patch an absent description stays and a null one is cleared; for the other fields both mean that the field
stays.
-/
namespace RelayRamp.Routing

namespace TransportName

def toJson (name : TransportName) : Json := .str name.text

def ofJson? (j : Json) : Option TransportName := j.asString?.map (⟨·⟩)

end TransportName

namespace TransportLimits

def members (l : TransportLimits) : List (String × Json) :=
  [("concurrency_limit", .nat l.concurrency), ("rate_delay_seconds", .nat l.rateDelaySeconds)]

def toJson (l : TransportLimits) : Json := .obj l.members

def ofJson? (j : Json) : Option TransportLimits := do
  let [concurrency, delay] ← j.cells ["concurrency_limit", "rate_delay_seconds"] | none
  pure ⟨← concurrency.required Json.asWord?, ← delay.required Json.asWord?⟩

end TransportLimits

namespace DefaultTransport

def toJson (d : DefaultTransport) : Json :=
  .obj [("name", d.name.toJson), ("limits", d.limits.toJson)]

def ofJson? (j : Json) : Option DefaultTransport := do
  let [name, limits] ← j.cells ["name", "limits"] | none
  pure ⟨← name.required TransportName.ofJson?, ← limits.required TransportLimits.ofJson?⟩

end DefaultTransport

def Route.toJson (r : Route) : Json :=
  .obj
    [ ("transport", r.transport.toJson),
      ("limits", r.limits.toJson),
      ("rule_id", .option .nat r.ruleId) ]

/-- A query has one member, named for what it holds. -/
def RouteQuery.ofJson? (j : Json) : Option RouteQuery :=
  match j.given? "domain", j.given? "recipient" with
  | some text, _ => .domain <$> text.asString?
  | none, some text => .recipient <$> text.asString?
  | none, none => .transport <$> j.read? "transport" TransportName.ofJson?

namespace RuleDraft

def fieldNames : List String :=
  [ "domain_pattern", "transport_name", "concurrency_limit", "rate_delay_seconds", "is_active",
    "description" ]

def members (d : RuleDraft) : List (String × Json) :=
  [("domain_pattern", .str d.pattern), ("transport_name", d.transport.toJson)]
    ++ d.limits.members
    ++ [("is_active", .bool d.isActive), ("description", .option .str d.description)]

def toJson (d : RuleDraft) : Json := .obj d.members

def ofJson? (j : Json) : Option RuleDraft := do
  let [pattern, transport, concurrency, delay, active, description] ← j.cells fieldNames | none
  pure
    { pattern := ← pattern.required Json.asString?
      transport := ← transport.required TransportName.ofJson?
      limits := ⟨← concurrency.required Json.asWord?, ← delay.required Json.asWord?⟩
      isActive := ← active.orElse true Json.asBool?
      description := ← description.defaulted Json.asString? }

end RuleDraft

namespace TransportRule

def toJson (r : TransportRule) : Json := .obj (("id", .nat r.id) :: r.toRuleDraft.members)

def ofJson? (j : Json) : Option TransportRule := do
  let [id, pattern, transport, concurrency, delay, active, description] ←
    j.cells ("id" :: RuleDraft.fieldNames) | none
  pure
    { id := ← id.required Json.asLong?
      pattern := ← pattern.required Json.asString?
      transport := ← transport.required TransportName.ofJson?
      limits := ⟨← concurrency.required Json.asWord?, ← delay.required Json.asWord?⟩
      isActive := ← active.required Json.asBool?
      description := ← description.defaulted Json.asString? }

end TransportRule

namespace RulePatch

def toJson (p : RulePatch) : Json :=
  .object
    [ ("domain_pattern", some (.option .str p.pattern)),
      ("transport_name", some (.option TransportName.toJson p.transport)),
      ("concurrency_limit", some (.option .nat p.concurrency)),
      ("rate_delay_seconds", some (.option .nat p.rateDelaySeconds)),
      ("is_active", some (.option .bool p.isActive)),
      ("description", p.description.map (.option .str)) ]

def ofJson? (j : Json) : Option RulePatch := do
  let [pattern, transport, concurrency, delay, active, description] ←
    j.cells RuleDraft.fieldNames | none
  pure
    { pattern := ← pattern.defaulted Json.asString?
      transport := ← transport.defaulted TransportName.ofJson?
      concurrency := ← concurrency.defaulted Json.asWord?
      rateDelaySeconds := ← delay.defaulted Json.asWord?
      isActive := ← active.defaulted Json.asBool?
      description := ← description.nullable Json.asString? }

end RulePatch

end RelayRamp.Routing
