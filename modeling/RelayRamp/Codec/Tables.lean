import RelayRamp.Json.Basic
import RelayRamp.Store.Durable
import RelayRamp.Width

/-!
# Tables as JSON

The content of a durable store as one JSON value: an object with a list of rows for each table, and each row a
list of its values. A value is a number, a string or null; whole doubles stay apart from integers.
-/
namespace RelayRamp.Store

namespace Datum

def toJson : Datum → Json
  | null => .null
  | integer n => .int n
  | real x => .real x
  | text s => .str s

/-- Reads a value that was written as JSON. -/
def ofWritten? : Json → Option Datum
  | .null => some null
  | .int z => if Width.Signed z then some (integer z) else none
  | .real x => some (real x)
  | .str s => some (text s)
  | _ => none

end Datum

/-- The values of a row. -/
def cellsOf? (row : Json) : Option (List Datum) := row.asList? Datum.ofWritten?

namespace ConfigRow

def toJson (r : ConfigRow) : Json :=
  .arr
    [ r.enabled.toJson, r.activation.toJson, r.interval.toJson, r.overridePhase.toJson,
      r.overrideActivation.toJson, r.overrideApplied.toJson ]

def ofJson? (j : Json) : Option ConfigRow := do
  let [enabled, activation, interval, phase, shifted, applied] ← cellsOf? j | none
  pure ⟨enabled, activation, interval, phase, shifted, applied⟩

end ConfigRow

namespace PhaseRow

def toJson (r : PhaseRow) : Json :=
  .arr
    [ .int r.number, r.name.toJson, r.durationDays.toJson, r.maxPerHour.toJson, r.maxPerDay.toJson,
      r.burst.toJson ]

def ofJson? (j : Json) : Option PhaseRow := do
  let [.integer number, name, days, hour, day, burst] ← cellsOf? j | none
  pure ⟨number, name, days, hour, day, burst⟩

end PhaseRow

namespace RuleRow

def toJson (r : RuleRow) : Json :=
  .arr
    [ .int r.id, r.pattern.toJson, r.transport.toJson, r.concurrency.toJson, r.rateDelay.toJson,
      r.isActive.toJson, r.description.toJson ]

def ofJson? (j : Json) : Option RuleRow := do
  let [.integer id, pattern, transport, concurrency, delay, active, description] ← cellsOf? j | none
  pure ⟨id, pattern, transport, concurrency, delay, active, description⟩

end RuleRow

namespace CounterRow

def toJson (r : CounterRow) : Json := .arr [r.granularity.toJson, r.start.toJson, r.count.toJson]

def ofJson? (j : Json) : Option CounterRow := do
  let [granularity, start, count] ← cellsOf? j | none
  pure ⟨granularity, start, count⟩

end CounterRow

namespace DurableStore

def toJson (s : DurableStore) : Json :=
  .obj
    [ ("version", s.version.toJson),
      ("config", .option (·.toJson) s.config),
      ("phases", .arr (s.phases.map (·.toJson))),
      ("rules", .arr (s.rules.map (·.toJson))),
      ("last_rule_id", .int s.lastRuleId),
      ("counters", .arr (s.counters.map (·.toJson))) ]

def ofJson? (j : Json) : Option DurableStore := do
  let names := ["version", "config", "phases", "rules", "last_rule_id", "counters"]
  let [version, config, phases, rules, lastRuleId, counters] ← j.cells names | none
  pure
    { version := ← version.required Datum.ofWritten?
      config := ← config.optional ConfigRow.ofJson?
      phases := ← phases.required (Json.asList? PhaseRow.ofJson?)
      rules := ← rules.required (Json.asList? RuleRow.ofJson?)
      lastRuleId := ← lastRuleId.required Json.asSigned?
      counters := ← counters.required (Json.asList? CounterRow.ofJson?) }

end DurableStore

end RelayRamp.Store
