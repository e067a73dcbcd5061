import RelayRamp.Store.Call
import RelayRamp.Width

/-!
# A store in tables

Rows hold integers of 64 bits with sign, text, doubles or nothing, and instants are whole milliseconds. What is
read is checked: a value of the wrong type is a fault of the engine, one out of range means corrupt data. What
is written is checked too: a number that does not fit is refused. A call that writes several rows writes all of
them or none. Rule ids count up and are never used again.
-/
namespace RelayRamp.Store

open RelayRamp.Routing RelayRamp.Time RelayRamp.Warmup

/-- A value in a table. -/
inductive Datum where
  | null
  | integer (value : Int)
  | real (value : Float)
  | text (value : String)
  deriving BEq, Repr

namespace Datum

def typeName : Datum → String
  | null => "Null"
  | integer _ => "Integer"
  | real _ => "Real"
  | text _ => "Text"

def bool (b : Bool) : Datum := integer (if b then 1 else 0)

def orNull : Option Datum → Datum
  | some d => d
  | none => null

/-- A value whose type is not the column's. -/
def mistyped (d : Datum) (index : Nat) (column : String) : StoreFault :=
  ⟨.engine, s!"Invalid column type {d.typeName} at index: {index}, name: {column}"⟩

def toInteger (index : Nat) (column : String) : Datum → Except StoreFault Int
  | integer n => .ok n
  | d => .error (d.mistyped index column)

def toText (index : Nat) (column : String) : Datum → Except StoreFault String
  | text s => .ok s
  | d => .error (d.mistyped index column)

/-- Every integer but zero is true. -/
def toBool (index : Nat) (column : String) (d : Datum) : Except StoreFault Bool :=
  (· != 0) <$> d.toInteger index column

def optional (read : Nat → String → Datum → Except StoreFault α) (index : Nat) (column : String) :
    Datum → Except StoreFault (Option α)
  | null => .ok none
  | d => some <$> read index column d

end Datum

def outOfRange (value : Int) (column : String) : StoreFault :=
  ⟨.corrupt, s!"{column} out of range: {value}"⟩

/-- A stored natural number below the bound. -/
def storedNat (bound : Nat) (value : Int) (column : String) : Except StoreFault Nat :=
  if 0 ≤ value ∧ value < bound then .ok value.toNat else .error (outOfRange value column)

def storedWord : Int → String → Except StoreFault Nat := storedNat Width.word
def storedLong : Int → String → Except StoreFault Nat := storedNat Width.long

def storedInstant (value : Int) (column : String) : Except StoreFault Stamp :=
  match Instant.ofMillis? value with
  | some t => .ok t.stamp
  | none => .error (outOfRange value column)

/-- A number to be stored; it must fit 64 bits with sign. -/
def inputInteger (value : Nat) (field : String) : Except StoreFault Int :=
  if value < Width.signed then .ok value else .error ⟨.invalid, s!"{field} too large: {value}"⟩

structure ConfigRow where
  enabled : Datum
  activation : Datum
  interval : Datum
  overridePhase : Datum
  overrideActivation : Datum
  overrideApplied : Datum
  deriving BEq, Repr

structure PhaseRow where
  number : Int
  name : Datum
  durationDays : Datum
  maxPerHour : Datum
  maxPerDay : Datum
  burst : Datum
  deriving BEq, Repr

structure RuleRow where
  id : Int
  pattern : Datum
  transport : Datum
  concurrency : Datum
  rateDelay : Datum
  isActive : Datum
  description : Datum
  deriving BEq, Repr

structure CounterRow where
  granularity : Datum
  start : Datum
  count : Datum
  deriving BEq, Repr

namespace ConfigRow

def ofConfig (c : WarmupConfig) : ConfigRow :=
  let millis (t : Stamp) := Datum.integer t.instant.millis
  { enabled := .bool c.enabled
    activation := millis c.activation
    interval := .integer c.batchIntervalMinutes
    overridePhase := .orNull (c.phaseOverride.map fun o => .integer o.phaseNumber)
    overrideActivation := .orNull (c.phaseOverride.map fun o => millis o.effectiveActivation)
    overrideApplied := .orNull (c.phaseOverride.map fun o => millis o.appliedAt) }

/-- All three parts of an override are stored, or none. -/
def readOverride : Option Int → Option Int → Option Int → Except StoreFault (Option PhaseOverride)
  | none, none, none => .ok none
  | some phase, some activation, some applied => do
    let phase ← storedWord phase "override_phase"
    let activation ← storedInstant activation "override_activation_ms"
    let applied ← storedInstant applied "override_applied_ms"
    pure (some ⟨phase, activation, applied⟩)
  | _, _, _ => .error ⟨.corrupt, "partial phase override row"⟩

def toConfig (r : ConfigRow) : Except StoreFault WarmupConfig := do
  let enabled ← r.enabled.toBool 0 "enabled"
  let activation ← r.activation.toInteger 1 "activation_ms"
  let interval ← r.interval.toInteger 2 "batch_interval_minutes"
  let phase ← r.overridePhase.optional Datum.toInteger 3 "override_phase"
  let shifted ← r.overrideActivation.optional Datum.toInteger 4 "override_activation_ms"
  let applied ← r.overrideApplied.optional Datum.toInteger 5 "override_applied_ms"
  let phaseOverride ← readOverride phase shifted applied
  let activation ← storedInstant activation "activation_ms"
  let interval ← storedWord interval "batch_interval_minutes"
  pure ⟨enabled, activation, interval, phaseOverride⟩

end ConfigRow

namespace PhaseRow

def ofPhase (p : WarmupPhase) : Except StoreFault PhaseRow := do
  let hour ← inputInteger p.limits.maxPerHour "max_per_hour"
  let day ← inputInteger p.limits.maxPerDay "max_per_day"
  let burst ← inputInteger p.limits.burst "burst_limit"
  pure
    { number := p.number
      name := .text p.name
      durationDays := .integer p.durationDays
      maxPerHour := .integer hour
      maxPerDay := .integer day
      burst := .integer burst }

def toPhase (r : PhaseRow) : Except StoreFault WarmupPhase := do
  let name ← r.name.toText 1 "name"
  let days ← r.durationDays.toInteger 2 "duration_days"
  let hour ← r.maxPerHour.toInteger 3 "max_per_hour"
  let day ← r.maxPerDay.toInteger 4 "max_per_day"
  let burst ← r.burst.toInteger 5 "burst_limit"
  let number ← storedWord r.number "phase_number"
  let days ← storedWord days "duration_days"
  let hour ← storedLong hour "max_per_hour"
  let day ← storedLong day "max_per_day"
  let burst ← storedLong burst "burst_limit"
  pure ⟨number, name, days, ⟨hour, day, burst⟩⟩

/-- Puts a row in its place by number; fails when the number is taken. -/
def insert (row : PhaseRow) : List PhaseRow → Except StoreFault (List PhaseRow)
  | [] => .ok [row]
  | r :: rest =>
    if r.number = row.number then
      .error ⟨.conflict, "UNIQUE constraint failed: warmup_phases.phase_number"⟩
    else if row.number < r.number then .ok (row :: r :: rest)
    else (r :: ·) <$> insert row rest

end PhaseRow

namespace RuleRow

def ofDraft (id : Int) (d : RuleDraft) : RuleRow where
  id := id
  pattern := .text d.pattern
  transport := .text d.transport.text
  concurrency := .integer d.limits.concurrency
  rateDelay := .integer d.limits.rateDelaySeconds
  isActive := .bool d.isActive
  description := .orNull (d.description.map .text)

def toRule (r : RuleRow) : Except StoreFault TransportRule := do
  let pattern ← r.pattern.toText 1 "domain_pattern"
  let transport ← r.transport.toText 2 "transport_name"
  let concurrency ← r.concurrency.toInteger 3 "concurrency_limit"
  let delay ← r.rateDelay.toInteger 4 "rate_delay_seconds"
  let active ← r.isActive.toBool 5 "is_active"
  let description ← r.description.optional Datum.toText 6 "description"
  let id ← storedLong r.id "id"
  let concurrency ← storedWord concurrency "concurrency_limit"
  let delay ← storedWord delay "rate_delay_seconds"
  pure
    { id, pattern, transport := ⟨transport⟩, limits := ⟨concurrency, delay⟩, isActive := active
      description }

end RuleRow

namespace CounterRow

def ofBucket (b : CounterBucket) : Except StoreFault CounterRow := do
  let count ← inputInteger b.count "count"
  pure ⟨.text b.kind.label, .integer b.windowStart.instant.millis, .integer count⟩

def toBucket (r : CounterRow) : Except StoreFault CounterBucket := do
  let granularity ← r.granularity.toText 0 "granularity"
  let start ← r.start.toInteger 1 "window_start_ms"
  let count ← r.count.toInteger 2 "count"
  let kind ← match WindowKind.ofLabel? granularity with
    | some kind => pure kind
    | none => throw ⟨.corrupt, s!"unknown counter granularity `{granularity}`"⟩
  let start ← storedInstant start "window_start_ms"
  let count ← storedLong count "count"
  pure ⟨kind, start, count⟩

def sameKey (a b : CounterRow) : Bool := a.granularity == b.granularity && a.start == b.start

/-- The row lies before the start of another one of its kind. -/
def isBefore (r row : CounterRow) : Bool :=
  r.granularity == row.granularity &&
    match r.start, row.start with
    | .integer a, .integer b => a < b
    | .real a, .integer b => a < Float.ofInt b
    | _, _ => false

/-- Puts a row in, replacing the one with its key, and takes out the rows before it. -/
def save (rows : List CounterRow) (row : CounterRow) : List CounterRow :=
  let rows :=
    if rows.any (sameKey row) then rows.map fun r => if sameKey row r then row else r
    else rows ++ [row]
  rows.filter fun r => !r.isBefore row

end CounterRow

structure DurableStore where
  version : Datum
  config : Option ConfigRow
  phases : List PhaseRow
  rules : List RuleRow
  lastRuleId : Int
  counters : List CounterRow
  deriving BEq, Repr

namespace DurableStore

def schemaVersion : Int := 1

/-- The largest rule id. -/
def maxRuleId : Int := 9223372036854775807

def empty : DurableStore := ⟨.integer schemaVersion, none, [], [], 0, []⟩

/-- Opens the tables again: only the present version of the schema is known. -/
def reopen (s : DurableStore) : Except StoreFault DurableStore := do
  let version ← s.version.toInteger 0 "version"
  if version ≠ schemaVersion then
    throw ⟨.versionMismatch, s!"unsupported schema version: {version}"⟩
  pure s

def duplicatePattern : StoreFault :=
  ⟨.conflict, "UNIQUE constraint failed: transport_rules.domain_pattern"⟩

/-- The rows of a whole phase table. -/
def phaseRows (phases : List WarmupPhase) : Except StoreFault (List PhaseRow) :=
  phases.foldlM (fun rows phase => do (← PhaseRow.ofPhase phase).insert rows) []

def insertRule (s : DurableStore) (draft : RuleDraft) : Except StoreFault (TransportRule × DurableStore) := do
  let highest := s.rules.foldl (fun m r => max m r.id) s.lastRuleId
  if highest ≥ maxRuleId then throw ⟨.engine, "database or disk is full"⟩
  let id := highest + 1
  if s.rules.any (·.pattern == .text draft.pattern) then throw duplicatePattern
  pure
    (draft.withId id.toNat, { s with rules := s.rules ++ [.ofDraft id draft], lastRuleId := id })

def updateRule (s : DurableStore) (rule : TransportRule) : Except StoreFault (Bool × DurableStore) := do
  let id ← inputInteger rule.id "rule id"
  if !s.rules.any (·.id = id) then return (false, s)
  if s.rules.any fun r => r.id ≠ id && r.pattern == .text rule.pattern then throw duplicatePattern
  let row := RuleRow.ofDraft id rule.toRuleDraft
  pure (true, { s with rules := s.rules.map fun r => if r.id = id then row else r })

def deleteRule (s : DurableStore) (id : Nat) : Except StoreFault (Bool × DurableStore) := do
  let id ← inputInteger id "rule id"
  pure (s.rules.any (·.id = id), { s with rules := s.rules.filter (·.id ≠ id) })

/-- The answer with the state that it leads to; a fault leads nowhere. -/
def attempt (s : DurableStore) : StoreCall α → Except StoreFault (α × DurableStore)
  | .loadConfig =>
    match s.config with
    | none => .ok (none, s)
    | some row => do pure (some (← row.toConfig), s)
  | .saveConfig config => .ok ((), { s with config := some (.ofConfig config) })
  | .loadPhases => do pure (← s.phases.mapM PhaseRow.toPhase, s)
  | .replacePhases phases => do pure ((), { s with phases := ← phaseRows phases })
  | .listRules => do pure (← s.rules.mapM RuleRow.toRule, s)
  | .insertRule draft => s.insertRule draft
  | .updateRule rule => s.updateRule rule
  | .deleteRule id => s.deleteRule id
  | .loadCounters => do pure (← s.counters.mapM CounterRow.toBucket, s)
  | .saveCounters buckets => do
    let rows ← buckets.mapM CounterRow.ofBucket
    pure ((), { s with counters := rows.foldl CounterRow.save s.counters })

def call (s : DurableStore) (c : StoreCall α) : Except StoreFault α × DurableStore :=
  match s.attempt c with
  | .ok (a, s) => (.ok a, s)
  | .error fault => (.error fault, s)

end DurableStore

instance : ThrottleStore DurableStore := ⟨fun c s => s.call c⟩

end RelayRamp.Store
