import RelayRamp.Decimal.Reading
import RelayRamp.Decimal.Shortest
import RelayRamp.Store.Durable
import RelayRamp.Text.Blank
import RelayRamp.Width

/-!
# Edits of the tables

Another program with access to the tables can set a column of every row of a table to one value. The value is
first converted to the type that the column prefers. An edit is refused when the table or column is unknown,
or when a row would then lack a value, repeat a key, or leave the range that its table checks.
-/
namespace RelayRamp.Store

namespace Datum

/-- An integer that fits 64 bits with sign. -/
def fitting? (n : Int) : Option Int := if Width.Signed n then some n else none

/-- The integer that a double is, if it is one between the least and the greatest of 64 bits. -/
def wholeInteger? (x : Float) : Option Int :=
  if x.floor == x && -9223372036854775808.0 < x && x < 9223372036854775808.0 then
    some (if x < 0 then -((-x).toUInt64.toNat : Int) else x.toUInt64.toNat)
  else none

def ofReal (x : Float) : Datum := ((wholeInteger? x).map integer).getD (real x)

/-- The blank characters of ASCII. -/
def isBlank (c : Char) : Bool := c == ' ' || (0x9 ≤ c.toNat && c.toNat ≤ 0xD)

/-- The number that a text spells, with blanks around it or not. Without point and power of ten it is an integer
if it fits. -/
def spelled? (s : String) : Option Datum := do
  let t := Text.trimWhile isBlank s.toList
  let w ← Decimal.Written.ofChars? t
  let whole : Option Int := do
    if t.any fun c => c == '.' || c == 'e' || c == 'E' then none
    fitting? (if w.negative then -w.digits else w.digits)
  pure ((whole.map integer).getD (ofReal w.toFloat))

/-- The value in a column that prefers integers. -/
def preferInteger : Datum → Datum
  | text s => (spelled? s).getD (text s)
  | real x => ofReal x
  | d => d

/-- The value in a column that prefers text. -/
def preferText : Datum → Datum
  | integer n => text (toString n)
  | real x => text (Decimal.render .json x)
  | d => d

/-- The value of a column that may not be empty. -/
def present : Datum → Option Datum
  | null => none
  | d => some d

end Datum

/-- The value of an integer column that may not be empty. -/
def integerCell (v : Datum) : Option Datum := v.preferInteger.present

/-- The value of a text column that may not be empty. -/
def textCell (v : Datum) : Option Datum := v.preferText.present

/-- The value of a column of row numbers. -/
def rowNumber (v : Datum) : Option Int :=
  match v.preferInteger with
  | .integer n => some n
  | _ => none

namespace ConfigRow

def edit (r : ConfigRow) (column : String) (v : Datum) : Option ConfigRow :=
  match column with
  | "id" => if rowNumber v = some 1 then some r else none
  | "enabled" => (integerCell v).map fun v => { r with enabled := v }
  | "activation_ms" => (integerCell v).map fun v => { r with activation := v }
  | "batch_interval_minutes" => (integerCell v).map fun v => { r with interval := v }
  | "override_phase" => some { r with overridePhase := v.preferInteger }
  | "override_activation_ms" => some { r with overrideActivation := v.preferInteger }
  | "override_applied_ms" => some { r with overrideApplied := v.preferInteger }
  | "updated_at_ms" => (integerCell v).map fun _ => r
  | _ => none

def columns : List String :=
  [ "id", "enabled", "activation_ms", "batch_interval_minutes", "override_phase",
    "override_activation_ms", "override_applied_ms", "updated_at_ms" ]

end ConfigRow

namespace PhaseRow

def edit (r : PhaseRow) (column : String) (v : Datum) : Option PhaseRow :=
  match column with
  | "phase_number" => (rowNumber v).map fun n => { r with number := n }
  | "name" => (textCell v).map fun v => { r with name := v }
  | "duration_days" => (integerCell v).map fun v => { r with durationDays := v }
  | "max_per_hour" => (integerCell v).map fun v => { r with maxPerHour := v }
  | "max_per_day" => (integerCell v).map fun v => { r with maxPerDay := v }
  | "burst_limit" => (integerCell v).map fun v => { r with burst := v }
  | _ => none

def columns : List String :=
  ["phase_number", "name", "duration_days", "max_per_hour", "max_per_day", "burst_limit"]

end PhaseRow

namespace RuleRow

def edit (r : RuleRow) (column : String) (v : Datum) : Option RuleRow :=
  match column with
  | "id" => (rowNumber v).map fun n => { r with id := n }
  | "domain_pattern" => (textCell v).map fun v => { r with pattern := v }
  | "transport_name" => (textCell v).map fun v => { r with transport := v }
  | "concurrency_limit" => (integerCell v).map fun v => { r with concurrency := v }
  | "rate_delay_seconds" => (integerCell v).map fun v => { r with rateDelay := v }
  | "is_active" => (integerCell v).map fun v => { r with isActive := v }
  | "description" => some { r with description := v.preferText }
  | "created_at_ms" | "updated_at_ms" => (integerCell v).map fun _ => r
  | _ => none

def columns : List String :=
  [ "id", "domain_pattern", "transport_name", "concurrency_limit", "rate_delay_seconds", "is_active",
    "description", "created_at_ms", "updated_at_ms" ]

end RuleRow

namespace CounterRow

def edit (r : CounterRow) (column : String) (v : Datum) : Option CounterRow :=
  match column with
  | "granularity" => (textCell v).map fun v => { r with granularity := v }
  | "window_start_ms" => (integerCell v).map fun v => { r with start := v }
  | "count" => (integerCell v).map fun v => { r with count := v }
  | _ => none

def columns : List String := ["granularity", "window_start_ms", "count"]

end CounterRow

/-- No two rows have the same key. -/
def distinct (same : α → α → Bool) : List α → Bool
  | [] => true
  | a :: rest => !rest.any (same a) && distinct same rest

/-- Edits every row; refused when the column is unknown, a value does not fit, or keys repeat. -/
def editRows (columns : List String) (column : String) (edit : α → Option α) (same : α → α → Bool)
    (rows : List α) : Option (List α) := do
  if !columns.contains column then none
  let rows ← rows.mapM edit
  if distinct same rows then some rows else none

/-- Sets a column of a table to one value; gives the number of rows. -/
def DurableStore.edit (s : DurableStore) (table column : String) (v : Datum) :
    Option (Nat × DurableStore) :=
  match table with
  | "store_meta" =>
    if column = "version" then (integerCell v).map fun v => (1, { s with version := v }) else none
  | "throttle_config" => do
    let rows ← editRows ConfigRow.columns column (·.edit column v) (fun _ _ => false) s.config.toList
    pure (rows.length, { s with config := rows.head? })
  | "warmup_phases" => do
    let rows ← editRows PhaseRow.columns column (·.edit column v) (·.number == ·.number) s.phases
    pure (rows.length, { s with phases := rows })
  | "transport_rules" => do
    let same (a b : RuleRow) := a.id == b.id || a.pattern == b.pattern
    let rows ← editRows RuleRow.columns column (·.edit column v) same s.rules
    pure (rows.length, { s with rules := rows })
  | "counter_buckets" => do
    let rows ← editRows CounterRow.columns column (·.edit column v) CounterRow.sameKey s.counters
    pure (rows.length, { s with counters := rows })
  | _ => none

end RelayRamp.Store
