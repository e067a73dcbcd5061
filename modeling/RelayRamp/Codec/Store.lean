import RelayRamp.Codec.Routing
import RelayRamp.Codec.Time
import RelayRamp.Codec.Warmup
import RelayRamp.Store.Durable
import RelayRamp.Store.Outage
import RelayRamp.Width

/-!
# Store calls by name

Every call of a store has a name and takes its arguments as the members of a JSON object. What it answers is
written as JSON too. Listed buckets come in a fixed order, whatever order the store keeps them in.
-/
namespace RelayRamp.Store

open RelayRamp.Routing RelayRamp.Time RelayRamp.Warmup

/-- Days before hours, then by start. -/
def bucketOrder (a b : CounterBucket) : Bool :=
  if a.kind == b.kind then a.windowStart.instant.nanos ≤ b.windowStart.instant.nanos
  else a.kind == .day

/-- Makes a call and writes its answer. -/
def answering {σ : Type} [ThrottleStore σ] (c : StoreCall α) (encode : α → Json) (s : σ) :
    Except StoreFault Json × σ :=
  let (answer, s) := ThrottleStore.call c s
  (answer.map encode, s)

/-- The call of a name; none when there is no such call or the arguments cannot be read. -/
def StoreCall.named? {σ : Type} [ThrottleStore σ] (name : String) (args : Json) :
    Option (σ → Except StoreFault Json × σ) :=
  let nothing (_ : Unit) : Json := .null
  match name with
  | "load_config" => some (answering .loadConfig (.option (·.toJson)))
  | "save_config" => do
    pure (answering (.saveConfig (← args.read? "config" WarmupConfig.ofJson?)) nothing)
  | "load_phases" => some (answering .loadPhases fun ps => .arr (ps.map (·.toJson)))
  | "replace_phases" => do
    let phases ← args.read? "phases" (Json.asList? WarmupPhase.ofJson?)
    pure (answering (.replacePhases phases) nothing)
  | "list_rules" => some (answering .listRules fun rs => .arr (rs.map (·.toJson)))
  | "insert_rule" => do
    pure (answering (.insertRule (← args.read? "draft" RuleDraft.ofJson?)) (·.toJson))
  | "update_rule" => do
    pure (answering (.updateRule (← args.read? "rule" TransportRule.ofJson?)) .bool)
  | "delete_rule" => do pure (answering (.deleteRule (← args.read? "id" Json.asLong?)) .bool)
  | "load_counters" =>
    some (answering .loadCounters fun bs => .arr ((bs.mergeSort bucketOrder).map (·.toJson)))
  | "save_counters" => do
    let buckets ← args.read? "buckets" (Json.asList? CounterBucket.ofJson?)
    pure (answering (.saveCounters buckets) nothing)
  | _ => none

def CallKind.all : List CallKind :=
  [ loadConfig, saveConfig, loadPhases, replacePhases, listRules, insertRule, updateRule, deleteRule,
    loadCounters, saveCounters ]

def CallKind.ofJson? (j : Json) : Option CallKind := do
  let label ← j.asString?
  all.find? (·.label = label)

def StoreFaultKind.all : List StoreFaultKind := [io, corrupt, versionMismatch, invalid, conflict, engine]

/-- A disruption by the kind of fault, or `missing` for answers as from an empty store. -/
def Disruption.ofLabel? (label detail : String) (remaining : Option Nat) : Option Disruption :=
  if label = "missing" then some ⟨none, remaining⟩
  else
    (StoreFaultKind.all.find? (·.label = label)).map fun kind => ⟨some ⟨kind, detail⟩, remaining⟩

/-- A value for a table; tables hold neither lists nor records. -/
def Datum.ofJson? : Json → Option Datum
  | .null => some null
  | .bool b => some (bool b)
  | .int z => if Width.Signed z then some (integer z) else none
  | .real x => some (real x)
  | .str s => some (text s)
  | _ => none

end RelayRamp.Store
