import RelayRamp.Routing.Rule
import RelayRamp.Time.Window
import RelayRamp.Warmup.Config
import RelayRamp.Warmup.Phase

/-!
# Store calls

What the engine asks of its store, as data: each call names the type of its answer. A store is a state with an
answer to every call; an answer is either the value or a fault, and the state that follows is given for both.
-/
namespace RelayRamp.Store

open RelayRamp.Routing RelayRamp.Time RelayRamp.Warmup

inductive StoreFaultKind where
  | io
  | corrupt
  | versionMismatch
  | invalid
  | conflict
  /-- Reported by the storage engine itself. -/
  | engine
  deriving DecidableEq, Repr

/-- A word for the kind, for programs. -/
def StoreFaultKind.label : StoreFaultKind → String
  | io => "io"
  | corrupt => "corrupt"
  | versionMismatch => "version_mismatch"
  | invalid => "invalid"
  | conflict => "conflict"
  | engine => "store"

structure StoreFault where
  kind : StoreFaultKind
  detail : String
  deriving DecidableEq, Repr

def StoreFault.message (f : StoreFault) : String :=
  match f.kind with
  | .io => "throttle store io error: " ++ f.detail
  | .corrupt => "throttle store corruption: " ++ f.detail
  | .versionMismatch => "throttle store version mismatch: " ++ f.detail
  | .invalid => "throttle store invalid data: " ++ f.detail
  | .conflict => "throttle store conflict: " ++ f.detail
  | .engine => "throttle store error: " ++ f.detail

inductive StoreCall : Type → Type where
  | loadConfig : StoreCall (Option WarmupConfig)
  | saveConfig (config : WarmupConfig) : StoreCall Unit
  | loadPhases : StoreCall (List WarmupPhase)
  | replacePhases (phases : List WarmupPhase) : StoreCall Unit
  | listRules : StoreCall (List TransportRule)
  | insertRule (draft : RuleDraft) : StoreCall TransportRule
  /-- False when there is no rule of the id. -/
  | updateRule (rule : TransportRule) : StoreCall Bool
  /-- False when there is no rule of the id. -/
  | deleteRule (id : Nat) : StoreCall Bool
  | loadCounters : StoreCall (List CounterBucket)
  /-- Puts buckets in and takes out the older ones of the same kind. -/
  | saveCounters (buckets : List CounterBucket) : StoreCall Unit

/-- The kinds of calls. -/
inductive CallKind where
  | loadConfig
  | saveConfig
  | loadPhases
  | replacePhases
  | listRules
  | insertRule
  | updateRule
  | deleteRule
  | loadCounters
  | saveCounters
  deriving DecidableEq, Repr

def CallKind.label : CallKind → String
  | loadConfig => "load_config"
  | saveConfig => "save_config"
  | loadPhases => "load_phases"
  | replacePhases => "replace_phases"
  | listRules => "list_rules"
  | insertRule => "insert_rule"
  | updateRule => "update_rule"
  | deleteRule => "delete_rule"
  | loadCounters => "load_counters"
  | saveCounters => "save_counters"

def StoreCall.kind : StoreCall α → CallKind
  | loadConfig => .loadConfig
  | saveConfig _ => .saveConfig
  | loadPhases => .loadPhases
  | replacePhases _ => .replacePhases
  | listRules => .listRules
  | insertRule _ => .insertRule
  | updateRule _ => .updateRule
  | deleteRule _ => .deleteRule
  | loadCounters => .loadCounters
  | saveCounters _ => .saveCounters

/-- A store: its answer to a call, and its state afterwards. -/
class ThrottleStore (σ : Type) where
  call : {α : Type} → StoreCall α → σ → Except StoreFault α × σ

end RelayRamp.Store
