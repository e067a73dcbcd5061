import RelayRamp.Codec.Plane
import RelayRamp.Plane.Control

/-!
# Calls by name

Every call of the control plane has a name and takes its arguments as the members of a JSON object. What it
answers is written as JSON too.
-/
namespace RelayRamp.Plane

open RelayRamp.Routing RelayRamp.Store RelayRamp.Warmup

variable {σ : Type}

/-- A reading of the plane at the present wall time. -/
def reading (f : Plane σ → Time.Instant → Json) : Call σ Json := do
  pure (f (← plane) (← wallNow))

def phasesJson (phases : List WarmupPhase) : Json := .arr (phases.map (·.toJson))

def rulesJson (rules : List TransportRule) : Json := .arr (rules.map (·.toJson))

/-- The call of a name; none when there is no such call or the arguments cannot be read. -/
def Call.named? [ThrottleStore σ] (name : String) (args : Json) : Option (Call σ Json) :=
  match name with
  | "get_config" => some ((·.toJson) <$> getConfig)
  | "update_config" => do
    let update ← args.read? "update" ConfigUpdate.ofJson?
    pure ((·.toJson) <$> updateConfig update)
  | "warmup_status" => some ((·.toJson) <$> warmupStatus)
  | "set_phase" => do
    let number ← args.read? "phase" Json.asWord?
    pure ((·.toJson) <$> setPhase number)
  | "reset_warmup" => some ((·.toJson) <$> resetWarmup)
  | "list_phases" => some (phasesJson <$> listPhases)
  | "replace_phases" => do
    let phases ← args.read? "phases" (Json.asList? WarmupPhase.ofJson?)
    pure (phasesJson <$> replacePhases phases)
  | "update_phase" => do
    let number ← args.read? "phase" Json.asWord?
    let patch ← args.read? "patch" PhasePatch.ofJson?
    pure ((·.toJson) <$> updatePhase number patch)
  | "list_rules" => some (rulesJson <$> listRules)
  | "create_rule" => do
    let draft ← args.read? "draft" RuleDraft.ofJson?
    pure ((·.toJson) <$> createRule draft)
  | "update_rule" => do
    let id ← args.read? "id" Json.asLong?
    let patch ← args.read? "patch" RulePatch.ofJson?
    pure ((·.toJson) <$> updateRule id patch)
  | "delete_rule" => do
    let id ← args.read? "id" Json.asLong?
    pure ((fun _ => .null) <$> deleteRule id)
  | "transport_map" => some (.str <$> transportMap)
  | "master_cf" => some (.str <$> serviceBlock)
  | "metrics" => some (reading fun p now => (p.metrics now).toJson)
  | "batch_budget" => some do
    let budget ← orMisconfigured ((← plane).batchBudget (← wallNow))
    pure budget.toJson
  | "tallies" => some (reading fun p _ => p.tallies.toJson)
  | "persist" => some ((fun _ => .null) <$> persistCounters)
  | "reload" => some (.nat <$> reload)
  | "reclaim" => some ((fun tickets => .arr (tickets.map (·.toJson))) <$> reclaimLeases)
  | "release" => do
    let transport ← args.read? "transport" TransportName.ofJson?
    let lease ← args.read? "lease_id" Json.asLong?
    pure ((.str ·.label) <$> releaseLease transport lease)
  | "outstanding" => do
    let transport ← args.read? "transport" TransportName.ofJson?
    pure (reading fun p _ => .option .nat (p.pool.outstanding transport))
  | "resolve" => do
    let query ← RouteQuery.ofJson? args
    pure do
      let route ← orMisconfigured ((← plane).snapshot.matcher.answer query)
      pure route.toJson
  | "snapshot" => some (reading fun p _ => p.snapshot.toJson p.settings)
  | _ => none

end RelayRamp.Plane
