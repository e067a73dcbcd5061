import RelayRamp.Plane.Snapshot
import RelayRamp.Postfix.ServiceBlock
import RelayRamp.Postfix.TransportMap
import RelayRamp.Seed

/-!
# Control-plane calls

Each call that changes something validates its input, writes to the store, rebuilds and publishes the snapshot
and reports what it did, in this order. When the snapshot cannot be rebuilt a degraded copy of the last one is
published instead. A call that fails leaves the changes it had made up to then.
-/
namespace RelayRamp.Plane

open RelayRamp.Admission RelayRamp.Lease RelayRamp.Routing RelayRamp.Store RelayRamp.Time RelayRamp.Warmup

/-- What a call works on: the plane, and what it has done beyond its result. -/
structure Session (σ : Type) where
  plane : Plane σ
  effects : Effects

/-- A control-plane call at one moment. -/
abbrev Call (σ α : Type) := ReaderT Moment (ExceptT PlaneFault (StateM (Session σ))) α

/-- Makes a call: its result, the plane afterwards and what the call did besides. -/
def Call.run {σ α : Type} (c : Call σ α) (moment : Moment) (plane : Plane σ) :
    Except PlaneFault α × Plane σ × Effects :=
  let (result, session) := (ReaderT.run c moment).run.run ⟨plane, .none⟩
  (result, session.plane, session.effects)

section

variable {σ α : Type}

def plane : Call σ (Plane σ) := do pure (← get).plane

def setPlane (f : Plane σ → Plane σ) : Call σ Unit :=
  modify fun s => { s with plane := f s.plane }

def affect (effects : Effects) : Call σ Unit :=
  modify fun s => { s with effects := s.effects.and effects }

def report (event : AuditEvent) : Call σ Unit := affect (.report event)

def wallNow : Call σ Instant := do pure (← read).wall

/-- Asks the store. -/
def ask [ThrottleStore σ] (c : StoreCall α) : Call σ α := do
  let s ← get
  let (answer, store) := ThrottleStore.call c s.plane.store
  set { s with plane := { s.plane with store } }
  match answer with
  | .ok a => pure a
  | .error fault => throw (.store fault)

def orInvalid (r : Except ValidationFault α) : Call σ α :=
  match r with
  | .ok a => pure a
  | .error fault => throw (.validation fault)

def orMisconfigured (r : Except ConfigurationFault α) : Call σ α :=
  match r with
  | .ok a => pure a
  | .error fault => throw (.configuration fault)

/-- Publishes a snapshot under the next version. -/
def publishSnapshot (next : Snapshot) : Call σ Nat := do
  let version := (← plane).snapshot.version + 1
  setPlane ({ · with snapshot := { next with version } })
  pure version

/-- Gives every transport of a matcher its limits in the pool and drops the idle ones it does not know. -/
def configurePool (matcher : Matcher) : Call σ Unit := do
  let tick := (← read).tick
  matcher.transports.forM fun (name, limits) => do
    let (pool, effects) := (← plane).pool.configure name limits tick
    setPlane ({ · with pool })
    affect effects
  let keep := matcher.transports.map (·.1)
  setPlane fun p => { p with pool := p.pool.retain keep }

/-- Rebuilds the snapshot from the store and publishes it. -/
def refresh [ThrottleStore σ] : Call σ Nat := do
  let some config ← ask .loadConfig | throw (.store ⟨.invalid, "warmup config missing"⟩)
  let phases := (PhaseTable.ofPhases (← ask .loadPhases)).mapError PhasesFault.invalid
  let rules ← ask .listRules
  let matcher ← orInvalid (Matcher.build rules (← plane).settings.defaultTransport)
  configurePool matcher
  publishSnapshot ⟨0, config, phases, matcher, false⟩

/-- Publishes a degraded copy of the snapshot. -/
def degrade (fault : PlaneFault) : Call σ Unit := do
  let p ← plane
  let _ ← publishSnapshot { p.snapshot with degraded := true }
  let mode := p.settings.failSafe.label
  report (.plain .storeDegraded
    s!"throttle store unavailable, fail-safe `{mode}` applied: {fault.message}")

/-- Makes a call; when it fails the snapshot is degraded. -/
def orDegrade (c : Call σ α) : Call σ α :=
  tryCatch c fun fault => do
    degrade fault
    throw fault

def publish [ThrottleStore σ] : Call σ Nat := orDegrade refresh

/-- The stored configuration. A store without one is filled with the seed data first. -/
def loadOrSeed [ThrottleStore σ] : Call σ WarmupConfig := do
  match ← ask .loadConfig with
  | some config =>
    orInvalid config.validate
    pure config
  | none =>
    let settings := (← plane).settings
    if settings.seedPhases then
      if (← ask .loadPhases).isEmpty then
        ask (.replacePhases Seed.phases)
    if settings.seedRules then
      if (← ask .listRules).isEmpty then
        Seed.rules.forM fun draft => do
          let (_, draft) ← orInvalid draft.validate
          let _ ← ask (.insertRule draft)
    let config := WarmupConfig.fresh (← wallNow)
    ask (.saveConfig config)
    pure config

/-- The stored phase table. -/
def storedTable [ThrottleStore σ] : Call σ PhaseTable := do
  match PhaseTable.ofPhases (← ask .loadPhases) with
  | .ok table => pure table
  | .error fault => throw (.configuration (.inconsistentPhaseTable fault.message))

/-! ### Opening -/

/-- A plane before anything was loaded. -/
protected def unloaded (store : σ) (settings : EngineSettings) (now : Instant) :
    Except ValidationFault (Plane σ) := do
  let matcher ← Matcher.build [] settings.defaultTransport
  pure
    { store
      snapshot := ⟨0, .fresh now, .error .notLoaded, matcher, true⟩
      counters := .fresh now
      pool := .empty
      tallies := .zero
      settings }

/-- Loads the configuration and the counters and publishes the first snapshot; a degraded one if the store
cannot be read. -/
def load [ThrottleStore σ] : Call σ Unit :=
  tryCatch
    (do
      let _ ← loadOrSeed
      let buckets ← ask .loadCounters
      let now ← wallNow
      setPlane fun p => { p with counters := p.counters.restore buckets now }
      let _ ← refresh)
    degrade

/-- Opens a plane over a store; only invalid settings make it fail. -/
protected def launch [ThrottleStore σ] (store : σ) (settings : EngineSettings) (moment : Moment) :
    Except ValidationFault (Plane σ × Effects) := do
  let unloaded ← Plane.unloaded store settings moment.wall
  let (_, plane, effects) := load.run moment unloaded
  pure (plane, effects)

/-! ### Configuration and warmup -/

def getConfig [ThrottleStore σ] : Call σ WarmupConfig := loadOrSeed

def updateConfig [ThrottleStore σ] (update : ConfigUpdate) : Call σ WarmupConfig := do
  let before ← loadOrSeed
  let config ← orInvalid (before.updated update)
  ask (.saveConfig config)
  let _ ← publish
  report (.plain .configUpdated
    s!"enabled={config.enabled} batch_interval_minutes={config.batchIntervalMinutes}")
  if before.enabled ≠ config.enabled then
    let kind : AuditKind := if config.enabled then .throttleEnabled else .throttleDisabled
    report (.plain kind "throttling toggled by operator")
  pure config

/-- The status that the published snapshot gives. -/
def warmupStatus : Call σ WarmupStatus := do
  let snapshot := (← plane).snapshot
  let table ← orMisconfigured snapshot.table
  pure (snapshot.config.status table (← wallNow))

/-- Stores a changed configuration and gives the status under it. -/
def restart [ThrottleStore σ] (config : WarmupConfig) (table : PhaseTable) (event : AuditEvent) :
    Call σ WarmupStatus := do
  ask (.saveConfig config)
  let _ ← publish
  report event
  pure (config.status table (← wallNow))

/-- Jumps to the first day of a phase. -/
def setPhase [ThrottleStore σ] (number : Nat) : Call σ WarmupStatus := do
  let config ← loadOrSeed
  let table ← storedTable
  let config ← orInvalid (config.withPhase table number (← wallNow))
  restart config table (.onPhase .phaseOverride "operator jumped to phase" number)

/-- Starts the warmup again. -/
def resetWarmup [ThrottleStore σ] : Call σ WarmupStatus := do
  let config ← loadOrSeed
  let table ← storedTable
  restart (config.restarted (← wallNow)) table
    (.onPhase .warmupReset "warmup restarted by operator" 0)

/-! ### Phases -/

def listPhases [ThrottleStore σ] : Call σ (List WarmupPhase) := do
  pure ((← ask .loadPhases).mergeSort (·.number ≤ ·.number))

def replacePhases [ThrottleStore σ] (phases : List WarmupPhase) : Call σ (List WarmupPhase) := do
  let table ← orInvalid (PhaseTable.ofPhases phases)
  ask (.replacePhases table.phases)
  let _ ← publish
  report (.plain .phasesUpdated s!"phase table replaced ({table.phases.length} phases)")
  pure table.phases

def updatePhase [ThrottleStore σ] (number : Nat) (patch : PhasePatch) : Call σ WarmupPhase := do
  let table ← orInvalid ((← storedTable).withPatch number patch)
  ask (.replacePhases table.phases)
  let _ ← publish
  report (.onPhase .phasesUpdated "phase updated" number)
  match table.get? number with
  | some phase => pure phase
  | none => throw (.validation (.phase number .missing))

/-! ### Rules -/

def listRules [ThrottleStore σ] : Call σ (List TransportRule) := ask .listRules

/-- Fails when another rule has the pattern. -/
def requireUnused (rules : List TransportRule) (pattern : String) (except : Option Nat) : Call σ Unit :=
  if rules.any fun rule => some rule.id ≠ except && rule.pattern = pattern then
    throw (.validation (.duplicatePattern pattern))
  else pure ()

/-- Asks the store to write a rule; a conflict means that its pattern is taken. -/
def askUnique [ThrottleStore σ] (pattern : String) (c : StoreCall α) : Call σ α :=
  tryCatch (ask c) fun fault =>
    match fault with
    | .store ⟨.conflict, _⟩ => throw (.validation (.duplicatePattern pattern))
    | fault => throw fault

def createRule [ThrottleStore σ] (draft : RuleDraft) : Call σ TransportRule := do
  let (_, draft) ← orInvalid draft.validate
  requireUnused (← ask .listRules) draft.pattern none
  let rule ← askUnique draft.pattern (.insertRule draft)
  let _ ← publish
  report (.onTransport .transportCreated s!"rule {rule.id} `{rule.pattern}` created" rule.transport)
  pure rule

def updateRule [ThrottleStore σ] (id : Nat) (patch : RulePatch) : Call σ TransportRule := do
  let rules ← ask .listRules
  let some current := rules.find? (·.id = id) | throw (.ruleNotFound id)
  let (_, draft) ← orInvalid (current.patched patch).toRuleDraft.validate
  requireUnused rules draft.pattern (some id)
  let rule := draft.withId id
  let found ← askUnique rule.pattern (.updateRule rule)
  if !found then throw (.ruleNotFound id)
  let _ ← publish
  report (.onTransport .transportUpdated s!"rule {id} `{rule.pattern}` updated" rule.transport)
  pure rule

def deleteRule [ThrottleStore σ] (id : Nat) : Call σ Unit := do
  if !(← ask (.deleteRule id)) then throw (.ruleNotFound id)
  let _ ← publish
  report (.plain .transportDeleted s!"rule {id} deleted")

def transportMap [ThrottleStore σ] : Call σ String := do
  pure (Postfix.renderTransportMap (← ask .listRules))

def serviceBlock [ThrottleStore σ] : Call σ String := do
  pure (Postfix.renderServiceBlock (← ask .listRules))

/-! ### Maintenance -/

/-- Releases a lease that was handed out. -/
def releaseLease (transport : TransportName) (lease : Nat) : Call σ ReleaseOutcome := do
  let (pool, effects, result) := (← plane).pool.release transport lease (← read).tick
  setPlane ({ · with pool })
  affect effects
  pure result

/-- Recovers leases held past the maximum delivery time. -/
def reclaimLeases : Call σ (List LeaseTicket) := do
  let p ← plane
  let (pool, effects, tickets) := p.pool.reclaim p.settings.maxDelivery (← read).tick
  setPlane ({ · with pool })
  affect effects
  pure tickets

/-- Writes the counters to the store. A failure is reported and degrades the snapshot. -/
def persistCounters [ThrottleStore σ] : Call σ Unit := do
  let now ← wallNow
  setPlane fun p => { p with counters := p.counters.rolled now }
  tryCatch (ask (.saveCounters (← plane).counters.buckets)) fun fault => do
    report (.plain .counterPersistFailed fault.message)
    if !(← plane).snapshot.degraded then
      degrade fault
    throw fault

/-- Reads the store again and publishes what it holds. -/
def reload [ThrottleStore σ] : Call σ Nat :=
  orDegrade do
    let _ ← loadOrSeed
    refresh

end

end RelayRamp.Plane
