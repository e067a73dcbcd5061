import RelayRamp.Proofs.Plane.Requests
import RelayRamp.Proofs.Store.Columns

/-!
# Who may move the warmup

Three commands write the configuration, each from what was loaded before: one changes the flag and the interval, one
the override, one the activation and the override. All others leave it as it is stored; loading or seeding does so,
too, once there is one.
-/
namespace RelayRamp.Warmup.WarmupConfig

open RelayRamp.Store

variable {config changed : WarmupConfig}

theorem updated_ok {update : ConfigUpdate} (valid : config.updated update = .ok changed) :
    changed.activation = config.activation ∧ changed.phaseOverride = config.phaseOverride ∧
      changed.enabled = update.enabled.getD config.enabled ∧
      changed.batchIntervalMinutes = update.batchIntervalMinutes.getD config.batchIntervalMinutes ∧
      (changed.batchIntervalMinutes < Width.word ∨ changed.batchIntervalMinutes = config.batchIntervalMinutes) := by
  unfold updated at valid
  cases minutes : update.batchIntervalMinutes with
  | none =>
    rw [minutes] at valid
    cases valid
    exact ⟨rfl, rfl, rfl, rfl, Or.inr rfl⟩
  | some given =>
    simp only [minutes] at valid
    cases bounded : validateBatchInterval given with
    | error fault =>
      rw [bounded] at valid
      cases valid
    | ok =>
      rw [bounded] at valid
      cases valid
      refine ⟨rfl, rfl, rfl, rfl, Or.inl ?_⟩
      unfold validateBatchInterval at bounded
      split at bounded
      · cases bounded
      · rename_i within
        have most : given ≤ 1440 := Nat.not_lt.mp fun more => within (Or.inr more)
        exact Nat.lt_of_le_of_lt most (by decide)

theorem withPhase_fields {table : PhaseTable} {number : Nat} {now : Time.Instant}
    (valid : config.withPhase table number now = .ok changed) :
    changed.activation = config.activation ∧ changed.enabled = config.enabled ∧
      changed.batchIntervalMinutes = config.batchIntervalMinutes := by
  unfold withPhase at valid
  split at valid
  · cases valid
  · cases valid
    exact ⟨rfl, rfl, rfl⟩

end RelayRamp.Warmup.WarmupConfig

namespace RelayRamp.Plane

open RelayRamp.Lease RelayRamp.Routing RelayRamp.Store RelayRamp.Time RelayRamp.Warmup

variable {p q : Plane (PlannedStore Backing)} {moment : Moment} {α β : Type}

/-- The stored configuration is not touched. -/
def Leaves (p q : Plane (PlannedStore Backing)) : Prop := q.store.inner.stored? = p.store.inner.stored?

/-- If a configuration is stored, it is not touched. -/
def Guards (p q : Plane (PlannedStore Backing)) : Prop :=
  ∀ e, p.store.inner.stored? = some e → q.store.inner.stored? = some e

instance : IsPreorder (Plane (PlannedStore Backing)) Leaves where
  refl _ := rfl
  trans _ _ _ first rest := Eq.trans rest first

instance : IsPreorder (Plane (PlannedStore Backing)) Guards where
  refl _ _ := id
  trans _ _ _ first rest e stored := rest e (first e stored)

theorem leaves_of_store (same : q.store.inner = p.store.inner) : Leaves p q := congrArg Backing.stored? same

theorem Leaves.guards (leaves : Leaves p q) : Guards p q := fun _ stored => leaves.trans stored

theorem Spares.guards (spares : Spares p q) : Guards p q := (leaves_of_store spares.inner).guards

theorem Call.Keeps.leaves {c : Call (PlannedStore Backing) α} (spares : c.Keeps moment Spares) :
    c.Keeps moment Leaves := spares.mono fun _ _ spares => leaves_of_store spares.inner

theorem Call.Keeps.guards {c : Call (PlannedStore Backing) α} (spares : c.Keeps moment Spares) :
    c.Keeps moment Guards := spares.mono fun _ _ => Spares.guards

/-! ### Calls that leave it alone -/

theorem leaves_suits : Suits (fun c => c.kind ≠ .saveConfig) Leaves where
  spares spares := leaves_of_store spares.inner
  asks p c other :=
    PlannedStore.call_inner (P := (Backing.stored? · = p.store.inner.stored?)) c rfl (p.store.inner.call_entry other)
  tables _ := nofun
  others _ other _ := other

theorem ask_leaves {c : StoreCall α} (other : c.kind ≠ .saveConfig) : (ask c).Keeps moment Leaves :=
  leaves_suits.ask c other

/-- A command that does not ask for the configuration leaves it alone. -/
theorem Command.leaves_cases (moment : Moment) (p : Plane (PlannedStore Backing)) (command : Command) :
    Leaves p (command.perform moment p) ∨ command = .getConfig ∨ command = .reload ∨
      (∃ update, command = .updateConfig update) ∨ (∃ number, command = .setPhase number) ∨
      command = .resetWarmup :=
  leaves_suits.command_cases moment p command

/-! ### Calls that load it -/

/-- Once a configuration is stored, it is loaded, and the store is left as it is. -/
theorem leads_loadOrSeed {e : ConfigEntry} (stored : p.store.inner.stored? = some e) :
    loadOrSeed.Leads moment p fun r q => q.store.inner = p.store.inner ∧
      ∀ config, r = .ok config → p.store.inner.Loads config := by
  rw [Call.loadOrSeed_eq]
  refine Call.Leads.bind (leads_planned (Q := fun r q => q.store.inner = p.store.inner ∧
    ∀ found, r = .ok found → (p.store.inner.call .loadConfig).1 = .ok found) (fun _ _ same _ => ⟨same, nofun⟩)
    fun found q answered inner _ => ?_) (fun found q reached => ?_) fun _ _ reached => ⟨reached.1, nofun⟩
  · have vain : (p.store.inner.call .loadConfig).2 = p.store.inner := Backing.call_vain fun _ _ => Or.inl rfl
    refine ⟨inner.trans vain, fun other same => ?_⟩
    cases same
    exact answered
  · obtain ⟨same, loaded⟩ := reached
    cases found with
    | some config =>
      refine Call.leads_orInvalid_bind (fun _ _ => Call.leads_pure ⟨same, fun other ok => ?_⟩) fun _ _ => ⟨same, nofun⟩
      cases ok
      exact loaded _ rfl
    | none =>
      have read := Backing.loadConfig_read (loaded _ rfl)
      rw [stored] at read
      cases read

theorem loadOrSeed_guards : (loadOrSeed : Call (PlannedStore Backing) WarmupConfig).Keeps moment Guards := by
  intro p effects e stored
  rw [(leads_loadOrSeed stored effects).1]
  exact stored

theorem reload_guards : (reload : Call (PlannedStore Backing) Nat).Keeps moment Guards :=
  (loadOrSeed_guards.bind fun _ => refresh_spares.guards).tryCatch fun fault =>
    (degrade_spares fault).guards.bind fun _ => (Call.idle_throw _).keeps moment

theorem load_guards : (load : Call (PlannedStore Backing) Unit).Keeps moment Guards := by
  refine Call.Keeps.tryCatch ?_ fun fault => (degrade_spares fault).guards
  refine loadOrSeed_guards.bind fun _ => ?_
  refine (read_spares (c := .loadCounters) rfl).guards.bind fun buckets p => ?_
  refine Call.leads_wallNow_bind (Call.leads_setPlane_bind ?_)
  refine ((refresh_spares.bind fun _ => (Call.idle_pure ()).keeps moment) _).mono fun _ _ spares => ?_
  exact (leaves_of_store spares.inner).guards

/-! ### Calls that write it -/

/-- What a command does to a stored configuration: nothing, or it writes the loaded one with a change of its own. -/
inductive Moves (moment : Moment) (s : Backing) : Command → Backing → Prop
  | kept {command : Command} {t : Backing} (same : t.stored? = s.stored?) : Moves moment s command t
  | updated {update : ConfigUpdate} {config changed : WarmupConfig} {t : Backing}
      (loaded : s.Loads config) (valid : config.updated update = .ok changed)
      (persisted : s.Saves changed t) : Moves moment s (.updateConfig update) t
  | jumped {number : Nat} {table : PhaseTable} {config changed : WarmupConfig} {t : Backing}
      (loaded : s.Loads config)
      (valid : config.withPhase table number moment.wall = .ok changed)
      (persisted : s.Saves changed t) : Moves moment s (.setPhase number) t
  | restarted {config : WarmupConfig} {t : Backing} (loaded : s.Loads config)
      (persisted : s.Saves (config.restarted moment.wall) t) : Moves moment s .resetWarmup t

/-- A configuration was loaded, and then a change of it was written, or nothing. -/
def Rewrites (loaded : Except PlaneFault WarmupConfig → Plane (PlannedStore Backing) → Prop)
    (change : WarmupConfig → WarmupConfig → Prop) (q : Plane (PlannedStore Backing)) : Prop :=
  ∃ r mid, loaded r mid ∧ (q.store.inner = mid.store.inner ∨
    ∃ config changed, r = .ok config ∧ change config changed ∧ mid.store.inner.Saves changed q.store.inner)

/-- A configuration is written, or else nothing is; what follows leaves the store alone. -/
theorem leads_saveConfig (p : Plane (PlannedStore Backing)) (config : WarmupConfig)
    {f : Unit → Call (PlannedStore Backing) β} (rest : ∀ a, (f a).Keeps moment Spares) :
    (ask (.saveConfig config) >>= f).Leads moment p fun _ q =>
      q.store.inner = p.store.inner ∨ p.store.inner.Saves config q.store.inner := by
  refine Call.Leads.bind (leads_planned (Q := fun r q => q.store.inner = p.store.inner ∨
    p.store.inner.Saves config q.store.inner) (fun _ _ same _ => Or.inl same)
    fun a q answered inner _ => Or.inr (Prod.ext answered inner.symm)) (fun a q reached => ?_) fun _ _ => id
  refine (rest a q).mono fun _ r spares => ?_
  rw [spares.inner]
  exact reached

theorem restart_writes (p : Plane (PlannedStore Backing)) (config : WarmupConfig) (table : PhaseTable)
    (event : AuditEvent) : (restart config table event).Leads moment p fun _ q =>
      q.store.inner = p.store.inner ∨ p.store.inner.Saves config q.store.inner :=
  leads_saveConfig p config fun _ => publish_spares.bind fun _ =>
    ((Call.idle_report _).bind fun _ => Call.idle_wallNow.bind fun _ => Call.idle_pure _).keeps moment

section

variable {loaded : Except PlaneFault WarmupConfig → Plane (PlannedStore Backing) → Prop}

theorem updateConfig_rewrites (loads : loadOrSeed.Leads moment p loaded) (update : ConfigUpdate) :
    (updateConfig update).Leads moment p fun _ q =>
      Rewrites loaded (fun config changed => config.updated update = .ok changed) q := by
  refine loads.bind (fun config q reached => ?_) fun _ q reached => ⟨_, q, reached, Or.inl rfl⟩
  refine Call.leads_orInvalid_bind (fun changed valid => ?_) fun _ _ => ⟨_, q, reached, Or.inl rfl⟩
  have rest (_ : Unit) : (do
      let _ ← publish
      report (.plain .configUpdated
        s!"enabled={changed.enabled} batch_interval_minutes={changed.batchIntervalMinutes}")
      if config.enabled ≠ changed.enabled then
        let kind : AuditKind := if changed.enabled then .throttleEnabled else .throttleDisabled
        report (.plain kind "throttling toggled by operator")
      pure changed : Call (PlannedStore Backing) WarmupConfig).Keeps moment Spares := by
    refine publish_spares.bind fun _ => ((Call.idle_report _).keeps moment).bind fun _ => ?_
    dsimp only
    split
    · exact ((Call.idle_report _).bind fun _ => Call.idle_pure _).keeps moment
    · exact (Call.idle_pure _).keeps moment
  exact (leads_saveConfig q changed rest).mono fun _ r written =>
    ⟨_, q, reached, written.imp_right fun persisted => ⟨config, changed, rfl, valid, persisted⟩⟩

theorem setPhase_rewrites (loads : loadOrSeed.Leads moment p loaded) (number : Nat) :
    (setPhase number).Leads moment p fun _ q => Rewrites loaded
      (fun config changed => ∃ table, config.withPhase table number moment.wall = .ok changed) q := by
  refine loads.bind (fun config q reached => ?_) fun _ q reached => ⟨_, q, reached, Or.inl rfl⟩
  refine (storedTable_spares q).bind (fun table r spares => ?_) fun _ _ spares => ⟨_, q, reached, Or.inl spares.inner⟩
  refine Call.leads_wallNow_bind (Call.leads_orInvalid_bind (fun changed valid => ?_) fun _ _ =>
    ⟨_, q, reached, Or.inl spares.inner⟩)
  refine (restart_writes r changed table _).mono fun _ t written => ⟨_, q, reached, ?_⟩
  rw [spares.inner] at written
  exact written.imp_right fun persisted => ⟨config, changed, rfl, ⟨table, valid⟩, persisted⟩

theorem resetWarmup_rewrites (loads : loadOrSeed.Leads moment p loaded) :
    resetWarmup.Leads moment p fun _ q =>
      Rewrites loaded (fun config changed => changed = config.restarted moment.wall) q := by
  refine loads.bind (fun config q reached => ?_) fun _ q reached => ⟨_, q, reached, Or.inl rfl⟩
  refine (storedTable_spares q).bind (fun table r spares => ?_) fun _ _ spares => ⟨_, q, reached, Or.inl spares.inner⟩
  refine Call.leads_wallNow_bind ((restart_writes r _ table _).mono fun _ t written => ⟨_, q, reached, ?_⟩)
  rw [spares.inner] at written
  exact written.imp_right fun persisted => ⟨config, _, rfl, rfl, persisted⟩

end

/-- What is rewritten after it was found stored. -/
theorem Rewrites.stored {change : WarmupConfig → WarmupConfig → Prop}
    (rewrites : Rewrites (fun r q => q.store.inner = p.store.inner ∧
      ∀ config, r = .ok config → p.store.inner.Loads config) change q) :
    q.store.inner = p.store.inner ∨ ∃ config changed, p.store.inner.Loads config ∧ change config changed ∧
      p.store.inner.Saves changed q.store.inner := by
  obtain ⟨_, mid, ⟨same, loaded⟩, kept | ⟨config, changed, rfl, changes, persisted⟩⟩ := rewrites
  · exact Or.inl (kept.trans same)
  · exact Or.inr ⟨config, changed, loaded config rfl, changes, same ▸ persisted⟩

/-- The three commands that write the configuration, among all. -/
theorem Command.moves {e : ConfigEntry} (stored : p.store.inner.stored? = some e) (moment : Moment) (command : Command) :
    Moves moment p.store.inner command (command.perform moment p).store.inner := by
  have guarded {α : Type} {c : Call (PlannedStore Backing) α} (guards : c.Keeps moment Guards) :
      Moves moment p.store.inner command (c.after moment p).store.inner :=
    .kept ((guards.after p e stored).trans stored.symm)
  rcases command.leaves_cases moment p with leaves | rfl | rfl | ⟨update, rfl⟩ | ⟨number, rfl⟩ | rfl
  · exact .kept leaves
  · exact guarded loadOrSeed_guards
  · exact guarded reload_guards
  · rcases Rewrites.stored (updateConfig_rewrites (leads_loadOrSeed stored) update .none) with
      same | ⟨config, changed, loaded, valid, persisted⟩
    · exact .kept (congrArg _ same)
    · exact .updated loaded valid persisted
  · rcases Rewrites.stored (setPhase_rewrites (leads_loadOrSeed stored) number .none) with
      same | ⟨config, changed, loaded, ⟨table, valid⟩, persisted⟩
    · exact .kept (congrArg _ same)
    · exact .jumped loaded valid persisted
  · rcases Rewrites.stored (resetWarmup_rewrites (leads_loadOrSeed stored) .none) with
      same | ⟨config, _, loaded, rfl, persisted⟩
    · exact .kept (congrArg _ same)
    · exact .restarted loaded persisted

/-! ### Part by part -/

section

variable {s t : Backing} {command : Command} {e : ConfigEntry}

/-- What has become of the parts of a stored configuration, and by what. -/
structure Attributed (moment : Moment) (s : Backing) (command : Command) (t : Backing) (e e' : ConfigEntry) : Prop where
  activation : e'.activation = e.activation ∨ command = .resetWarmup ∧
    ∃ config, s.Loads config ∧ s.Saves (config.restarted moment.wall) t
  phaseOverride : e'.phaseOverride = e.phaseOverride ∨
    (command = .resetWarmup ∧ ∃ config, s.Loads config ∧ s.Saves (config.restarted moment.wall) t) ∨
    ∃ number table config changed, command = .setPhase number ∧ s.Loads config ∧
      config.withPhase table number moment.wall = .ok changed ∧ s.Saves changed t
  enabled : e'.enabled = e.enabled ∨ ∃ update value config changed, command = .updateConfig update ∧
    update.enabled = some value ∧ s.Loads config ∧ config.updated update = .ok changed ∧ s.Saves changed t
  interval : e'.interval = e.interval ∨ ∃ update minutes config changed, command = .updateConfig update ∧
    update.batchIntervalMinutes = some minutes ∧ s.Loads config ∧ config.updated update = .ok changed ∧
      s.Saves changed t
  readable : ∀ config, e.read = .ok config → command ≠ .resetWarmup → (∀ number, command ≠ .setPhase number) →
    ∃ config', e'.read = .ok config'

theorem Moves.attributed (moves : Moves moment s command t) (stored : s.stored? = some e) :
    ∃ e', t.stored? = some e' ∧ Attributed moment s command t e e' := by
  have read {config : WarmupConfig} (loaded : s.Loads config) : e.read = .ok config := by
    have found := Backing.loadConfig_read loaded
    rw [stored] at found
    exact Option.some.inj found
  cases moves with
  | kept same =>
    exact ⟨e, same.trans stored, Or.inl rfl, Or.inl rfl, Or.inl rfl, Or.inl rfl, fun config known _ _ => ⟨config, known⟩⟩
  | @updated update config changed _ loaded valid persisted =>
    obtain ⟨activation, phaseOverride, enabled, interval, bounded⟩ := WarmupConfig.updated_ok valid
    refine ⟨_, Backing.saveConfig_entry persisted stored, ?_, ?_, ?_, ?_, ?_⟩
    · exact Or.inl (ConfigEntry.rewrite_activation (read loaded) activation)
    · exact Or.inl (ConfigEntry.rewrite_phaseOverride (read loaded) phaseOverride)
    · cases asked : update.enabled with
      | some value => exact Or.inr ⟨update, value, config, changed, rfl, asked, loaded, valid, persisted⟩
      | none =>
        rw [asked] at enabled
        exact Or.inl (ConfigEntry.rewrite_enabled (read loaded) enabled)
    · cases asked : update.batchIntervalMinutes with
      | some minutes => exact Or.inr ⟨update, minutes, config, changed, rfl, asked, loaded, valid, persisted⟩
      | none =>
        rw [asked] at interval
        exact Or.inl (ConfigEntry.rewrite_interval (read loaded) interval)
    · exact fun _ _ _ _ => ⟨changed, ConfigEntry.rewrite_read (read loaded) activation phaseOverride bounded⟩
  | @jumped number table config changed _ loaded valid persisted =>
    obtain ⟨activation, enabled, interval⟩ := WarmupConfig.withPhase_fields valid
    refine ⟨_, Backing.saveConfig_entry persisted stored, ?_, ?_, ?_, ?_, ?_⟩
    · exact Or.inl (ConfigEntry.rewrite_activation (read loaded) activation)
    · exact Or.inr (Or.inr ⟨number, table, config, changed, rfl, loaded, valid, persisted⟩)
    · exact Or.inl (ConfigEntry.rewrite_enabled (read loaded) enabled)
    · exact Or.inl (ConfigEntry.rewrite_interval (read loaded) interval)
    · exact fun _ _ _ other => absurd rfl (other number)
  | @restarted config _ loaded persisted =>
    refine ⟨_, Backing.saveConfig_entry persisted stored, ?_, ?_, ?_, ?_, ?_⟩
    · exact Or.inr ⟨rfl, config, loaded, persisted⟩
    · exact Or.inr (Or.inl ⟨rfl, config, loaded, persisted⟩)
    · exact Or.inl (ConfigEntry.rewrite_enabled (read loaded) rfl)
    · exact Or.inl (ConfigEntry.rewrite_interval (read loaded) rfl)
    · exact fun _ _ other _ => absurd rfl other

end

end RelayRamp.Plane
