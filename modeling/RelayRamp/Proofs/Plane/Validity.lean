import RelayRamp.Proofs.Plane.Movers

/-!
# Stored configurations are valid

Whoever loads the configuration validates it, a new one is valid, and no change that a command makes takes this away.
So what a plane writes is valid, and what it finds later can be loaded unless the store fails.
-/
namespace RelayRamp.Warmup.WarmupConfig

open RelayRamp.Store

variable {config changed : WarmupConfig}

theorem fresh_valid (now : Time.Instant) : (fresh now).validate = .ok () := rfl

theorem updated_valid (valid : config.validate = .ok ()) {update : ConfigUpdate}
    (ok : config.updated update = .ok changed) : changed.validate = .ok () := by
  unfold updated at ok
  cases minutes : update.batchIntervalMinutes with
  | none =>
    rw [minutes] at ok
    cases ok
    exact valid
  | some given =>
    rw [minutes] at ok
    obtain ⟨⟨⟩, bounded, ok⟩ := ok_of_bind ok
    cases ok
    exact bounded

theorem withPhase_valid (valid : config.validate = .ok ()) {table : PhaseTable} {number : Nat} {now : Time.Instant}
    (ok : config.withPhase table number now = .ok changed) : changed.validate = .ok () := by
  rw [validate, (withPhase_fields ok).2.2]
  exact valid

end RelayRamp.Warmup.WarmupConfig

namespace RelayRamp.Plane

open RelayRamp.Store RelayRamp.Time RelayRamp.Warmup

variable {p q : Plane (PlannedStore Backing)} {moment : Moment} {α : Type}

/-- The configuration that was loaded is valid, and so is what is stored. -/
def Validated (r : Except PlaneFault WarmupConfig) (q : Plane (PlannedStore Backing)) : Prop :=
  q.store.inner.Valid ∧ ∀ config, r = .ok config → config.validate = .ok ()

theorem Call.Keeps.then_validated {c : Call (PlannedStore Backing) α} {f : α → Call (PlannedStore Backing) WarmupConfig}
    (leaves : c.Keeps moment Leaves) (valid : p.store.inner.Valid)
    (rest : ∀ a q, q.store.inner.Valid → (f a).Leads moment q Validated) : (c >>= f).Leads moment p Validated :=
  (leaves p).bind (fun a q kept => rest a q (valid.kept kept)) fun _ _ kept => ⟨valid.kept kept, nofun⟩

theorem saveConfig_valid (valid : p.store.inner.Valid) {config : WarmupConfig} (sound : config.validate = .ok ()) :
    (ask (.saveConfig config)).Leads moment p fun _ q => q.store.inner.Valid :=
  leads_planned (fun _ _ same _ => valid.kept (congrArg _ same)) fun _ _ answered inner _ =>
    Backing.Saves.valid (s := p.store.inner) (Prod.ext answered inner.symm) sound

theorem seedConfig_validated (valid : p.store.inner.Valid) : Call.seedConfig.Leads moment p Validated := by
  refine Call.leads_wallNow_bind ?_
  refine (saveConfig_valid valid (WarmupConfig.fresh_valid moment.wall)).bind (fun _ q stored => ?_) fun _ _ stored =>
    ⟨stored, nofun⟩
  refine Call.leads_pure ⟨stored, fun config same => ?_⟩
  cases same
  exact WarmupConfig.fresh_valid moment.wall

theorem seedRules_validated (valid : p.store.inner.Valid) (settings : EngineSettings) :
    (Call.seedRules settings).Leads moment p Validated := by
  unfold Call.seedRules
  split
  · refine (ask_leaves (c := .listRules) nofun).then_validated valid fun rules q valid => ?_
    split
    · refine (Call.Keeps.forM (fun draft => ?_) _).then_validated valid fun _ _ => seedConfig_validated
      exact ((Call.idle_orInvalid _).keeps moment).bind fun validated =>
        (ask_leaves (c := .insertRule _) (by nofun)).bind fun _ => (Call.idle_pure _).keeps moment
    · exact seedConfig_validated valid
  · exact seedConfig_validated valid

theorem loadOrSeed_validated (valid : p.store.inner.Valid) : loadOrSeed.Leads moment p Validated := by
  rw [Call.loadOrSeed_eq]
  refine (ask_leaves (c := .loadConfig) nofun).then_validated valid fun found q valid => ?_
  cases found with
  | some config =>
    refine Call.leads_orInvalid_bind (fun _ sound => Call.leads_pure ⟨valid, fun _ same => ?_⟩) fun _ _ => ⟨valid, nofun⟩
    cases same
    exact sound
  | none =>
    refine Call.leads_plane_bind ?_
    dsimp only
    split
    · refine (ask_leaves (c := .loadPhases) nofun).then_validated valid fun phases q valid => ?_
      split
      · exact (ask_leaves (c := .replacePhases _) (by nofun)).then_validated valid fun _ _ valid =>
          seedRules_validated valid _
      · exact seedRules_validated valid _
    · exact seedRules_validated valid _

/-- Whoever writes a change of what was loaded writes a valid configuration if the change keeps it so. -/
theorem Rewrites.valid {change : WarmupConfig → WarmupConfig → Prop} (rewrites : Rewrites Validated change q)
    (keeps : ∀ config changed, change config changed → config.validate = .ok () → changed.validate = .ok ()) :
    q.store.inner.Valid := by
  obtain ⟨_, mid, ⟨valid, sound⟩, kept | ⟨config, changed, rfl, changes, persisted⟩⟩ := rewrites
  · exact valid.kept (congrArg _ kept)
  · exact persisted.valid (keeps config changed changes (sound config rfl))

/-- Commands keep the stored configuration valid. -/
theorem Command.valid (valid : p.store.inner.Valid) (moment : Moment) (command : Command) :
    (command.perform moment p).store.inner.Valid := by
  have loads : loadOrSeed.Leads moment p Validated := loadOrSeed_validated valid
  rcases command.leaves_cases moment p with leaves | rfl | rfl | ⟨update, rfl⟩ | ⟨number, rfl⟩ | rfl
  · exact valid.kept leaves
  · exact (loads .none).1
  · have reloads : Plane.reload.Leads moment p fun _ q => q.store.inner.Valid := by
      refine Call.Leads.tryCatch (Q := fun _ q => q.store.inner.Valid) ?_ (fun _ _ => id) fun fault q valid => ?_
      · exact loads.bind (fun _ q loaded => (refresh_spares.leaves q).mono fun _ _ => loaded.1.kept) fun _ _ => And.left
      · refine (((degrade_spares fault).leaves.bind fun _ => (Call.idle_throw _).keeps moment) q).mono ?_
        exact fun _ _ => valid.kept
    exact reloads .none
  · exact Rewrites.valid (updateConfig_rewrites loads update .none) fun _ _ changed valid =>
      WarmupConfig.updated_valid valid changed
  · exact Rewrites.valid (setPhase_rewrites loads number .none) fun _ _ ⟨_, changed⟩ valid =>
      WarmupConfig.withPhase_valid valid changed
  · refine Rewrites.valid (resetWarmup_rewrites loads .none) fun config changed same valid => ?_
    rw [same]
    exact valid

/-- Opening a plane keeps the stored configuration valid. -/
theorem load_valid (valid : p.store.inner.Valid) : (load.after moment p).store.inner.Valid := by
  have loads : loadOrSeed.Leads moment p Validated := loadOrSeed_validated valid
  have spares : Spares (loadOrSeed.after moment p) (load.after moment p) := load_spares p
  exact (loads .none).1.kept (leaves_of_store spares.inner)

end RelayRamp.Plane
