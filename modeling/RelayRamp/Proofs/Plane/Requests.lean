import RelayRamp.Proofs.Plane.Seeding
import RelayRamp.Proofs.Warmup.Table

/-!
# What commands ask for

Most of what a command does leaves the store alone. What it writes are phases that make a table, rules, deletions and
counters; three commands write a configuration, and loading may write the seed data first. So what is kept by these
writes, and by everything that leaves the store alone, is kept by every command.
-/
namespace RelayRamp.Plane

open RelayRamp.Lease RelayRamp.Routing RelayRamp.Store RelayRamp.Time RelayRamp.Warmup

variable {p q : Plane (PlannedStore Backing)} {moment : Moment} {α : Type}

theorem publish_spares : (publish : Call (PlannedStore Backing) Nat).Keeps moment Spares :=
  refresh_spares.tryCatch fun fault => (degrade_spares fault).bind fun _ => (Call.idle_throw _).keeps moment

theorem storedTable_spares : (storedTable : Call (PlannedStore Backing) PhaseTable).Keeps moment Spares := by
  refine (read_spares (c := .loadPhases) rfl).bind fun phases => ?_
  split
  · exact (Call.idle_pure _).keeps moment
  · exact (Call.idle_throw _).keeps moment

/-- The relation holds where the store is left alone, and across the calls of a sort. Tables of phases are written by such
calls, and whatever else is not a configuration. -/
structure Suits (sort : {α : Type} → StoreCall α → Prop)
    (R : Plane (PlannedStore Backing) → Plane (PlannedStore Backing) → Prop) : Prop where
  spares {p q : Plane (PlannedStore Backing)} : Spares p q → R p q
  asks {α : Type} (p : Plane (PlannedStore Backing)) (c : StoreCall α) : sort c → R p (p.asked c)
  tables {phases : List WarmupPhase} {table : PhaseTable} :
    PhaseTable.ofPhases phases = .ok table → sort (.replacePhases table.phases)
  others {α : Type} (c : StoreCall α) : c.kind ≠ .saveConfig → c.kind ≠ .replacePhases → sort c

namespace Suits

variable {sort : {α : Type} → StoreCall α → Prop}
  {R : Plane (PlannedStore Backing) → Plane (PlannedStore Backing) → Prop} (suits : Suits sort R)

include suits

theorem spared {c : Call (PlannedStore Backing) α} (spares : c.Keeps moment Spares) : c.Keeps moment R :=
  spares.mono fun _ _ => suits.spares

theorem ask (c : StoreCall α) (of_sort : sort c) : (ask c).Keeps moment R :=
  fun p => Call.leads_ask (suits.asks p c of_sort)

variable [IsPreorder (Plane (PlannedStore Backing)) R]

theorem askUnique (pattern : String) (c : StoreCall α) (of_sort : sort c) : (askUnique pattern c).Keeps moment R := by
  refine (suits.ask c of_sort).tryCatch fun fault => ?_
  split
  · exact (Call.idle_throw _).keeps moment
  · exact (Call.idle_throw _).keeps moment

/-! ### Commands that do not load the configuration -/

theorem replacePhases (phases : List WarmupPhase) :
    (replacePhases phases : Call (PlannedStore Backing) _).Keeps moment R := by
  refine Call.Keeps.orInvalid_bind fun table built => ?_
  refine (suits.ask (.replacePhases table.phases) (suits.tables built)).bind fun _ => ?_
  refine (suits.spared publish_spares).bind fun _ => ?_
  exact ((Call.idle_report _).bind fun _ => Call.idle_pure _).keeps moment

theorem updatePhase (number : Nat) (patch : PhasePatch) :
    (updatePhase number patch : Call (PlannedStore Backing) _).Keeps moment R := by
  refine (suits.spared storedTable_spares).bind fun stored => Call.Keeps.orInvalid_bind fun table patched => ?_
  obtain ⟨_, built⟩ := PhaseTable.withPatch_built patched
  refine (suits.ask _ (suits.tables built)).bind fun _ => (suits.spared publish_spares).bind fun _ => ?_
  refine ((Call.idle_report _).keeps moment).bind fun _ => ?_
  split
  · exact (Call.idle_pure _).keeps moment
  · exact (Call.idle_throw _).keeps moment

theorem createRule (draft : RuleDraft) : (createRule draft : Call (PlannedStore Backing) _).Keeps moment R := by
  refine ((Call.idle_orInvalid _).keeps moment).bind fun validated => ?_
  refine (suits.spared (read_spares (c := .listRules) rfl)).bind fun _ => ?_
  refine ((Call.idle_requireUnused _ _ _).keeps moment).bind fun _ => ?_
  refine (suits.askUnique _ (.insertRule validated.2) (suits.others _ nofun nofun)).bind fun _ => ?_
  refine (suits.spared publish_spares).bind fun _ => ?_
  exact ((Call.idle_report _).bind fun _ => Call.idle_pure _).keeps moment

theorem updateRule (id : Nat) (patch : RulePatch) :
    (updateRule id patch : Call (PlannedStore Backing) _).Keeps moment R := by
  refine (suits.spared (read_spares (c := .listRules) rfl)).bind fun rules => ?_
  split
  · refine ((Call.idle_orInvalid _).keeps moment).bind fun validated => ?_
    refine ((Call.idle_requireUnused _ _ _).keeps moment).bind fun _ => ?_
    refine (suits.askUnique _ (.updateRule (validated.2.withId id)) (suits.others _ nofun nofun)).bind fun found => ?_
    dsimp only
    split
    · exact (Call.idle_throw_bind _ _).keeps moment
    · refine (suits.spared publish_spares).bind fun _ => ?_
      exact ((Call.idle_report _).bind fun _ => Call.idle_pure _).keeps moment
  · exact (Call.idle_throw _).keeps moment

theorem deleteRule (id : Nat) : (deleteRule id : Call (PlannedStore Backing) _).Keeps moment R := by
  refine (suits.ask (.deleteRule id) (suits.others _ nofun nofun)).bind fun found => ?_
  dsimp only
  split
  · exact (Call.idle_throw_bind _ _).keeps moment
  · exact (suits.spared publish_spares).bind fun _ => (Call.idle_report _).keeps moment

theorem persistCounters : (persistCounters : Call (PlannedStore Backing) Unit).Keeps moment R := by
  refine fun p => Call.leads_wallNow_bind (Call.leads_setPlane_bind (Call.leads_plane_bind ?_))
  have rolled : R p { p with counters := p.counters.rolled moment.wall } := suits.spares ⟨rfl, rfl⟩
  have saves : (Plane.ask (.saveCounters (p.counters.rolled moment.wall).buckets)).Keeps moment R :=
    suits.ask _ (suits.others _ nofun nofun)
  refine (saves.tryCatch (fun fault => ?_) _).mono fun _ _ => IsTrans.trans _ _ _ rolled
  refine ((Call.idle_report _).keeps moment).bind fun _ => (Call.idle_plane.keeps moment).bind fun q => ?_
  dsimp only
  split
  · exact (suits.spared (degrade_spares fault)).bind fun _ => (Call.idle_throw _).keeps moment
  · exact (Call.idle_throw _).keeps moment

/-- A command that does not load the configuration keeps to the relation. -/
theorem command_cases (moment : Moment) (p : Plane (PlannedStore Backing)) (command : Command) :
    R p (command.perform moment p) ∨ command = .getConfig ∨ command = .reload ∨
      (∃ update, command = .updateConfig update) ∨ (∃ number, command = .setPhase number) ∨
      command = .resetWarmup := by
  cases command with
  | warmupStatus =>
    refine Or.inl ((Call.Idle.keeps ?_ moment).after p)
    exact Call.idle_plane.bind fun _ => (Call.idle_orMisconfigured _).bind fun _ =>
      Call.idle_wallNow.bind fun _ => Call.idle_pure _
  | listPhases | transportMap | serviceBlock =>
    exact Or.inl ((suits.spared ((read_spares rfl).bind fun _ => (Call.idle_pure _).keeps moment)).after p)
  | listRules => exact Or.inl ((suits.spared (read_spares rfl)).after p)
  | replacePhases phases => exact Or.inl ((suits.replacePhases phases).after p)
  | updatePhase number patch => exact Or.inl ((suits.updatePhase number patch).after p)
  | createRule draft => exact Or.inl ((suits.createRule draft).after p)
  | updateRule id patch => exact Or.inl ((suits.updateRule id patch).after p)
  | deleteRule id => exact Or.inl ((suits.deleteRule id).after p)
  | releaseLease | reclaimLeases => exact Or.inl (suits.spares ⟨rfl, rfl⟩)
  | persistCounters => exact Or.inl (suits.persistCounters.after p)
  | getConfig => exact Or.inr (Or.inl rfl)
  | reload => exact Or.inr (Or.inr (Or.inl rfl))
  | updateConfig update => exact Or.inr (Or.inr (Or.inr (Or.inl ⟨update, rfl⟩)))
  | setPhase number => exact Or.inr (Or.inr (Or.inr (Or.inr (Or.inl ⟨number, rfl⟩))))
  | resetWarmup => exact Or.inr (Or.inr (Or.inr (Or.inr (Or.inr rfl))))

/-! ### All commands, if configurations and the seed data are of the sort, too -/

section

variable (configs : ∀ config, sort (.saveConfig config)) (seed : sort (.replacePhases Seed.phases))

include configs

theorem seedConfig : (Call.seedConfig : Call (PlannedStore Backing) WarmupConfig).Keeps moment R :=
  (Call.idle_wallNow.keeps moment).bind fun now => (suits.ask (.saveConfig (.fresh now)) (configs _)).bind
    fun _ => (Call.idle_pure _).keeps moment

theorem seedRules (settings : EngineSettings) :
    (Call.seedRules settings : Call (PlannedStore Backing) WarmupConfig).Keeps moment R := by
  unfold Call.seedRules
  split
  · refine (suits.spared (read_spares (c := .listRules) rfl)).bind fun rules => ?_
    split
    · refine (Call.Keeps.forM (fun draft => ?_) _).bind fun _ => suits.seedConfig configs
      refine ((Call.idle_orInvalid _).keeps moment).bind fun validated => ?_
      exact (suits.ask (.insertRule validated.2) (suits.others _ nofun nofun)).bind fun _ =>
        (Call.idle_pure _).keeps moment
    · exact suits.seedConfig configs
  · exact suits.seedConfig configs

theorem restart (config : WarmupConfig) (table : PhaseTable) (event : AuditEvent) :
    (restart config table event : Call (PlannedStore Backing) WarmupStatus).Keeps moment R :=
  (suits.ask (.saveConfig config) (configs config)).bind fun _ => (suits.spared publish_spares).bind fun _ =>
    ((Call.idle_report _).bind fun _ => Call.idle_wallNow.bind fun _ => Call.idle_pure _).keeps moment

include seed

theorem loadOrSeed : (loadOrSeed : Call (PlannedStore Backing) WarmupConfig).Keeps moment R := by
  rw [Call.loadOrSeed_eq]
  refine (suits.spared (read_spares (c := .loadConfig) rfl)).bind fun found => ?_
  cases found with
  | some config => exact ((Call.idle_orInvalid _).bind fun _ => Call.idle_pure _).keeps moment
  | none =>
    refine (Call.idle_plane.keeps moment).bind fun p => ?_
    dsimp only
    split
    · refine (suits.spared (read_spares (c := .loadPhases) rfl)).bind fun phases => ?_
      split
      · exact (suits.ask (.replacePhases Seed.phases) seed).bind fun _ => suits.seedRules configs _
      · exact suits.seedRules configs _
    · exact suits.seedRules configs _

theorem updateConfig (update : ConfigUpdate) :
    (updateConfig update : Call (PlannedStore Backing) WarmupConfig).Keeps moment R := by
  refine (suits.loadOrSeed configs seed).bind fun before => ((Call.idle_orInvalid _).keeps moment).bind fun config => ?_
  refine (suits.ask (.saveConfig config) (configs config)).bind fun _ => (suits.spared publish_spares).bind fun _ => ?_
  refine ((Call.idle_report _).keeps moment).bind fun _ => ?_
  dsimp only
  split
  · exact ((Call.idle_report _).bind fun _ => Call.idle_pure _).keeps moment
  · exact (Call.idle_pure _).keeps moment

theorem setPhase (number : Nat) : (setPhase number : Call (PlannedStore Backing) WarmupStatus).Keeps moment R :=
  (suits.loadOrSeed configs seed).bind fun _ => (suits.spared storedTable_spares).bind fun _ =>
    (Call.idle_wallNow.keeps moment).bind fun _ => ((Call.idle_orInvalid _).keeps moment).bind fun _ =>
      suits.restart configs _ _ _

theorem resetWarmup : (resetWarmup : Call (PlannedStore Backing) WarmupStatus).Keeps moment R :=
  (suits.loadOrSeed configs seed).bind fun _ => (suits.spared storedTable_spares).bind fun _ =>
    (Call.idle_wallNow.keeps moment).bind fun _ => suits.restart configs _ _ _

theorem reload (p : Plane (PlannedStore Backing)) : R p (reload.after moment p) :=
  IsTrans.trans _ _ _ ((suits.loadOrSeed configs seed).after p) (suits.spares (reload_spares p))

theorem load (p : Plane (PlannedStore Backing)) : R p (load.after moment p) :=
  IsTrans.trans _ _ _ ((suits.loadOrSeed configs seed).after p) (suits.spares (load_spares p))

/-- Every command keeps to the relation. -/
theorem command (moment : Moment) (p : Plane (PlannedStore Backing)) (command : Command) :
    R p (command.perform moment p) := by
  rcases suits.command_cases moment p command with keeps | rfl | rfl | ⟨update, rfl⟩ | ⟨number, rfl⟩ | rfl
  · exact keeps
  · exact (suits.loadOrSeed configs seed).after p
  · exact suits.reload configs seed p
  · exact (suits.updateConfig configs seed update).after p
  · exact (suits.setPhase configs seed number).after p
  · exact (suits.resetWarmup configs seed).after p

end

end Suits

end RelayRamp.Plane
