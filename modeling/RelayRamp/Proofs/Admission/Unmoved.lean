import RelayRamp.Proofs.Admission.Invariants
import RelayRamp.Proofs.Plane.Movers

/-!
# A warmup that is not moved

Each part of the stored configuration has the commands that may change it. Whatever else is done at a plane, and
whatever calls of the store fail, the part stays as it is stored, however often the configuration is written; and so do
the days of the warmup at any instant.
-/
namespace RelayRamp.Admission

open RelayRamp.Plane RelayRamp.Store RelayRamp.Time RelayRamp.Warmup

namespace Act

/-- The warmup is started again. -/
def restarts : Act → Bool
  | command .resetWarmup => true
  | _ => false

/-- The override is set or taken back. -/
def overrides : Act → Bool
  | command (.setPhase _) | command .resetWarmup => true
  | _ => false

/-- The flag is given. -/
def switches : Act → Bool
  | command (.updateConfig update) => update.enabled.isSome
  | _ => false

/-- The interval is given. -/
def paces : Act → Bool
  | command (.updateConfig update) => update.batchIntervalMinutes.isSome
  | _ => false

end Act

namespace Service

variable {s : Service (PlannedStore Backing)} {e : ConfigEntry}

/-- What an act does to the stored configuration it does by a command. -/
theorem step_attributed (stored : s.plane.store.inner.stored? = some e) (moment : Moment) (act : Act) :
    ∃ e', (s.step moment act).plane.store.inner.stored? = some e' ∧ (e' = e ∨ ∃ command, act = .command command ∧
      Attributed moment s.plane.store.inner command (s.step moment act).plane.store.inner e e') := by
  by_cases commands : ∃ command, act = .command command
  · obtain ⟨command, rfl⟩ := commands
    obtain ⟨e', present, attributed⟩ := (command.moves stored moment).attributed stored
    exact ⟨e', present, Or.inr ⟨command, rfl, attributed⟩⟩
  · have touches := s.step_touches moment fun command same => commands ⟨command, same⟩
    exact ⟨e, by rw [touches.store, stored], Or.inl rfl⟩

/-- The parts of a stored configuration that acts leave as they are. -/
structure Unmoved (acts : List (Moment × Act)) (e e' : ConfigEntry) : Prop where
  activation : (∀ entry ∈ acts, entry.2.restarts = false) → e'.activation = e.activation
  phaseOverride : (∀ entry ∈ acts, entry.2.overrides = false) → e'.phaseOverride = e.phaseOverride
  enabled : (∀ entry ∈ acts, entry.2.switches = false) → e'.enabled = e.enabled
  interval : (∀ entry ∈ acts, entry.2.paces = false) → e'.interval = e.interval
  readable : (∀ entry ∈ acts, entry.2.overrides = false) → (∃ config, e.read = .ok config) →
    ∃ config, e'.read = .ok config

theorem Unmoved.nothing (acts : List (Moment × Act)) (e : ConfigEntry) : Unmoved acts e e :=
  ⟨fun _ => rfl, fun _ => rfl, fun _ => rfl, fun _ => rfl, fun _ => id⟩

theorem Unmoved.trans {before after : List (Moment × Act)} {e₁ e₂ e₃ : ConfigEntry} (first : Unmoved before e₁ e₂)
    (rest : Unmoved after e₂ e₃) : Unmoved (before ++ after) e₁ e₃ where
  activation none :=
    let ⟨early, late⟩ := List.forall_mem_append.mp none
    (rest.activation late).trans (first.activation early)
  phaseOverride none :=
    let ⟨early, late⟩ := List.forall_mem_append.mp none
    (rest.phaseOverride late).trans (first.phaseOverride early)
  enabled none :=
    let ⟨early, late⟩ := List.forall_mem_append.mp none
    (rest.enabled late).trans (first.enabled early)
  interval none :=
    let ⟨early, late⟩ := List.forall_mem_append.mp none
    (rest.interval late).trans (first.interval early)
  readable none known :=
    let ⟨early, late⟩ := List.forall_mem_append.mp none
    rest.readable late (first.readable early known)

/-- One act leaves the parts that are not its own. -/
theorem step_unmoved (stored : s.plane.store.inner.stored? = some e) (moment : Moment) (act : Act) :
    ∃ e', (s.step moment act).plane.store.inner.stored? = some e' ∧ Unmoved [(moment, act)] e e' := by
  obtain ⟨e', present, rfl | ⟨command, rfl, attributed⟩⟩ := step_attributed stored moment act
  · exact ⟨e', present, .nothing _ _⟩
  · refine ⟨e', present, ?_, ?_, ?_, ?_, ?_⟩
    · intro none
      refine attributed.activation.resolve_right ?_
      rintro ⟨rfl, -⟩
      cases none _ (List.mem_singleton_self _)
    · intro none
      refine attributed.phaseOverride.resolve_right ?_
      rintro (⟨rfl, -⟩ | ⟨number, table, config, changed, rfl, -⟩)
      · cases none _ (List.mem_singleton_self _)
      · cases none _ (List.mem_singleton_self _)
    · intro none
      refine attributed.enabled.resolve_right ?_
      rintro ⟨update, value, config, changed, rfl, asked, -⟩
      have given := none _ (List.mem_singleton_self _)
      simp only [Act.switches, asked, Option.isSome_some] at given
      cases given
    · intro none
      refine attributed.interval.resolve_right ?_
      rintro ⟨update, minutes, config, changed, rfl, asked, -⟩
      have given := none _ (List.mem_singleton_self _)
      simp only [Act.paces, asked, Option.isSome_some] at given
      cases given
    · rintro none ⟨config, known⟩
      refine attributed.readable config known ?_ fun number => ?_
      · rintro rfl
        cases none _ (List.mem_singleton_self _)
      · rintro rfl
        cases none _ (List.mem_singleton_self _)

theorem run_unmoved (stored : s.plane.store.inner.stored? = some e) (acts : List (Moment × Act)) :
    ∃ e', (s.run acts).plane.store.inner.stored? = some e' ∧ Unmoved acts e e' := by
  induction acts generalizing s e with
  | nil => exact ⟨e, stored, .nothing _ _⟩
  | cons head rest ih =>
    obtain ⟨e₁, present, first⟩ := step_unmoved stored head.1 head.2
    obtain ⟨e₂, last, later⟩ := ih present
    exact ⟨e₂, last, first.trans later⟩

/-- The days of a warmup that is not moved. -/
theorem Unmoved.days {acts : List (Moment × Act)} {e' : ConfigEntry} (unmoved : Unmoved acts e e')
    (none : ∀ entry ∈ acts, entry.2.overrides = false) {config : WarmupConfig} (known : e.read = .ok config) :
    ∃ config', e'.read = .ok config' ∧ ∀ now, config'.daysElapsed now = config.daysElapsed now := by
  have restarts : ∀ entry ∈ acts, entry.2.restarts = false := by
    intro entry member
    have other := none entry member
    unfold Act.overrides at other
    unfold Act.restarts
    split
    · rename_i same
      rw [same] at other
      cases other
    · rfl
  obtain ⟨config', known'⟩ := unmoved.readable none ⟨config, known⟩
  refine ⟨config', known', fun now => ?_⟩
  have same := ConfigEntry.read_effectiveActivation known known' (unmoved.activation restarts)
    (unmoved.phaseOverride none)
  rw [WarmupConfig.daysElapsed, WarmupConfig.daysElapsed, same]

/-- A plane that is opened leaves a stored configuration as it is. -/
theorem launched_entry {store : Backing} {plan : List (Option StoreFault)} {settings : EngineSettings}
    {opening : Moment} {p : Plane (PlannedStore Backing)} {effects : Lease.Effects}
    (launched : Plane.launch ⟨store, plan⟩ settings opening = .ok (p, effects)) (stored : store.stored? = some e) :
    p.store.inner.stored? = some e := by
  obtain ⟨blank, unloaded, rfl⟩ := of_launch launched
  obtain ⟨same, -, -⟩ := of_unloaded unloaded
  exact load_guards.after blank e (by rw [same]; exact stored)

/-- From the moment a configuration is stored, and whatever calls of the store fail: what changes a part of it is a
command that may, and it has written what it was to write; all other parts stay as they are stored through any number
of acts, and so do the days of the warmup unless it is overridden or started again; and planes that are opened later
leave the configuration as it is. -/
theorem warmup_moved_only_by (stored : s.plane.store.inner.stored? = some e) (acts : List (Moment × Act)) :
    (∀ earlier moment act later, acts = earlier ++ (moment, act) :: later →
      let before := (s.run earlier).plane.store.inner
      let after := ((s.run earlier).step moment act).plane.store.inner
      ∃ e₁ e₂, before.stored? = some e₁ ∧ after.stored? = some e₂ ∧
        (e₂ = e₁ ∨ ∃ command, act = .command command ∧ Attributed moment before command after e₁ e₂)) ∧
    (∃ e', (s.run acts).plane.store.inner.stored? = some e' ∧ Unmoved acts e e' ∧
      ((∀ entry ∈ acts, entry.2.overrides = false) → ∀ config, e.read = .ok config →
        ∃ config', e'.read = .ok config' ∧ ∀ now, config'.daysElapsed now = config.daysElapsed now)) ∧
    ∀ plan settings opening p effects,
      Plane.launch (⟨(s.run acts).plane.store.inner, plan⟩ : PlannedStore Backing) settings opening = .ok (p, effects) →
        p.store.inner.stored? = (s.run acts).plane.store.inner.stored? := by
  obtain ⟨e', present, unmoved⟩ := run_unmoved stored acts
  refine ⟨?_, ⟨e', present, unmoved, fun none config known => unmoved.days none known⟩, ?_⟩
  · intro earlier moment act later _
    obtain ⟨e₁, before, -⟩ := run_unmoved stored earlier
    obtain ⟨e₂, after, attributed⟩ := step_attributed before moment act
    exact ⟨e₁, e₂, before, after, attributed⟩
  · exact fun plan settings opening p effects launched => (launched_entry launched present).trans present.symm

/-- Over tables: throttling is switched on, which is stored but cannot be published, then the phases and the rules are
edited. Three days after the activation it is still the third day. -/
theorem warmup_moved_only_by_switched :
    let config : WarmupConfig := WarmupConfig.fresh ⟨0⟩
    let tables : DurableStore := { DurableStore.empty with config := some (.ofConfig config) }
    let settings : EngineSettings := { EngineSettings.standard with seedPhases := false, seedRules := false }
    let store : PlannedStore Backing := ⟨.durable tables, .replicate 7 none ++ [some ⟨.io, "offline"⟩]⟩
    let acts : List (Moment × Act) :=
      [(⟨⟨1⟩, 1⟩, .command (.updateConfig ⟨some true, none⟩)),
        (⟨⟨2⟩, 2⟩, .command (.replacePhases [⟨0, "start", 7, ⟨5, 50, 10⟩⟩])),
        (⟨⟨3⟩, 3⟩, .command (.createRule ⟨"example.org", ⟨"relay"⟩, ⟨1, 0⟩, true, none⟩))]
    ∃ p effects, Plane.launch store settings ⟨⟨0⟩, 0⟩ = .ok (p, effects) ∧
      ((opened p).run acts).plane.store.inner.contents.config.map (·.enabled) = some true ∧
      ∃ e' config', ((opened p).run acts).plane.store.inner.stored? = some e' ∧ e'.activation = .inr (.integer 0) ∧
        e'.read = .ok config' ∧ config'.daysElapsed ⟨3 * nanosPerDay⟩ = 3 := by
  intro config tables settings store acts
  have runs : (Plane.launch store settings ⟨⟨0⟩, 0⟩).toOption.map (fun first =>
      ((opened first.1).run acts).plane.store.inner.contents.config.map (·.enabled)) = some (some true) := by
    decide +kernel
  obtain ⟨⟨p, effects⟩, launched, switched⟩ := Option.map_eq_some_iff.mp runs
  have launched := ok_of_toOption launched
  have stored : p.store.inner.stored? = some (.row (.ofConfig config)) := launched_entry launched rfl
  obtain ⟨-, ⟨e', present, unmoved, days⟩, -⟩ := warmup_moved_only_by (s := opened p) stored acts
  obtain ⟨config', known, elapsed⟩ := days (by decide) config (ok_of_toOption (by decide +kernel))
  refine ⟨p, effects, launched, switched, e', config', present, unmoved.activation (by decide), known, ?_⟩
  rw [elapsed]
  decide

end Service

end RelayRamp.Admission
