import RelayRamp.Proofs.Plane.Coherence
import RelayRamp.Proofs.Store.Rounding
import RelayRamp.Proofs.Warmup.Table

/-!
# Jumping to a phase and starting over

Both write a configuration, publish it and report the status under it. The report is made from the configuration as it
was written, admissions go by the published one, and that has been through the store. A store in memory makes no
difference. Tables keep instants to the millisecond, toward the epoch; when the activation of the chosen phase comes
back later, the snapshot is still on the last day of the phase before.
-/
namespace RelayRamp.Warmup

open RelayRamp.Time

/-- The status is that of a day of a phase. -/
structure WarmupStatus.IsDay (status : WarmupStatus) (table : PhaseTable) (number days : Nat) : Prop where
  current : status.currentPhase = number
  elapsed : status.daysElapsed = days
  phase : ∃ phase, table.get? number = some phase ∧ status.phaseName = phase.name ∧ status.limits = phase.limits
  remaining : status.daysRemaining = table.totalDays - days
  early : status.isEstablished = false

namespace WarmupConfig

variable {config : WarmupConfig} {table : PhaseTable} {now : Instant} {number days : Nat} {phase : WarmupPhase}

theorem status_isDay (elapsed : config.daysElapsed now = days) (found : table.get? number = some phase)
    (begun : table.daysBefore number ≤ days) (lasts : days < table.daysBefore number + phase.durationDays) :
    (config.status table now).IsDay table number days := by
  obtain ⟨position, active⟩ := table.active_within found begun lasts
  refine ⟨?_, elapsed, ⟨phase, found, ?_, ?_⟩, ?_, ?_⟩
  · simp only [status, elapsed, active, PhaseTable.get?_number found]
  · simp only [status, elapsed, active]
  · simp only [status, elapsed, active]
  · simp only [status, elapsed]
  · simp only [status, elapsed, position]

/-- On its first day. -/
theorem status_begins (elapsed : config.daysElapsed now = table.daysBefore number)
    (found : table.get? number = some phase) :
    (config.status table now).IsDay table number (table.daysBefore number) :=
  status_isDay elapsed found (Nat.le_refl _) (Nat.lt_add_of_pos_right (PhaseTable.get?_lasts found))

/-- A day less than the days before a phase is the last day of the phase before it. -/
theorem status_precedes (elapsed : config.daysElapsed now = table.daysBefore (number + 1) - 1)
    (found : table.get? (number + 1) = some phase) :
    (config.status table now).IsDay table number (table.daysBefore (number + 1) - 1) := by
  obtain ⟨before, present⟩ := PhaseTable.get?_pred found
  have days := PhaseTable.daysBefore_succ present
  have lasts := PhaseTable.get?_lasts present
  exact status_isDay elapsed present (by omega) (by omega)

/-- The status depends on the effective activation only, and on whether the phase was chosen. -/
theorem status_congr {other : WarmupConfig} (elapsed : other.daysElapsed now = config.daysElapsed now)
    (chosen : other.phaseOverride.isSome = config.phaseOverride.isSome) :
    other.status table now = config.status table now := by
  simp only [status, elapsed, chosen]

/-- A jump succeeds to a phase of the table, and aims at its first day. -/
theorem withPhase_ok {jumped : WarmupConfig} (done : config.withPhase table number now = .ok jumped) :
    ∃ phase, table.get? number = some phase ∧ jumped.phaseOverride.isSome = true ∧
      jumped.daysElapsed now = table.daysBefore number ∧
      jumped.kept.daysElapsed now = now.daysSince (now.subDays (table.daysBefore number)).kept := by
  unfold withPhase at done
  split at done
  · cases done
  · rename_i phase found
    cases done
    exact ⟨phase, found, rfl, now.daysSince_subDays _, rfl⟩

theorem kept_isSome (config : WarmupConfig) : config.kept.phaseOverride.isSome = config.phaseOverride.isSome := by
  simp [kept]

end WarmupConfig

end RelayRamp.Warmup

namespace RelayRamp.Store

open RelayRamp.Time

/-- The store gives an instant back as a later one. -/
def Backing.Delays (s : Backing) (t : Instant) : Prop := s.rounds = true ∧ t.Delayed

instance (s : Backing) (t : Instant) : Decidable (s.Delays t) := inferInstanceAs (Decidable (_ ∧ _))

theorem PlannedStore.rounds_call {α : Type} (s : PlannedStore Backing) (c : StoreCall α) :
    (ThrottleStore.call c s).2.inner.rounds = s.inner.rounds := by
  rcases s.call_cases c with ⟨fault, -, same⟩ | ⟨-, passed⟩
  · rw [same]
  · rw [passed]
    exact s.inner.rounds_call c

theorem PlannedStore.contents_saved {s : PlannedStore Backing} {config : Warmup.WarmupConfig}
    (saved : (ThrottleStore.call (.saveConfig config) s).1 = .ok ()) :
    (ThrottleStore.call (.saveConfig config) s).2.inner.contents.phases = s.inner.contents.phases ∧
      ∀ read, (ThrottleStore.call (.saveConfig config) s).2.inner.contents.config = some read →
        read = s.inner.kept config := by
  rcases s.call_cases (.saveConfig config) with ⟨fault, failed, -⟩ | ⟨answer, passed⟩
  · rw [failed] at saved
    cases saved
  · rw [passed]
    exact Backing.contents_saved (answer ▸ saved)

end RelayRamp.Store

namespace RelayRamp.Plane

open RelayRamp.Lease RelayRamp.Routing RelayRamp.Store RelayRamp.Time RelayRamp.Warmup

theorem storedTable_leads {σ : Type} [ThrottleStore σ] {valid : σ → Prop} {contents : σ → Contents}
    (h : Faithful valid contents) {p : Plane σ} (sound : valid p.store) (moment : Moment) :
    (storedTable : Call σ PhaseTable).Leads moment p fun answer q => Unwritten valid contents p q ∧
      ∀ table, answer = .ok table → PhaseTable.ofPhases (contents p.store).phases = .ok table := by
  refine (leads_read h (s := .loadPhases) rfl sound).bind (fun phases q reached => ?_) fun _ _ reached =>
    ⟨reached.1, nofun⟩
  have same := (reached.2 phases rfl).1
  subst same
  split
  · rename_i table built
    refine Call.leads_pure ⟨reached.1, fun table' same => ?_⟩
    rw [built]
    exact congrArg _ (Except.ok.inj same)
  · exact Call.leads_throw ⟨reached.1, nofun⟩

variable {p q : Plane (PlannedStore Backing)} {moment : Moment}

/-- Whatever the plan, the store answers with what the inner one holds. -/
theorem planned_faithful :
    Faithful (fun _ : PlannedStore Backing => True) fun s => s.inner.contents :=
  PlannedStore.faithful Backing.faithful

/-- The planes have the same kind of store. -/
def SameKind (p q : Plane (PlannedStore Backing)) : Prop := q.store.inner.rounds = p.store.inner.rounds

instance : IsPreorder (Plane (PlannedStore Backing)) SameKind where
  refl _ := rfl
  trans _ _ _ first rest := rest.trans first

theorem asks_sameKind : Call.Asks SameKind := fun p _ s _ => p.store.rounds_call s

theorem storedTable_sameKind : storedTable.Keeps moment SameKind :=
  (Call.ask_keeps asks_sameKind .loadPhases trivial).bind fun phases p => by
    split
    · exact Call.leads_pure rfl
    · exact Call.leads_throw rfl

/-- When a changed configuration is stored, its status is reported, and the published snapshot has the configuration
as the store gives it back, and the stored phases. -/
theorem restart_leads (config : WarmupConfig) (table : PhaseTable) (event : AuditEvent) :
    (restart config table event).Leads moment p fun answer q => ∀ status, answer = .ok status →
      status = config.status table moment.wall ∧ q.snapshot.config = p.store.inner.kept config ∧
        q.snapshot.phases = (PhaseTable.ofPhases p.store.inner.contents.phases).mapError .invalid := by
  have wrote : (ask (.saveConfig config)).Leads moment p fun answer q => ∀ a, answer = .ok a →
      q.store.inner.contents.phases = p.store.inner.contents.phases ∧
        ∀ read, q.store.inner.contents.config = some read → read = p.store.inner.kept config :=
    Call.leads_ask fun _ saved => PlannedStore.contents_saved ((Call.ask_ok _ p).mp saved)
  refine wrote.bind (fun _ q₁ saved => ?_) fun _ _ _ => nofun
  obtain ⟨phases, written⟩ := saved _ rfl
  refine (publish_leads planned_faithful trivial).bind (fun version q₂ published => ?_) fun _ _ _ => nofun
  obtain ⟨refreshed, same⟩ := published version rfl
  refine ((Call.idle_report event) moment q₂).bind (fun _ q₃ unchanged => ?_) fun _ _ _ => nofun
  subst unchanged
  refine Call.leads_wallNow_bind (Call.leads_pure fun status reported => ⟨(Except.ok.inj reported).symm, ?_, ?_⟩)
  · exact written _ (same ▸ refreshed.shows.config)
  · rw [refreshed.shows.phases, same, phases]

/-- Before that the stored table is read, and the store stays of its kind. -/
theorem restarting_leads (moment : Moment)
    (change : WarmupConfig → PhaseTable → Call (PlannedStore Backing) WarmupStatus)
    {Q : WarmupStatus → Plane (PlannedStore Backing) → Prop}
    (changed : ∀ config table q₁, q₁.store.inner.rounds = p.store.inner.rounds →
      PhaseTable.ofPhases q₁.store.inner.contents.phases = .ok table →
        (change config table).Leads moment q₁ fun answer q => ∀ status, answer = .ok status → Q status q) :
    (do
      let config ← loadOrSeed
      let table ← storedTable
      change config table : Call (PlannedStore Backing) WarmupStatus).Leads moment p fun answer q =>
        ∀ status, answer = .ok status → Q status q := by
  refine (Call.loadOrSeed_keeps asks_sameKind p).bind (fun config q₁ kind => ?_) fun _ _ _ _ => nofun
  intro effects
  have read := storedTable_leads planned_faithful (p := q₁) trivial moment
  have kind' : storedTable.Leads moment q₁ fun _ => SameKind q₁ := storedTable_sameKind q₁
  have both : storedTable.Leads moment q₁ fun answer q => SameKind q₁ q ∧ ∀ table, answer = .ok table →
      PhaseTable.ofPhases q.store.inner.contents.phases = .ok table := fun effects =>
    ⟨kind' effects, fun table ok => by rw [(read effects).1.contents]; exact (read effects).2 table ok⟩
  exact both.bind (fun table q₂ reached => changed config table q₂ (reached.1.trans kind) (reached.2 table rfl))
    (fun _ _ _ _ => nofun) effects

/-- What the published snapshot says at the moment. -/
theorem warmupStatus_run {table : PhaseTable} (usable : q.snapshot.table = .ok table) :
    warmupStatus.run moment q = (.ok (q.snapshot.config.status table moment.wall), q, .none) := by
  have asked : (warmupStatus : Call (PlannedStore Backing) WarmupStatus).run moment q =
      ((orMisconfigured q.snapshot.table >>= fun table => do
        pure (q.snapshot.config.status table (← wallNow))) :
          Call (PlannedStore Backing) WarmupStatus).run moment q := rfl
  rw [asked, usable]
  rfl

theorem kept_of_rounds {s t : Backing} (same : t.rounds = s.rounds) (config : WarmupConfig) :
    t.kept config = s.kept config := by
  rw [Backing.kept, Backing.kept, same]

theorem table_of_built {snapshot : Snapshot} {phases : List WarmupPhase} {table : PhaseTable}
    (published : snapshot.phases = (PhaseTable.ofPhases phases).mapError .invalid)
    (built : PhaseTable.ofPhases phases = .ok table) : snapshot.table = .ok table := by
  rw [Snapshot.table, published, built]
  rfl

/-- A jump reports the first day of the phase, and the snapshot is on it or on the day before. -/
theorem setPhase_reports {number : Nat} {status : WarmupStatus} {effects : Effects}
    (ran : (setPhase number).run moment p = (.ok status, q, effects)) :
    ∃ table published, q.snapshot.table = .ok table ∧ warmupStatus.run moment q = (.ok published, q, .none) ∧
      status.IsDay table number (table.daysBefore number) ∧ status.overrideActive = true ∧
      if 0 < number ∧ p.store.inner.Delays (moment.wall.subDays (table.daysBefore number)) then
        published.IsDay table (number - 1) (table.daysBefore number - 1)
      else published = status := by
  have leads := restarting_leads (p := p) moment
    (fun config table => do
      let now ← wallNow
      let jumped ← orInvalid (config.withPhase table number now)
      restart jumped table (.onPhase .phaseOverride "operator jumped to phase" number))
    (Q := fun status q => ∃ (config jumped : WarmupConfig) (table : PhaseTable),
      config.withPhase table number moment.wall = .ok jumped ∧ status = jumped.status table moment.wall ∧
        q.snapshot.config = p.store.inner.kept jumped ∧ q.snapshot.table = .ok table)
    fun config table q₁ kind built =>
      Call.leads_wallNow_bind (Call.leads_orInvalid_bind (fun jumped done =>
        (restart_leads jumped table _).mono fun answer q restarted status ok => by
          obtain ⟨same, stored, phases⟩ := restarted status ok
          exact ⟨config, jumped, table, done, same, stored.trans (kept_of_rounds kind jumped),
            table_of_built phases built⟩) fun _ _ _ => nofun)
  obtain ⟨config, jumped, table, done, rfl, stored, usable⟩ := leads.of_run ran status rfl
  obtain ⟨phase, found, chosen, aimed, kept⟩ := WarmupConfig.withPhase_ok done
  refine ⟨table, _, usable, warmupStatus_run usable, WarmupConfig.status_begins aimed found, chosen, ?_⟩
  rw [stored]
  by_cases delays : p.store.inner.Delays (moment.wall.subDays (table.daysBefore number))
  · obtain ⟨rounds, delayed⟩ := delays
    rw [Backing.kept, if_pos rounds]
    have late := kept.trans (moment.wall.daysSince_delayed delayed)
    cases number with
    | zero =>
      rw [if_neg fun both => Nat.lt_irrefl _ both.1]
      exact WarmupConfig.status_congr (late.trans (by rw [aimed, table.daysBefore_zero])) jumped.kept_isSome
    | succ before =>
      rw [if_pos ⟨Nat.succ_pos before, rounds, delayed⟩]
      exact WarmupConfig.status_precedes late found
  · rw [if_neg fun both => delays both.2]
    by_cases rounds : p.store.inner.rounds = true
    · have undelayed : ¬ (moment.wall.subDays (table.daysBefore number)).Delayed := fun d => delays ⟨rounds, d⟩
      rw [Backing.kept, if_pos rounds]
      exact WarmupConfig.status_congr ((kept.trans (moment.wall.daysSince_undelayed undelayed)).trans aimed.symm)
        jumped.kept_isSome
    · rw [Backing.kept, if_neg rounds]

/-- Starting over reports the first day of the first phase, and the snapshot is on it. -/
theorem resetWarmup_reports {status : WarmupStatus} {effects : Effects}
    (ran : resetWarmup.run moment p = (.ok status, q, effects)) :
    ∃ table, q.snapshot.table = .ok table ∧ status.IsDay table 0 0 ∧ status.overrideActive = false ∧
      warmupStatus.run moment q = (.ok status, q, .none) := by
  have leads := restarting_leads (p := p) moment
    (fun config table => do
      let now ← wallNow
      restart (config.restarted now) table (.onPhase .warmupReset "warmup restarted by operator" 0))
    (Q := fun status q => ∃ config table,
      status = (WarmupConfig.restarted config moment.wall).status table moment.wall ∧
      q.snapshot.config = p.store.inner.kept (config.restarted moment.wall) ∧ q.snapshot.table = .ok table)
    fun config table q₁ kind built => Call.leads_wallNow_bind ((restart_leads _ table _).mono
      fun answer q restarted status ok => by
        obtain ⟨same, stored, phases⟩ := restarted status ok
        exact ⟨config, table, same, stored.trans (kept_of_rounds kind _), table_of_built phases built⟩)
  obtain ⟨config, table, rfl, stored, usable⟩ := leads.of_run ran status rfl
  obtain ⟨phase, found⟩ := table.get?_zero
  have now : moment.wall.subDays 0 = moment.wall := by simp [Instant.subDays, Instant.addNanos]
  have fresh : moment.wall.daysSince moment.wall = 0 := by simp [Instant.daysSince]
  have elapsed : (config.restarted moment.wall).daysElapsed moment.wall = 0 := fresh
  have begins := WarmupConfig.status_begins (elapsed.trans table.daysBefore_zero.symm) found
  rw [table.daysBefore_zero] at begins
  refine ⟨table, usable, begins, rfl, ?_⟩
  rw [warmupStatus_run usable, stored]
  by_cases rounds : p.store.inner.rounds = true
  · have kept : (config.restarted moment.wall).kept.daysElapsed moment.wall = 0 := by
      show moment.wall.daysSince moment.wall.kept = 0
      by_cases delayed : (moment.wall.subDays 0).Delayed
      · simpa only [now] using moment.wall.daysSince_delayed delayed
      · simpa only [now] using moment.wall.daysSince_undelayed delayed
    rw [Backing.kept, if_pos rounds, WarmupConfig.status_congr (kept.trans elapsed.symm) (WarmupConfig.kept_isSome _)]
  · rw [Backing.kept, if_neg rounds]

/-- What a jump or a start over reports is what the published snapshot says at the same moment, on either store and
whatever calls fail: the first day of the chosen phase, or of the first one, before the warmup is over. The exception
is a jump past the first phase over a store in tables whose new activation lies before 1970 and is not a whole
millisecond: the snapshot is then on the last day of the phase before. -/
theorem reported_status_enforced (p : Plane (PlannedStore Backing)) (moment : Moment) :
    (∀ number status q effects, (setPhase number).run moment p = (.ok status, q, effects) →
      ∃ table published, q.snapshot.table = .ok table ∧ warmupStatus.run moment q = (.ok published, q, .none) ∧
        status.IsDay table number (table.daysBefore number) ∧ status.overrideActive = true ∧
        if 0 < number ∧ p.store.inner.Delays (moment.wall.subDays (table.daysBefore number)) then
          published.IsDay table (number - 1) (table.daysBefore number - 1)
        else published = status) ∧
    (∀ status q effects, resetWarmup.run moment p = (.ok status, q, effects) →
      ∃ table, q.snapshot.table = .ok table ∧ status.IsDay table 0 0 ∧ status.overrideActive = false ∧
        warmupStatus.run moment q = (.ok status, q, .none)) :=
  ⟨fun _ _ _ _ => setPhase_reports, fun _ _ _ => resetWarmup_reports⟩

/-! ### Sixty years of warmup -/

/-- Seven phases of ten years each. -/
def decades : PhaseTable :=
  ⟨(List.range 7).map fun number => ⟨number, "decade", 3650, ⟨100, 100, 10⟩⟩, by decide, by decide⟩

/-- Half a millisecond past half past nine, on 2 March 2026. -/
def morning : Moment := ⟨⟨1772443800000500000⟩, 0⟩

def decadesConfig : WarmupConfig := (WarmupConfig.fresh morning.wall).kept

def decadesTables : DurableStore :=
  { DurableStore.empty with
    config := some (.ofConfig decadesConfig)
    phases := decades.phases.map fun phase =>
      ⟨phase.number, .text phase.name, .integer phase.durationDays, .integer phase.limits.maxPerHour,
        .integer phase.limits.maxPerDay, .integer phase.limits.burst⟩ }

def decadesSettings : EngineSettings := { EngineSettings.standard with seedPhases := false, seedRules := false }

/-- The plane that is opened over the tables. -/
def decadesPlane : Plane (PlannedStore Backing) :=
  let fallback := DefaultTransport.standard
  { store := ⟨.durable decadesTables, []⟩
    snapshot := ⟨1, decadesConfig, .ok decades, ⟨[], [(fallback.name, fallback.limits)], fallback.name⟩, false⟩
    counters := .fresh morning.wall
    pool := (Pool.empty.configure fallback.name fallback.limits 0).1
    tallies := .zero
    settings := decadesSettings }

theorem launch_decades :
    Plane.launch ⟨Backing.durable decadesTables, []⟩ decadesSettings morning = .ok (decadesPlane, .none) := by
  have launched : Plane.launch ⟨Backing.durable decadesTables, []⟩ decadesSettings morning =
      .ok ({ decadesPlane with
        snapshot := { decadesPlane.snapshot with
          phases := (PhaseTable.ofPhases decades.phases).mapError .invalid } }, .none) := by
    with_unfolding_all rfl
  rw [PhaseTable.ofPhases_self (by decide)] at launched
  exact launched

theorem loadOrSeed_decades :
    loadOrSeed.exec morning ⟨decadesPlane, .none⟩ = (.ok decadesConfig, ⟨decadesPlane, .none⟩) := rfl

theorem storedTable_decades :
    storedTable.exec morning ⟨decadesPlane, .none⟩ = (.ok decades, ⟨decadesPlane, .none⟩) := by
  have read : (ask .loadPhases).exec morning ⟨decadesPlane, .none⟩ =
      (.ok decades.phases, ⟨decadesPlane, .none⟩) := rfl
  rw [storedTable, Call.exec_bind, read]
  dsimp only
  rw [PhaseTable.ofPhases_self (by decide)]
  rfl

/-- The table is sorted whenever it is read, which does not compute; what a call does with it then does. -/
theorem restarting_decades (change : WarmupConfig → PhaseTable → Call (PlannedStore Backing) WarmupStatus) :
    (do
      let config ← loadOrSeed
      let table ← storedTable
      change config table : Call (PlannedStore Backing) WarmupStatus).run morning decadesPlane =
      (change decadesConfig decades).run morning decadesPlane := by
  have same : (do
      let config ← loadOrSeed
      let table ← storedTable
      change config table : Call (PlannedStore Backing) WarmupStatus).exec morning ⟨decadesPlane, .none⟩ =
      (change decadesConfig decades).exec morning ⟨decadesPlane, .none⟩ := by
    rw [Call.exec_bind, loadOrSeed_decades]
    dsimp only
    rw [Call.exec_bind, storedTable_decades]
  exact congrArg (fun ended => (ended.1, ended.2.plane, ended.2.effects)) same

theorem published_decades {c : Call (PlannedStore Backing) WarmupStatus}
    (done : (c.run morning decadesPlane).1.toOption.isSome = true)
    (phases : (c.run morning decadesPlane).2.1.snapshot.phases =
      (PhaseTable.ofPhases decades.phases).mapError .invalid) :
    ∃ status q effects, c.run morning decadesPlane = (.ok status, q, effects) ∧ q.snapshot.table = .ok decades := by
  obtain ⟨status, done⟩ := Option.isSome_iff_exists.mp done
  exact ⟨status, _, _, Prod.ext (ok_of_toOption done) rfl,
    table_of_built phases (PhaseTable.ofPhases_self (by decide))⟩

/-- To a phase that begins after 1970 the snapshot follows, and so it does when the warmup is started again. -/
theorem reported_status_enforced_decade :
    (∃ status q effects, (setPhase 1).run morning decadesPlane = (.ok status, q, effects) ∧
      status.IsDay decades 1 3650 ∧ warmupStatus.run morning q = (.ok status, q, .none)) ∧
    ∃ status q effects, resetWarmup.run morning decadesPlane = (.ok status, q, effects) ∧
      status.IsDay decades 0 0 ∧ warmupStatus.run morning q = (.ok status, q, .none) := by
  obtain ⟨status, q, effects, jumped, usable⟩ := published_decades (c := setPhase 1)
    (by rw [setPhase, restarting_decades]; decide +kernel) (by rw [setPhase, restarting_decades]; rfl)
  obtain ⟨restarted, r, effects', began, usable'⟩ := published_decades (c := resetWarmup)
    (by rw [resetWarmup, restarting_decades]; decide +kernel) (by rw [resetWarmup, restarting_decades]; rfl)
  obtain ⟨jump, reset⟩ := reported_status_enforced decadesPlane morning
  constructor
  · obtain ⟨table, published, same, shown, day, -, enforced⟩ := jump _ _ _ _ jumped
    cases same.symm.trans usable
    rw [if_neg (by decide +kernel)] at enforced
    exact ⟨status, q, effects, jumped, day, enforced ▸ shown⟩
  · obtain ⟨table, same, day, -, shown⟩ := reset _ _ _ began
    cases same.symm.trans usable'
    exact ⟨restarted, r, effects', began, day, shown⟩

/-- The last phase begins in 1966. The operator is told of its first day, and the snapshot is on the last day of the
phase before. -/
theorem jump_falls_short :
    Plane.launch ⟨Backing.durable decadesTables, []⟩ decadesSettings morning = .ok (decadesPlane, .none) ∧
      ∃ status published q effects, (setPhase 6).run morning decadesPlane = (.ok status, q, effects) ∧
        status.IsDay decades 6 21900 ∧
        warmupStatus.run morning q = (.ok published, q, .none) ∧ published.IsDay decades 5 21899 := by
  refine ⟨launch_decades, ?_⟩
  obtain ⟨status, q, effects, jumped, usable⟩ := published_decades (c := setPhase 6)
    (by rw [setPhase, restarting_decades]; decide +kernel) (by rw [setPhase, restarting_decades]; rfl)
  obtain ⟨table, published, same, shown, day, -, short⟩ := setPhase_reports jumped
  cases same.symm.trans usable
  rw [if_pos (by decide +kernel)] at short
  exact ⟨status, published, q, effects, jumped, day, shown, short⟩

end RelayRamp.Plane
