import RelayRamp.Proofs.Warmup.Table

/-!
# Where the warmup stands

The phases of a table last one after another without a gap, so each day of the warmup belongs to one phase, and after
the last day the last phase stays. The status counts the whole days since the effective activation and tells of that
phase. As time goes on it never goes back.
-/
namespace RelayRamp.Time.Instant

variable {t later start : Instant}

/-- A number of days have passed when the instant is that many days after the start. -/
theorem le_daysSince_iff {days : Nat} (some : 0 < days) :
    days ≤ t.daysSince start ↔ start.addNanos (days * nanosPerDay) ≤ t := by
  change _ ↔ start.nanos + days * nanosPerDay ≤ t.nanos
  simp only [daysSince, nanosPerDay, nanosPerSecond]
  omega

theorem daysSince_mono (ordered : t ≤ later) : t.daysSince start ≤ later.daysSince start := by
  change t.nanos ≤ later.nanos at ordered
  simp only [daysSince, nanosPerDay, nanosPerSecond]
  omega

end RelayRamp.Time.Instant

namespace RelayRamp.Warmup

open RelayRamp.Time

namespace PhaseTable

/-- The day with this number, counted from zero, is one of the days of the phase. -/
def Runs (table : PhaseTable) (number day : Nat) : Prop :=
  ∃ phase, table.get? number = some phase ∧ table.daysBefore number ≤ day ∧
    day < table.daysBefore number + phase.durationDays

variable {table : PhaseTable} {number day later : Nat}

theorem Runs.position (runs : table.Runs number day) : table.position day = ⟨number, false⟩ := by
  obtain ⟨phase, found, begun, lasts⟩ := runs
  exact (active_within found begun lasts).1

/-- No day belongs to two phases. -/
theorem Runs.unique {other : Nat} (runs : table.Runs number day) (also : table.Runs other day) : other = number :=
  congrArg PhasePosition.index (also.position.symm.trans runs.position)

/-- Each day before the end of the table belongs to a phase. -/
theorem exists_runs (early : day < table.totalDays) : ∃ number, table.Runs number day := by
  obtain ⟨number, phase, found, begun, lasts⟩ := exists_within early
  rw [← daysBefore_eq] at begun lasts
  exact ⟨number, phase, found, begun, lasts⟩

/-- Phases follow one another. -/
theorem Runs.mono {number' : Nat} (runs : table.Runs number day) (next : table.Runs number' later)
    (ordered : day ≤ later) : number ≤ number' := by
  obtain ⟨phase, found, begun, -⟩ := runs
  obtain ⟨phase', found', -, lasts⟩ := next
  refine Nat.le_of_not_lt fun back => ?_
  -- The phase of the later day would be over before the phase of the earlier day begins.
  have ended : table.daysBefore (number' + 1) ≤ table.daysBefore number := daysBefore_mono back
  rw [daysBefore_succ found'] at ended
  omega

theorem position_mono (ordered : day ≤ later) : (table.position day).index ≤ (table.position later).index := by
  by_cases early : later < table.totalDays
  · obtain ⟨number, runs⟩ := table.exists_runs (Nat.lt_of_le_of_lt ordered early)
    obtain ⟨number', runs'⟩ := table.exists_runs early
    rw [runs.position, runs'.position]
    exact runs.mono runs' ordered
  · rw [(active_over (Nat.le_of_not_lt early)).1]
    exact Nat.le_sub_one_of_lt (table.position_lt day)

theorem established_iff : (table.position day).established = true ↔ table.totalDays ≤ day := by
  by_cases early : day < table.totalDays
  · obtain ⟨number, runs⟩ := table.exists_runs early
    rw [runs.position]
    simpa using early
  · have past := Nat.le_of_not_lt early
    simp [(active_over past).1, past]

end PhaseTable

/-- What a status says when so many whole days have passed. -/
structure WarmupStatus.Tells (status : WarmupStatus) (table : PhaseTable) (days : Nat) : Prop where
  elapsed : status.daysElapsed = days
  remaining : (status.daysRemaining : Int) = max ((table.totalDays : Int) - days) 0
  running : days < table.totalDays →
    status.isEstablished = false ∧ ∀ number, table.Runs number days ↔ number = status.currentPhase
  past : table.totalDays ≤ days → status.isEstablished = true ∧ status.currentPhase + 1 = table.phases.length
  phase : ∃ phase, table.get? status.currentPhase = some phase ∧ phase.number = status.currentPhase ∧
    status.phaseName = phase.name ∧ status.limits = phase.limits

/-- From one status to the other the warmup has not gone back. -/
structure WarmupStatus.Precedes (status later : WarmupStatus) : Prop where
  phase : status.currentPhase ≤ later.currentPhase
  elapsed : status.daysElapsed ≤ later.daysElapsed
  established : status.isEstablished = true → later.isEstablished = true
  remaining : later.daysRemaining ≤ status.daysRemaining

namespace WarmupConfig

variable (config : WarmupConfig) (table : PhaseTable) (now : Instant)

theorem status_currentPhase : (config.status table now).currentPhase = (table.position (config.daysElapsed now)).index :=
  PhaseTable.get?_number (table.get?_position _)

theorem status_tells : (config.status table now).Tells table (config.daysElapsed now) where
  elapsed := rfl
  remaining := by
    change ((table.totalDays - config.daysElapsed now : Nat) : Int) = _
    omega
  running early := by
    obtain ⟨number, runs⟩ := PhaseTable.exists_runs early
    have current : (config.status table now).currentPhase = number := by
      rw [status_currentPhase, runs.position]
    refine ⟨congrArg PhasePosition.established runs.position, fun other => ⟨fun also => ?_, ?_⟩⟩
    · exact (runs.unique also).trans current.symm
    · rintro rfl
      exact current ▸ runs
  past ended := by
    have last := (PhaseTable.active_over ended).1
    refine ⟨congrArg PhasePosition.established last, ?_⟩
    rw [status_currentPhase, last]
    exact Nat.sub_add_cancel (List.length_pos_iff.mpr table.nonempty)
  phase := by
    refine ⟨table.active (config.daysElapsed now), ?_, rfl, rfl, rfl⟩
    rw [status_currentPhase]
    exact table.get?_position _

theorem status_precedes_later {later : Instant} (ordered : now ≤ later) :
    (config.status table now).Precedes (config.status table later) := by
  have passed : config.daysElapsed now ≤ config.daysElapsed later := Instant.daysSince_mono ordered
  refine ⟨?_, passed, fun ended => ?_, Nat.sub_le_sub_left passed _⟩
  · rw [status_currentPhase, status_currentPhase]
    exact PhaseTable.position_mono passed
  · exact PhaseTable.established_iff.mpr (Nat.le_trans (PhaseTable.established_iff.mp ended) passed)

/-- The status tells of the phase that the whole days since the effective activation have come to, or of the last one
when they have come to the end of the table. The limits in force are those of the status, and time moves the warmup
forward only. -/
theorem phase_follows_days :
    (∀ days, 0 < days → (days ≤ (config.status table now).daysElapsed ↔
      config.effectiveActivation.instant.addNanos (days * nanosPerDay) ≤ now)) ∧
    (config.status table now).Tells table (config.daysElapsed now) ∧
    config.limits table now = (config.status table now).limits ∧
    ∀ later, now ≤ later → (config.status table now).Precedes (config.status table later) :=
  ⟨fun _ => Instant.le_daysSince_iff, config.status_tells table now, rfl,
    fun _ => config.status_precedes_later table now⟩

end WarmupConfig

/-- A nanosecond is missing to the end of the first phase, and then the table is over to the nanosecond. The effective
activation is half a second before 1970. -/
theorem phase_follows_days_boundary :
    let config : WarmupConfig :=
      { WarmupConfig.fresh ⟨0⟩ with phaseOverride := some ⟨0, ⟨⟨-500000000⟩, 0⟩, ⟨⟨-500000000⟩, 0⟩⟩ }
    let now : Instant := ⟨172799499999999⟩
    let later : Instant := ⟨259199500000000⟩
    (0 < 2 ∧ now ≤ later) ∧ (config.status threeDays now).daysElapsed < 2 ∧ 3 ≤ (config.status threeDays later).daysElapsed ∧
      (config.status threeDays now).currentPhase = 0 ∧ (config.status threeDays later).isEstablished = true ∧
      (config.status threeDays now).Precedes (config.status threeDays later) := by
  intro config now later
  obtain ⟨before, early, -, onward⟩ := config.phase_follows_days threeDays now
  obtain ⟨after, late, -⟩ := config.phase_follows_days threeDays later
  have short : ¬ 2 ≤ (config.status threeDays now).daysElapsed :=
    mt (before 2 (by decide)).mp (by decide)
  have ended : 3 ≤ (config.status threeDays later).daysElapsed := (after 3 (by decide)).mpr (by decide)
  have first : threeDays.Runs 0 (config.daysElapsed now) := ⟨_, rfl, by decide, by decide⟩
  exact ⟨⟨by decide, by decide⟩, Nat.lt_of_not_le short, ended,
    (((early.running (by decide)).2 0).mp first).symm, (late.past ended).1, onward later (by decide)⟩

end RelayRamp.Warmup
