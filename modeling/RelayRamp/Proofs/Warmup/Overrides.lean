import RelayRamp.Proofs.Warmup.Placement

/-!
# Jumping and starting over

A jump to a phase moves the effective activation back by the days before the phase. From then on the phases are walked
one after another, beginning with that phase; the activation itself stays. Starting over moves the activation to the
present. Either replaces whatever override there was, so after any chain of actions the last one decides the status.
-/
namespace RelayRamp.Time.Instant

/-- An instant and a later one, counted from a number of days before the first. -/
theorem daysSince_addNanos (t : Instant) (days : Nat) {passed : Int} (forward : 0 ≤ passed) :
    (t.addNanos passed).daysSince (t.subDays days) = days + (passed / nanosPerDay).toNat := by
  simp only [daysSince, subDays, addNanos, nanosPerDay, nanosPerSecond]
  omega

end RelayRamp.Time.Instant

namespace RelayRamp.Warmup

open RelayRamp.Time

namespace PhaseTable

variable {table : PhaseTable} {number days : Nat} {phase : WarmupPhase}

theorem daysBefore_add (table : PhaseTable) (number offset : Nat) :
    table.daysBefore (number + offset) = table.daysBefore number + daysOf ((table.phases.drop number).take offset) := by
  rw [daysBefore_eq, daysBefore_eq, List.take_add, daysOf_append]

/-- The days after the start of a phase are walked from that phase. -/
theorem active_reached (here : reached (table.phases.drop number) days = some phase) :
    table.position (table.daysBefore number + days) = ⟨phase.number, false⟩ ∧
      table.active (table.daysBefore number + days) = phase := by
  obtain ⟨offset, found, begun, lasts⟩ := reached_within here
  rw [List.getElem?_drop] at found
  have before := table.daysBefore_add number offset
  rw [get?_number (show table.get? (number + offset) = some phase from found)]
  exact active_within found (by omega) (by omega)

theorem active_walked (gone : reached (table.phases.drop number) days = none) :
    table.position (table.daysBefore number + days) = ⟨table.phases.length - 1, true⟩ ∧
      table.active (table.daysBefore number + days) = table.last := by
  have parts := congrArg daysOf (List.take_append_drop number table.phases)
  rw [daysOf_append, ← daysBefore_eq] at parts
  have past : table.totalDays ≤ table.daysBefore number + days := by
    rw [totalDays, ← parts]
    exact Nat.add_le_add_left (reached_over gone) _
  exact active_over past

end PhaseTable

/-- The status shows the phase, and whether the warmup is over. -/
structure WarmupStatus.Shows (status : WarmupStatus) (phase : WarmupPhase) (established : Bool) : Prop where
  current : status.currentPhase = phase.number
  name : status.phaseName = phase.name
  limits : status.limits = phase.limits
  established : status.isEstablished = established

namespace WarmupConfig

variable {config : WarmupConfig} {table : PhaseTable} {number : Nat} {phase : WarmupPhase} {now : Instant}

theorem status_shows {days : Nat} {established : Bool} (elapsed : config.daysElapsed now = days)
    (position : (table.position days).established = established) (active : table.active days = phase) :
    (config.status table now).Shows phase established := by
  subst elapsed active position
  exact ⟨rfl, rfl, rfl, rfl⟩

/-- The configuration after a jump to the phase. -/
def jumped (config : WarmupConfig) (table : PhaseTable) (number : Nat) (now : Instant) : WarmupConfig :=
  { config with phaseOverride := some ⟨number, (now.subDays (table.daysBefore number)).stamp, now.stamp⟩ }

theorem withPhase_found (found : table.get? number = some phase) (now : Instant) :
    config.withPhase table number now = .ok (config.jumped table number now) := by
  rw [withPhase, found]
  rfl

theorem withPhase_eq_ok {next : WarmupConfig} (done : config.withPhase table number now = .ok next) :
    next = config.jumped table number now ∧ ∃ phase, table.get? number = some phase := by
  cases found : table.get? number with
  | none =>
    rw [withPhase, found] at done
    cases done
  | some phase =>
    rw [withPhase_found found] at done
    exact ⟨(Except.ok.inj done).symm, phase, rfl⟩

/-- From the instant on, the status is what one comes to by walking the table from the start of the phase. -/
def WalksFrom (config : WarmupConfig) (table : PhaseTable) (number : Nat) (now : Instant) : Prop :=
  ∀ passed : Int, 0 ≤ passed →
    let here := PhaseTable.reached (table.phases.drop number) (passed / nanosPerDay).toNat
    (config.status table (now.addNanos passed)).Shows (here.getD table.last) here.isNone

theorem jumped_walksFrom (config : WarmupConfig) (table : PhaseTable) (number : Nat) (now : Instant) :
    (config.jumped table number now).WalksFrom table number now := by
  intro passed forward here
  have elapsed : (config.jumped table number now).daysElapsed (now.addNanos passed) =
      table.daysBefore number + (passed / nanosPerDay).toNat := now.daysSince_addNanos _ forward
  cases walked : here with
  | none =>
    obtain ⟨position, active⟩ := PhaseTable.active_walked walked
    exact status_shows elapsed (congrArg PhasePosition.established position) active
  | some phase =>
    obtain ⟨position, active⟩ := PhaseTable.active_reached walked
    exact status_shows elapsed (congrArg PhasePosition.established position) active

/-- While the phase lasts it is the one that is walked. -/
theorem reached_first (found : table.get? number = some phase) {passed : Int}
    (lasts : passed < phase.durationDays * nanosPerDay) :
    PhaseTable.reached (table.phases.drop number) (passed / nanosPerDay).toNat = some phase := by
  obtain ⟨within, here⟩ := List.getElem?_eq_some_iff.mp found
  have days : (passed / nanosPerDay).toNat < phase.durationDays := by
    have some := PhaseTable.get?_lasts found
    simp only [nanosPerDay, nanosPerSecond] at *
    omega
  rw [List.drop_eq_getElem_cons within, here, PhaseTable.reached, if_pos days]

theorem restarted_elapsed (config : WarmupConfig) (now : Instant) : (config.restarted now).daysElapsed now = 0 := by
  have none : now.daysSince now = 0 := by simp [Instant.daysSince]
  exact none

/-- Started over, the warmup is at the start of its first phase. -/
theorem restarted_first (config : WarmupConfig) (found : table.get? 0 = some phase) (now : Instant) :
    ((config.restarted now).status table now).Shows phase false := by
  have lasts := PhaseTable.get?_lasts found
  obtain ⟨position, active⟩ := PhaseTable.active_within found (show table.daysBefore 0 ≤ 0 by simp) (by simpa using lasts)
  exact status_shows (config.restarted_elapsed now) (congrArg PhasePosition.established position) active

end WarmupConfig

/-! ### Chains of actions -/

/-- What an operator does to the course of the warmup. -/
inductive Steering where
  | jump (number : Nat) (now : Instant)
  | restart (now : Instant)
  deriving DecidableEq, Repr

def Steering.apply (table : PhaseTable) (config : WarmupConfig) : Steering → Except ValidationFault WarmupConfig
  | jump number now => config.withPhase table number now
  | restart now => .ok (config.restarted now)

/-- The configuration after one action after another; none of them may fail. -/
def steer (table : PhaseTable) (config : WarmupConfig) : List Steering → Except ValidationFault WarmupConfig
  | [] => .ok config
  | action :: rest => do steer table (← action.apply table config) rest

def Steering.Jumps (action : Steering) : Prop := ∃ number now, action = .jump number now

namespace Steering

variable {table : PhaseTable} {config next last : WarmupConfig} {action : Steering} {actions : List Steering}

theorem apply_activation (jumps : action.Jumps)
    (done : action.apply table config = .ok next) : next.activation = config.activation := by
  obtain ⟨number, now, rfl⟩ := jumps
  obtain ⟨rfl, -⟩ := WarmupConfig.withPhase_eq_ok done
  rfl

theorem steer_cons (done : steer table config (action :: actions) = .ok last) :
    ∃ next, action.apply table config = .ok next ∧ steer table next actions = .ok last := by
  rw [steer] at done
  cases first : action.apply table config with
  | error fault =>
    rw [first] at done
    cases done
  | ok next =>
    rw [first] at done
    exact ⟨next, rfl, done⟩

theorem steer_activation (jumps : ∀ action ∈ actions, action.Jumps)
    (done : steer table config actions = .ok last) : last.activation = config.activation := by
  induction actions generalizing config with
  | nil =>
    cases done
    rfl
  | cons action rest ih =>
    obtain ⟨next, first, done⟩ := steer_cons done
    obtain ⟨here, later⟩ := List.forall_mem_cons.mp jumps
    exact (ih later done).trans (apply_activation here first)

/-- The effect of an action on the status does not depend on the configuration that it changes. -/
theorem apply_replaces (done : action.apply table last = .ok next) :
    ∃ alone, action.apply table config = .ok alone ∧ alone.phaseOverride = next.phaseOverride ∧
      ∀ t, next.status table t = alone.status table t := by
  cases action with
  | jump number now =>
    obtain ⟨rfl, phase, found⟩ := WarmupConfig.withPhase_eq_ok done
    exact ⟨config.jumped table number now, WarmupConfig.withPhase_found found now, rfl, fun _ => rfl⟩
  | restart now =>
    cases done
    exact ⟨config.restarted now, rfl, rfl, fun _ => rfl⟩

end Steering

/-- After a jump to a phase the warmup is in that phase for as long as it lasts, and then goes on through the table as
if it had come there by itself; the activation stays. Started over, it is in the first phase with no days elapsed. After
any chain of actions the next one has the effect that it would have had without them. -/
theorem override_advances (table : PhaseTable) (config : WarmupConfig) :
    (∀ number phase (now : Stamp), table.get? number = some phase →
      ∃ jumped, config.withPhase table number now.instant = .ok jumped ∧ jumped.activation = config.activation ∧
        (∀ passed : Int, 0 ≤ passed → passed < phase.durationDays * nanosPerDay →
          (jumped.status table (now.instant.addNanos passed)).Shows phase false) ∧
        jumped.WalksFrom table number now.instant) ∧
    (∀ now : Stamp, ∃ first, table.get? 0 = some first ∧
      ((config.restarted now.instant).status table now.instant).Shows first false ∧
      ((config.restarted now.instant).status table now.instant).daysElapsed = 0) ∧
    ∀ (actions : List Steering) (last : WarmupConfig), steer table config actions = .ok last →
      ((∀ action ∈ actions, action.Jumps) → last.activation = config.activation) ∧
      ∀ (action : Steering) (next : WarmupConfig), action.apply table last = .ok next →
        ∃ alone, action.apply table config = .ok alone ∧ alone.phaseOverride = next.phaseOverride ∧
          ∀ t, next.status table t = alone.status table t := by
  refine ⟨fun number phase now found => ?_, fun now => ?_, fun actions last done => ⟨fun jumps => ?_, ?_⟩⟩
  · refine ⟨_, WarmupConfig.withPhase_found found now.instant, rfl, fun passed forward lasts => ?_,
      config.jumped_walksFrom table number now.instant⟩
    have walks := config.jumped_walksFrom table number now.instant passed forward
    rw [WarmupConfig.reached_first found lasts] at walks
    exact walks
  · obtain ⟨first, found⟩ := table.get?_zero
    exact ⟨first, found, config.restarted_first found now.instant, config.restarted_elapsed now.instant⟩
  · exact Steering.steer_activation jumps done
  · exact fun action next => Steering.apply_replaces

/-- A jump to the last phase replaces an earlier override. The phase lasts to the nanosecond, and then the warmup is over;
a jump back after starting over begins as if nothing had been before. -/
theorem override_advances_chain :
    let config : WarmupConfig := { WarmupConfig.fresh ⟨0⟩ with phaseOverride := some ⟨0, ⟨⟨-1⟩, 60⟩, ⟨⟨-1⟩, 60⟩⟩ }
    let more : WarmupPhase := ⟨1, "more", 1, ⟨100, 200, 50⟩⟩
    let now : Stamp := ⟨⟨1000000000000001⟩, 330⟩
    let actions : List Steering := [.jump 1 ⟨5⟩, .jump 0 ⟨7⟩, .jump 1 ⟨9⟩]
    threeDays.get? 1 = some more ∧
      (∃ jumped, config.withPhase threeDays 1 now.instant = .ok jumped ∧
        (jumped.status threeDays (now.instant.addNanos 86399999999999)).Shows more false ∧
        (jumped.status threeDays (now.instant.addNanos 86400000000000)).Shows threeDays.last true) ∧
      ∃ last alone, steer threeDays config actions = .ok last ∧ last.activation = config.activation ∧
        config.withPhase threeDays 0 now.instant = .ok alone ∧
        ∀ next, last.withPhase threeDays 0 now.instant = .ok next →
          next.status threeDays now.instant = alone.status threeDays now.instant := by
  intro config more now actions
  obtain ⟨jump, -, chain⟩ := override_advances threeDays config
  obtain ⟨jumped, done, -, within, walks⟩ := jump 1 more now rfl
  have past := walks 86400000000000 (by decide)
  obtain ⟨kept, replaced⟩ := chain actions _ rfl
  refine ⟨rfl, ⟨jumped, done, within _ (by decide) (by decide), past⟩, _, _, rfl, kept fun action member => ?_, rfl, ?_⟩
  · simp only [actions, List.mem_cons, List.not_mem_nil, or_false] at member
    rcases member with rfl | rfl | rfl
    all_goals exact ⟨_, _, rfl⟩
  · intro next again
    obtain ⟨alone, same, -, equal⟩ := replaced (.jump 0 now.instant) next again
    cases same
    exact equal now.instant

end RelayRamp.Warmup
