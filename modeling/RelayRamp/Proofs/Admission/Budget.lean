import RelayRamp.Proofs.Admission.Persistence

/-!
# What the batch budget promises

The budget subtracts the counts from the limits and takes the least of what is left; an admission adds its amount to the
counts and compares the sums with the limits. Both draw the line at the same batch size. They do so in words of 64 bits
too, where the differences are cut off at zero and the sums may overflow.

The budget reads the configuration alone. Whether the store can be read, and what then happens to admissions, does
not enter it: it is in step with the fail-safe except when the store is down and the fail-safe holds every attempt.
-/
namespace RelayRamp.Admission

open RelayRamp.Lease RelayRamp.Plane RelayRamp.Routing RelayRamp.Store RelayRamp.Time RelayRamp.Warmup

/-- The attempt is over its volume: a window or the burst limit has no room for it. -/
def HoldReason.isVolume : HoldReason → Bool
  | capacityExceeded .. | burstExceeded .. => true
  | leaseTimeout _ | failSafe => false

/-- Why an attempt is held. -/
def Attempt.hold? : Attempt → Option HoldReason
  | .decided ⟨.held reason, _⟩ => some reason
  | _ => none

/-- The attempt is held because there is no room for it. -/
def Attempt.HeldForVolume (a : Attempt) : Prop := ∃ reason, a.hold? = some reason ∧ reason.isVolume = true

/-! ### The windows -/

namespace Counters

variable {c : Counters} {limits : PhaseLimits} {amount : Nat} {now : Instant} {reason : HoldReason}

theorem within_ok {kind : WindowKind} {current limit next : Nat}
    (fits : within kind current amount limit = .ok next) : current + amount ≤ limit := by
  unfold within at fits
  split at fits
  · assumption
  · cases fits

theorem within_error {kind : WindowKind} {current limit : Nat}
    (refused : within kind current amount limit = .error reason) :
    limit < current + amount ∧ reason = .capacityExceeded kind current amount limit := by
  unfold within at refused
  split at refused
  · cases refused
  · rename_i full
    cases refused
    exact ⟨Nat.lt_of_not_le full, rfl⟩

/-- A check passes just when the amount fits the windows of its instant; else it names a window. -/
theorem check_cases (c : Counters) (limits : PhaseLimits) (amount : Nat) (now : Instant) :
    ((c.rolled now).Fits amount limits ∧ c.check limits amount now = .ok (c.reading now)) ∨
      ¬ (c.rolled now).Fits amount limits ∧
        ∃ reason, reason.isVolume = true ∧ c.check limits amount now = .error reason := by
  have hour : (c.reading now).hour = (c.rolled now).hour.count := Window.observed_eq ..
  have day : (c.reading now).day = (c.rolled now).day.count := Window.observed_eq ..
  simp only [check, hour, day]
  cases checked : within .hour (c.rolled now).hour.count amount limits.maxPerHour with
  | error reason =>
    obtain ⟨exceeds, rfl⟩ := within_error checked
    exact Or.inr ⟨fun fits => Nat.not_lt.mpr fits.hour exceeds, _, rfl, rfl⟩
  | ok seen =>
    cases checked' : within .day (c.rolled now).day.count amount limits.maxPerDay with
    | error reason =>
      obtain ⟨exceeds, rfl⟩ := within_error checked'
      exact Or.inr ⟨fun fits => Nat.not_lt.mpr fits.day exceeds, _, rfl, rfl⟩
    | ok seen' => exact Or.inl ⟨⟨within_ok checked, within_ok checked'⟩, rfl⟩

theorem check_ok_iff : (∃ seen, c.check limits amount now = .ok seen) ↔ (c.rolled now).Fits amount limits := by
  rcases c.check_cases limits amount now with ⟨fits, passed⟩ | ⟨full, reason, -, refused⟩
  · exact ⟨fun _ => fits, fun _ => ⟨_, passed⟩⟩
  · refine ⟨fun ⟨seen, passed⟩ => ?_, fun fits => absurd fits full⟩
    rw [refused] at passed
    cases passed

theorem check_error (refused : c.check limits amount now = .error reason) :
    ¬ (c.rolled now).Fits amount limits ∧ reason.isVolume = true := by
  rcases c.check_cases limits amount now with ⟨-, passed⟩ | ⟨full, reason', volume, refused'⟩
  · rw [passed] at refused
    cases refused
  · rw [refused'] at refused
    cases refused
    exact ⟨full, volume⟩

/-- A commit fails for the reason for which a check at its instant would. -/
theorem check_of_commit {next : Counters} (refused : c.commit limits amount now = (next, .error reason)) :
    c.check limits amount now = .error reason := by
  have hour : (c.reading now).hour = (c.rolled now).hour.count := Window.observed_eq ..
  have day : (c.reading now).day = (c.rolled now).day.count := Window.observed_eq ..
  simp only [commit] at refused
  simp only [check, hour, day]
  cases checked : within .hour (c.rolled now).hour.count amount limits.maxPerHour with
  | error reason =>
    simp only [checked] at refused
    cases refused
    rfl
  | ok seen =>
    cases checked' : within .day (c.rolled now).day.count amount limits.maxPerDay with
    | error reason =>
      simp only [checked, checked'] at refused
      cases refused
      rfl
    | ok seen' =>
      simp only [checked, checked'] at refused
      cases refused

end Counters

/-! ### Words of 64 bits -/

/-- The sum of two words, unless it overflows. -/
def checkedSum (a b : UInt64) : Option UInt64 := if a.toNat + b.toNat < Width.long then some (a + b) else none

/-- What is left of a limit, cut off at zero. -/
def wordsLeft (limit count : UInt64) : UInt64 := if count ≤ limit then limit - count else 0

/-- The checked sum stays within the limit. -/
def fitsWord (count amount limit : UInt64) : Bool := (checkedSum count amount).any (· ≤ limit)

theorem toNat_wordsLeft (limit count : UInt64) : (wordsLeft limit count).toNat = limit.toNat - count.toNat := by
  unfold wordsLeft
  split
  · exact UInt64.toNat_sub_of_le _ _ ‹_›
  · rename_i exceeds
    rw [UInt64.le_iff_toNat_le] at exceeds
    exact (Nat.sub_eq_zero_of_le (Nat.le_of_lt (Nat.lt_of_not_le exceeds))).symm

theorem toNat_min (a b : UInt64) : (min a b).toNat = min a.toNat b.toNat := by
  have least : min a b = if a ≤ b then a else b := rfl
  by_cases le : a ≤ b
  · rw [least, if_pos le, Nat.min_eq_left (UInt64.le_iff_toNat_le.mp le)]
  · have ge : b ≤ a := (UInt64.le_total a b).resolve_left le
    rw [least, if_neg le, Nat.min_eq_right (UInt64.le_iff_toNat_le.mp ge)]

theorem fitsWord_iff (count amount limit : UInt64) :
    fitsWord count amount limit = true ↔ count.toNat + amount.toNat ≤ limit.toNat := by
  have bound : limit.toNat < Width.long := limit.toNat_lt
  unfold fitsWord checkedSum
  split
  · rename_i small
    rw [Option.any_some, decide_eq_true_iff, UInt64.le_iff_toNat_le, UInt64.toNat_add, Nat.mod_eq_of_lt small]
  · rename_i large
    exact ⟨nofun, fun le => absurd (Nat.lt_of_le_of_lt le bound) large⟩

/-- The numbers that an admission is measured by, in words. -/
structure VolumeWords where
  hour : UInt64
  day : UInt64
  maxPerHour : UInt64
  maxPerDay : UInt64
  burst : UInt64

namespace VolumeWords

def reading (w : VolumeWords) : CounterReading := ⟨w.hour.toNat, w.day.toNat⟩

def limits (w : VolumeWords) : PhaseLimits := ⟨w.maxPerHour.toNat, w.maxPerDay.toNat, w.burst.toNat⟩

/-- The batch size of the budget. -/
def batchSize (w : VolumeWords) : UInt64 :=
  min (min (wordsLeft w.maxPerHour w.hour) (wordsLeft w.maxPerDay w.day)) w.burst

/-- The checks of an admission. -/
def admits (w : VolumeWords) (amount : UInt64) : Bool :=
  fitsWord w.hour amount w.maxPerHour && fitsWord w.day amount w.maxPerDay && amount ≤ w.burst

theorem toNat_batchSize (w : VolumeWords) :
    w.batchSize.toNat = min (min (w.limits.maxPerHour - w.reading.hour) (w.limits.maxPerDay - w.reading.day))
      w.limits.burst := by
  simp only [batchSize, toNat_min, toNat_wordsLeft, limits, reading]

/-- The differences and the sums draw the line at the same amount, however large the words are. -/
theorem le_batchSize_iff (w : VolumeWords) {amount : UInt64} (some : 1 ≤ amount) :
    amount ≤ w.batchSize ↔ w.admits amount = true := by
  have some : 1 ≤ amount.toNat := UInt64.le_iff_toNat_le.mp some
  rw [UInt64.le_iff_toNat_le, toNat_batchSize]
  simp only [admits, limits, reading, Bool.and_eq_true, fitsWord_iff, decide_eq_true_iff, UInt64.le_iff_toNat_le]
  omega

end VolumeWords

namespace Attempt

variable {σ : Type} {p : Plane σ} {request : AdmissionRequest} {moment : Moment}

/-- From the lease on an attempt is held for want of a lease, or because its commit has found no room. -/
theorem proceed_held {course : Course} {acquisition : Acquisition} {reason : HoldReason}
    (held : (proceed p course acquisition moment).2.2.hold? = some reason) :
    reason = .leaseTimeout course.route.transport ∨
      ¬ (p.counters.rolled moment.wall).Fits course.amount (course.config.limits course.table moment.wall) ∧
        reason.isVolume = true := by
  rcases resumed : acquisition.resume p.pool moment.tick with ⟨pool, effects, next⟩
  simp only [proceed, resumed] at held
  cases next with
  | granted ticket instant =>
    rcases committed : p.counters.commit (course.config.limits course.table moment.wall) course.amount moment.wall with
      ⟨counters, reading | refusal⟩
    · simp only [commit, committed] at held
      cases held
      exact Or.inr (Counters.check_error (Counters.check_of_commit committed))
    · simp only [commit, committed] at held
      cases held
  | failed fault =>
    cases fault with
    | timedOut name =>
      cases held
      exact Or.inl rfl
    | unknownTransport name => cases held
  | _ => cases held

/-- An attempt is held by the fail-safe just when the store is down and the fail-safe closed. -/
theorem begin_failSafe_iff :
    (begin p request moment).2.2.hold? = some .failSafe ↔
      p.snapshot.degraded = true ∧ p.settings.failSafe = .closed := by
  have way := screened p request moment
  constructor
  · intro held
    generalize begin p request moment = result at way held
    cases way with
    | failSafe degraded closed => exact ⟨degraded, closed⟩
    | full _ _ _ _ refused =>
      cases held
      cases (Counters.check_error refused).2
    | passed =>
      rcases proceed_held held with impossible | ⟨-, impossible⟩
      · cases impossible
      · cases impossible
    | _ => cases held
  · rintro ⟨degraded, closed⟩
    simp only [begin, degraded, closed, if_true]
    rfl

/-- With throttling off, and no fail-safe in the way, every request is admitted by bypass. -/
theorem begin_bypassed (off : p.snapshot.config.enabled = false)
    (flowing : ¬ (p.snapshot.degraded = true ∧ p.settings.failSafe = .closed)) :
    (begin p request moment).2.2 = .decided ⟨.admitted none none none (p.counters.reading moment.wall), none⟩ := by
  have way := screened p request moment
  generalize begin p request moment = result at way
  cases way with
  | failSafe degraded closed => exact absurd ⟨degraded, closed⟩ flowing
  | flowing | off => rfl
  | empty _ enabled | unroutable _ enabled | unusable _ enabled | full _ enabled | overBurst _ enabled
  | passed _ _ enabled =>
    rw [off] at enabled
    cases enabled

/-- With throttling on, a request is held for its volume just when it can be routed and there is no room for it. -/
theorem begin_heldForVolume_iff {table : PhaseTable} (refreshed : p.snapshot.degraded = false)
    (enabled : p.snapshot.config.enabled = true) (usable : p.snapshot.table = .ok table)
    (some : 1 ≤ request.batchSize) :
    (begin p request moment).2.2.HeldForVolume ↔
      (∃ route, request.route p.snapshot.matcher = .ok route) ∧
        ¬ ((p.counters.rolled moment.wall).Fits request.batchSize (p.snapshot.config.limits table moment.wall) ∧
          request.batchSize ≤ (p.snapshot.config.limits table moment.wall).burst) := by
  have way := screened p request moment
  generalize begin p request moment = result at way
  cases way with
  | failSafe degraded | flowing degraded =>
    rw [refreshed] at degraded
    cases degraded
  | off _ off =>
    rw [enabled] at off
    cases off
  | empty _ _ empty => exact absurd some (empty ▸ Nat.not_succ_le_zero 0)
  | unroutable _ _ unroutable =>
    constructor
    · rintro ⟨_, held, -⟩
      cases held
    · rintro ⟨⟨route, routed⟩, -⟩
      rw [unroutable] at routed
      cases routed
  | unusable _ _ _ unusable =>
    rw [usable] at unusable
    cases unusable
  | full _ _ routed usable' refused =>
    obtain rfl := Except.ok.inj (usable.symm.trans usable')
    obtain ⟨full, volume⟩ := Counters.check_error refused
    exact ⟨fun _ => ⟨⟨_, routed⟩, fun room => full room.1⟩, fun _ => ⟨_, rfl, volume⟩⟩
  | overBurst _ _ routed usable' large =>
    obtain rfl := Except.ok.inj (usable.symm.trans usable')
    exact ⟨fun _ => ⟨⟨_, routed⟩, fun room => Nat.not_le.mpr large room.2⟩, fun _ => ⟨_, rfl, rfl⟩⟩
  | passed _ _ _ _ usable' room small =>
    obtain rfl := Except.ok.inj (usable.symm.trans usable')
    have fits := Counters.check_ok_iff.mp ⟨_, room⟩
    refine ⟨fun ⟨reason, held, volume⟩ => ?_, fun full => absurd ⟨fits, small⟩ full.2⟩
    rcases proceed_held held with rfl | ⟨full, -⟩
    · cases volume
    · exact absurd fits full

end Attempt

/-! ### The budget -/

/-- The least of what is left and of the burst limit is the largest batch that there is room for. -/
theorem Counters.le_room_iff (c : Counters) (limits : PhaseLimits) (now : Instant) {amount : Nat} (some : 1 ≤ amount) :
    amount ≤ min (min (limits.maxPerHour - (c.reading now).hour) (limits.maxPerDay - (c.reading now).day))
        limits.burst ↔
      (c.rolled now).Fits amount limits ∧ amount ≤ limits.burst := by
  have hour : (c.reading now).hour = (c.rolled now).hour.count := Window.observed_eq ..
  have day : (c.reading now).day = (c.rolled now).day.count := Window.observed_eq ..
  have fits : (c.rolled now).Fits amount limits ↔
      (c.reading now).hour + amount ≤ limits.maxPerHour ∧ (c.reading now).day + amount ≤ limits.maxPerDay := by
    rw [hour, day]
    exact ⟨fun fits => ⟨fits.hour, fits.day⟩, fun ⟨hour, day⟩ => ⟨hour, day⟩⟩
  rw [fits]
  -- An amount of zero would be within the least of what is left even with a window overfull.
  omega

section

variable {σ : Type} {p : Plane σ} {table : PhaseTable}

/-- With throttling on and a usable phase table the budget is bounded, whether or not the store can be read. -/
theorem batchBudget_throttled (enabled : p.snapshot.config.enabled = true) (usable : p.snapshot.table = .ok table)
    (now : Instant) :
    let limits := p.snapshot.config.limits table now
    let seen := p.counters.reading now
    ∃ budget, p.batchBudget now = .ok budget ∧ budget.releaseAll = false ∧
      budget.batchSize = min (min (limits.maxPerHour - seen.hour) (limits.maxPerDay - seen.day)) limits.burst := by
  simp only [Plane.batchBudget, enabled, usable]
  exact ⟨_, rfl, rfl, rfl⟩

/-- The budget is exact. With throttling on, a usable phase table and a store that can be read there is one, and a
batch is within it just when it passes the windows and the burst limit at the same instant: a request that can be
routed is held for its volume just when its batch is larger. Nothing is assumed of the counts and the limits; when they
are words of 64 bits the budget and the checks come out the same in words. -/
theorem budget_exact (refreshed : p.snapshot.degraded = false) (enabled : p.snapshot.config.enabled = true)
    (usable : p.snapshot.table = .ok table) (moment : Moment) :
    let limits := p.snapshot.config.limits table moment.wall
    ∃ budget, p.batchBudget moment.wall = .ok budget ∧
      (∀ amount, 1 ≤ amount → (amount ≤ budget.batchSize ↔
        (∃ seen, p.counters.check limits amount moment.wall = .ok seen) ∧ amount ≤ limits.burst)) ∧
      (∀ request : AdmissionRequest, 1 ≤ request.batchSize →
        ((Attempt.begin p request moment).2.2.HeldForVolume ↔
          (∃ route, request.route p.snapshot.matcher = .ok route) ∧ budget.batchSize < request.batchSize)) ∧
      ∀ w : VolumeWords, w.reading = p.counters.reading moment.wall → w.limits = limits →
        w.batchSize.toNat = budget.batchSize ∧
        ∀ amount : UInt64, 1 ≤ amount → (amount ≤ w.batchSize ↔ w.admits amount = true) := by
  intro limits
  obtain ⟨budget, found, -, size⟩ := batchBudget_throttled enabled usable moment.wall
  have line {amount : Nat} (some : 1 ≤ amount) : amount ≤ budget.batchSize ↔
      (p.counters.rolled moment.wall).Fits amount limits ∧ amount ≤ limits.burst := by
    rw [size]
    exact p.counters.le_room_iff limits moment.wall some
  refine ⟨budget, found, fun amount some => ?_, fun request some => ?_,
    fun w reading same => ⟨?_, fun amount some => w.le_batchSize_iff some⟩⟩
  · rw [Counters.check_ok_iff]
    exact line some
  · rw [Attempt.begin_heldForVolume_iff refreshed enabled usable some, ← line some, Nat.not_le]
  · rw [w.toNat_batchSize, reading, same, size]

/-- Seven items were sent under a limit of twenty; then the limit is lowered to five. -/
theorem budget_exact_lowered :
    let empty : PlannedStore Backing := ⟨.memory .empty, []⟩
    let lowered : Moment × Act := (⟨⟨5⟩, 5⟩, .command (.replacePhases [⟨0, "start", 7, ⟨5, 50, 10⟩⟩]))
    let request : AdmissionRequest := .single "someone@example.org"
    ∃ p effects, Plane.launch empty Service.bare ⟨⟨0⟩, 0⟩ = .ok (p, effects) ∧
      let q := ((Service.opened p).run (Service.firstHour ++ [lowered])).plane
      q.snapshot.degraded = false ∧ q.snapshot.config.enabled = true ∧ (q.counters.reading ⟨6⟩).hour = 7 ∧
      (∃ table, q.snapshot.table = .ok table ∧ (q.snapshot.config.limits table ⟨6⟩).maxPerHour = 5) ∧
      ∃ budget, q.batchBudget ⟨6⟩ = .ok budget ∧ budget.batchSize = 0 ∧
        (Attempt.begin q request ⟨⟨6⟩, 6⟩).2.2.HeldForVolume := by
  intro empty lowered request
  have runs : (Plane.launch empty Service.bare ⟨⟨0⟩, 0⟩).toOption.map (fun first =>
      let q := ((Service.opened first.1).run (Service.firstHour ++ [lowered])).plane
      (q.snapshot.degraded, q.snapshot.config.enabled, (q.counters.reading ⟨6⟩).hour,
        q.snapshot.table.toOption.map fun table => (q.snapshot.config.limits table ⟨6⟩).maxPerHour,
        (q.batchBudget ⟨6⟩).toOption.map (·.batchSize), (request.route q.snapshot.matcher).toOption.isSome)) =
      some (false, true, 7, some 5, some 0, true) := by
    decide +kernel
  obtain ⟨⟨p, effects⟩, launched, runs⟩ := Option.map_eq_some_iff.mp runs
  simp only [Prod.mk.injEq] at runs
  obtain ⟨refreshed, enabled, sent, usable, size, routed⟩ := runs
  obtain ⟨table, usable, limit⟩ := Option.map_eq_some_iff.mp usable
  obtain ⟨route, routed⟩ := Option.isSome_iff_exists.mp routed
  have usable := ok_of_toOption usable
  obtain ⟨budget, found, -, held, -⟩ := budget_exact refreshed enabled usable ⟨⟨6⟩, 6⟩
  rw [found] at size
  have size : budget.batchSize = 0 := Option.some.inj size
  refine ⟨p, effects, ok_of_toOption launched, refreshed, enabled, sent, ⟨table, usable, limit⟩, budget, found, size, ?_⟩
  exact (held request (Nat.le_refl 1)).mpr ⟨⟨route, ok_of_toOption routed⟩, size ▸ Nat.one_pos⟩

end

/-! ### The fail-safe -/

section

variable {σ : Type} {p : Plane σ} {now : Instant}

theorem batchBudget_unthrottled (off : p.snapshot.config.enabled = false) (now : Instant) :
    ∃ budget, p.batchBudget now = .ok budget ∧ budget.releaseAll = true := by
  simp only [Plane.batchBudget, off]
  exact ⟨_, rfl, rfl⟩

/-- The budget releases everything just when throttling is switched off. -/
theorem releaseAll_iff {budget : BatchBudget} (found : p.batchBudget now = .ok budget) :
    budget.releaseAll = true ↔ p.snapshot.config.enabled = false := by
  cases enabled : p.snapshot.config.enabled with
  | false =>
    obtain ⟨budget', found', all⟩ := batchBudget_unthrottled enabled now
    rw [found] at found'
    cases found'
    exact ⟨fun _ => rfl, fun _ => all⟩
  | true =>
    cases usable : p.snapshot.table with
    | error fault =>
      simp only [Plane.batchBudget, enabled, usable] at found
      cases found
    | ok table =>
      obtain ⟨budget', found', bounded, -⟩ := batchBudget_throttled enabled usable now
      rw [found] at found'
      cases found'
      rw [bounded]
      exact ⟨nofun, nofun⟩

/-- A budget lets held items go. -/
def Authorizes (budget : BatchBudget) : Prop := budget.releaseAll = true ∨ 0 < budget.batchSize

/-- Something may go just when throttling is off or there is room for one item more. -/
theorem authorizes_iff :
    (∃ budget, p.batchBudget now = .ok budget ∧ Authorizes budget) ↔
      p.snapshot.config.enabled = false ∨
        ∃ table, p.snapshot.table = .ok table ∧ (p.counters.rolled now).Fits 1 (p.snapshot.config.limits table now) ∧
          1 ≤ (p.snapshot.config.limits table now).burst := by
  cases enabled : p.snapshot.config.enabled with
  | false =>
    obtain ⟨budget, found, all⟩ := batchBudget_unthrottled enabled now
    exact ⟨fun _ => Or.inl rfl, fun _ => ⟨budget, found, Or.inl all⟩⟩
  | true =>
    cases usable : p.snapshot.table with
    | error fault =>
      simp only [Plane.batchBudget, enabled, usable]
      constructor
      · rintro ⟨budget, found, -⟩
        cases found
      · rintro (impossible | ⟨table, impossible, -⟩)
        · cases impossible
        · cases impossible
    | ok table =>
      obtain ⟨budget, found, bounded, size⟩ := batchBudget_throttled enabled usable now
      have room := p.counters.le_room_iff (p.snapshot.config.limits table now) now (Nat.le_refl 1)
      rw [← size] at room
      constructor
      · rintro ⟨budget', found', authorizes⟩
        rw [found] at found'
        cases found'
        refine Or.inr ⟨table, rfl, room.mp (authorizes.resolve_left ?_)⟩
        rw [bounded]
        exact nofun
      · rintro (impossible | ⟨table', same, fits⟩)
        · cases impossible
        · cases same
          exact ⟨budget, found, Or.inr (room.mpr fits)⟩

variable [ThrottleStore σ] {store : σ} {settings : EngineSettings} {opening : Moment} {effects : Effects}

/-- The budget and the fail-safe, in every state of a service and at every moment. An attempt is held by the fail-safe
just when the store is down and the fail-safe closed. Otherwise a budget that releases everything means that every
attempt is admitted by bypass. But the budget does not ask whether attempts are held: it lets items go just when
throttling is off or there is room for one. -/
theorem budget_beside_fail_safe (launched : Plane.launch store settings opening = .ok (p, effects))
    (acts : List (Moment × Act)) (moment : Moment) :
    let q := ((Service.opened p).run acts).plane
    let closed := q.snapshot.degraded = true ∧ settings.failSafe = .closed
    (∀ request, (Attempt.begin q request moment).2.2.hold? = some .failSafe ↔ closed) ∧
    (¬ closed → ∀ budget, q.batchBudget moment.wall = .ok budget → budget.releaseAll = true →
      ∀ request, (Attempt.begin q request moment).2.2 =
        .decided ⟨.admitted none none none (q.counters.reading moment.wall), none⟩) ∧
    ((∃ budget, q.batchBudget moment.wall = .ok budget ∧ Authorizes budget) ↔
      q.snapshot.config.enabled = false ∨
        ∃ table, q.snapshot.table = .ok table ∧
          (q.counters.rolled moment.wall).Fits 1 (q.snapshot.config.limits table moment.wall) ∧
          1 ≤ (q.snapshot.config.limits table moment.wall).burst) := by
  intro q closed
  have kept : q.settings = settings := Service.served_settings launched acts
  refine ⟨fun request => ?_, fun flowing budget found all request => ?_, authorizes_iff⟩
  · rw [Attempt.begin_failSafe_iff, kept]
  · exact Attempt.begin_bypassed ((releaseAll_iff found).mp all) (kept.symm ▸ flowing)

/-- A closed service whose first reading of the store failed recovers: the budget that releases everything is met. -/
theorem budget_beside_fail_safe_recovered :
    let store : PlannedStore Backing := ⟨.memory .empty, [some ⟨.io, "offline"⟩]⟩
    let settings : EngineSettings := { Service.bare with failSafe := .closed }
    let acts : List (Moment × Act) := [(⟨⟨1⟩, 1⟩, .command .reload)]
    ∃ p effects, Plane.launch store settings ⟨⟨0⟩, 0⟩ = .ok (p, effects) ∧
      let q := ((Service.opened p).run acts).plane
      p.snapshot.degraded = true ∧ q.snapshot.degraded = false ∧
      (∃ budget, q.batchBudget ⟨2⟩ = .ok budget ∧ budget.releaseAll = true) ∧
      (Attempt.begin q (.single "someone@example.org") ⟨⟨2⟩, 2⟩).2.2 =
        .decided ⟨.admitted none none none (q.counters.reading ⟨2⟩), none⟩ := by
  intro store settings acts
  have runs : (Plane.launch store settings ⟨⟨0⟩, 0⟩).toOption.map (fun first =>
      let q := ((Service.opened first.1).run acts).plane
      (first.1.snapshot.degraded, q.snapshot.degraded, q.snapshot.config.enabled)) = some (true, false, false) := by
    decide +kernel
  obtain ⟨⟨p, effects⟩, launched, runs⟩ := Option.map_eq_some_iff.mp runs
  simp only [Prod.mk.injEq] at runs
  obtain ⟨degraded, refreshed, off⟩ := runs
  have launched := ok_of_toOption launched
  obtain ⟨-, bypassed, -⟩ := budget_beside_fail_safe launched acts ⟨⟨2⟩, 2⟩
  obtain ⟨budget, found, all⟩ := batchBudget_unthrottled off ⟨2⟩
  refine ⟨p, effects, launched, degraded, refreshed, ⟨budget, found, all⟩, ?_⟩
  exact bypassed (fun held => by rw [refreshed] at held; cases held.1) budget found all _

/-- Until then it holds every attempt, while the budget releases everything. -/
theorem released_while_held :
    let store : PlannedStore Backing := ⟨.memory .empty, [some ⟨.io, "offline"⟩]⟩
    let settings : EngineSettings := { Service.bare with failSafe := .closed }
    ∃ p effects, Plane.launch store settings ⟨⟨0⟩, 0⟩ = .ok (p, effects) ∧
      (Attempt.begin p (.single "someone@example.org") ⟨⟨1⟩, 1⟩).2.2 = .decided ⟨.held .failSafe, none⟩ ∧
      p.batchBudget ⟨1⟩ = .ok ⟨true, unbounded, unbounded, unbounded, unbounded, 10⟩ := by
  intro store settings
  have opens : (Plane.launch store settings ⟨⟨0⟩, 0⟩).toOption.map (fun first =>
      (first.1.snapshot.degraded, first.1.settings.failSafe, (first.1.batchBudget ⟨1⟩).toOption)) =
      some (true, .closed, some ⟨true, unbounded, unbounded, unbounded, unbounded, 10⟩) := by
    decide +kernel
  obtain ⟨⟨p, effects⟩, launched, opens⟩ := Option.map_eq_some_iff.mp opens
  simp only [Prod.mk.injEq] at opens
  obtain ⟨degraded, closed, budget⟩ := opens
  refine ⟨p, effects, ok_of_toOption launched, ?_, ok_of_toOption budget⟩
  simp only [Attempt.begin, degraded, closed, if_true]
  rfl

end

end RelayRamp.Admission
