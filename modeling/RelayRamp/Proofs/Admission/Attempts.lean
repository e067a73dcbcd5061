import RelayRamp.Admission.Attempt

/-!
# What an attempt can come to

An attempt that begins is decided at once or proceeds to acquire a lease. One that proceeds goes on waiting, or ends
in one of three ways: the acquisition fails, the commit of the windows fails and the lease goes back, or the attempt
is admitted with its lease and its amount is counted in both windows. Only the last changes a count.
-/
namespace RelayRamp.Admission

open RelayRamp.Lease RelayRamp.Plane RelayRamp.Routing RelayRamp.Time RelayRamp.Warmup

/-- The lease that a verdict names. -/
def Verdict.ticket? : Verdict → Option LeaseTicket
  | admitted _ _ lease _ => lease
  | held _ | rejected _ => none

theorem Window.roll_roll (w : Window) (kind : WindowKind) (now : Instant) :
    (w.roll kind now).roll kind now = w.roll kind now := by
  unfold Window.roll
  split
  · exact if_neg (Int.lt_irrefl _)
  · rfl

namespace Counters

theorem rolled_rolled (c : Counters) (now : Instant) : (c.rolled now).rolled now = c.rolled now := by
  simp only [rolled, Window.roll_roll]

/-- An amount more in both windows. -/
def plus (c : Counters) (amount : Nat) : Counters :=
  ⟨{ c.hour with count := c.hour.count + amount }, { c.day with count := c.day.count + amount }⟩

theorem window_plus (c : Counters) (kind : WindowKind) (amount : Nat) :
    (c.plus amount).window kind = { c.window kind with count := (c.window kind).count + amount } := by
  cases kind <;> rfl

/-- The amount fits both windows. -/
structure Fits (c : Counters) (amount : Nat) (limits : PhaseLimits) : Prop where
  hour : c.hour.count + amount ≤ limits.maxPerHour
  day : c.day.count + amount ≤ limits.maxPerDay

theorem within_cases (kind : WindowKind) (current amount limit : Nat) :
    (current + amount ≤ limit ∧ within kind current amount limit = .ok (current + amount)) ∨
      within kind current amount limit = .error (.capacityExceeded kind current amount limit) := by
  unfold within
  split
  · rename_i fits
    exact Or.inl ⟨fits, rfl⟩
  · exact Or.inr rfl

/-- A commit counts the amount in both windows, which it fits, or in none. -/
theorem commit_cases (c : Counters) (limits : PhaseLimits) (amount : Nat) (now : Instant) :
    ((c.rolled now).Fits amount limits ∧ ∃ reading,
      c.commit limits amount now = ((c.rolled now).plus amount, .ok reading)) ∨
    ∃ reason, c.commit limits amount now = (c.rolled now, .error reason) := by
  unfold commit
  rcases within_cases .hour (c.rolled now).hour.count amount limits.maxPerHour with ⟨hour, fits⟩ | refused
  · rcases within_cases .day (c.rolled now).day.count amount limits.maxPerDay with ⟨day, fits'⟩ | refused
    · refine Or.inl ⟨⟨hour, day⟩, ⟨(c.rolled now).hour.count + amount, (c.rolled now).day.count + amount⟩, ?_⟩
      simp only [fits, fits']
      rfl
    · simp only [fits, refused]
      exact Or.inr ⟨_, rfl⟩
  · simp only [refused]
    exact Or.inr ⟨_, rfl⟩

end Counters

namespace Attempt

variable {σ : Type}

/-- How an attempt goes on from an acquisition. The plane keeps all else. -/
inductive Proceeds (p : Plane σ) (course : Course) (acquisition : Acquisition) (moment : Moment) :
    Plane σ → Attempt → Prop
  | waits {pool : Pool} {effects : Effects} {waiting : Acquisition}
      (resumed : acquisition.resume p.pool moment.tick = (pool, effects, waiting))
      (unfinished : waiting.isDone = false) :
      Proceeds p course acquisition moment { p with pool } (.acquiring course waiting)
  | failed {pool : Pool} {effects : Effects} {fault : LeaseFault} {verdict : Verdict}
      (resumed : acquisition.resume p.pool moment.tick = (pool, effects, .failed fault))
      (unleased : verdict.ticket? = none) :
      Proceeds p course acquisition moment { p with pool, tallies := p.tallies.count verdict }
        (.decided ⟨verdict, none⟩)
  | admitted {pool : Pool} {effects : Effects} {ticket : LeaseTicket} {instant : Nat} {reading : CounterReading}
      (resumed : acquisition.resume p.pool moment.tick = (pool, effects, .granted ticket instant))
      (fits : (p.counters.rolled moment.wall).Fits course.amount
        (course.config.limits course.table moment.wall)) :
      Proceeds p course acquisition moment
        { p with
          pool
          counters := (p.counters.rolled moment.wall).plus course.amount
          tallies := p.tallies.count
            (.admitted course.route.transport course.route.ruleId ticket reading) }
        (.decided ⟨.admitted course.route.transport course.route.ruleId ticket reading, ticket⟩)
  | lost {pool : Pool} {effects : Effects} {ticket : LeaseTicket} {instant : Nat} {reason : HoldReason}
      (resumed : acquisition.resume p.pool moment.tick = (pool, effects, .granted ticket instant)) :
      Proceeds p course acquisition moment
        { p with
          pool := (pool.release ticket.transport ticket.leaseId moment.tick).1
          counters := p.counters.rolled moment.wall
          tallies := p.tallies.count (.held reason) }
        (.decided ⟨.held reason, none⟩)

theorem proceeds (p : Plane σ) (course : Course) (acquisition : Acquisition) (moment : Moment) :
    Proceeds p course acquisition moment (proceed p course acquisition moment).1
      (proceed p course acquisition moment).2.2 := by
  rcases resumed : acquisition.resume p.pool moment.tick with ⟨pool, effects, next⟩
  simp only [proceed, resumed]
  cases next with
  | granted ticket instant =>
    rcases p.counters.commit_cases (course.config.limits course.table moment.wall) course.amount moment.wall with
      ⟨fits, reading, committed⟩ | ⟨reason, refused⟩
    · simp only [commit, committed]
      exact .admitted resumed fits
    · simp only [commit, refused]
      exact .lost resumed
  | failed fault =>
    cases fault with
    | timedOut name => exact .failed resumed (rfl)
    | unknownTransport name => exact .failed resumed (rfl)
  | _ => exact .waits resumed rfl

/-- What a request can come to before the lease. -/
inductive Begins (p : Plane σ) (r : AdmissionRequest) (moment : Moment) : Plane σ → Attempt → Prop
  | decided {verdict : Verdict} (unleased : verdict.ticket? = none) :
      Begins p r moment { p with tallies := p.tallies.count verdict } (.decided ⟨verdict, none⟩)
  | proceeded {table : PhaseTable} {route : Route} {timeout : Nat} {q : Plane σ} {a : Attempt}
      (refreshed : p.snapshot.degraded = false) (enabled : p.snapshot.config.enabled = true)
      (table_eq : p.snapshot.table = .ok table)
      (proceeds : Proceeds p ⟨p.snapshot.config, table, route, r.batchSize⟩ (.requested route.transport timeout)
        moment q a) : Begins p r moment q a

/-- How a request is screened: the ways that lead past the lease or up to it, in the order in which they are tried. -/
inductive Screened (p : Plane σ) (r : AdmissionRequest) (moment : Moment) : Plane σ × Effects × Attempt → Prop
  | failSafe (degraded : p.snapshot.degraded = true) (closed : p.settings.failSafe = .closed) :
      Screened p r moment (conclude p (.held .failSafe) none)
  | flowing (degraded : p.snapshot.degraded = true) (flowing : p.settings.failSafe = .flowing) :
      Screened p r moment (bypass p moment)
  | off (refreshed : p.snapshot.degraded = false) (off : p.snapshot.config.enabled = false) :
      Screened p r moment (bypass p moment)
  | empty (refreshed : p.snapshot.degraded = false) (enabled : p.snapshot.config.enabled = true)
      (empty : r.batchSize = 0) : Screened p r moment (conclude p (.rejected .emptyBatch) none)
  | unroutable {fault : ConfigurationFault} (refreshed : p.snapshot.degraded = false)
      (enabled : p.snapshot.config.enabled = true) (unroutable : r.route p.snapshot.matcher = .error fault) :
      Screened p r moment (conclude p (.rejected fault) none)
  | unusable {fault : ConfigurationFault} {route : Route} (refreshed : p.snapshot.degraded = false)
      (enabled : p.snapshot.config.enabled = true) (routed : r.route p.snapshot.matcher = .ok route)
      (unusable : p.snapshot.table = .error fault) : Screened p r moment (conclude p (.rejected fault) none)
  | full {table : PhaseTable} {route : Route} {reason : HoldReason} (refreshed : p.snapshot.degraded = false)
      (enabled : p.snapshot.config.enabled = true) (routed : r.route p.snapshot.matcher = .ok route)
      (usable : p.snapshot.table = .ok table)
      (refused : p.counters.check (p.snapshot.config.limits table moment.wall) r.batchSize moment.wall =
        .error reason) : Screened p r moment (conclude p (.held reason) route.transport)
  | overBurst {table : PhaseTable} {route : Route} (refreshed : p.snapshot.degraded = false)
      (enabled : p.snapshot.config.enabled = true) (routed : r.route p.snapshot.matcher = .ok route)
      (usable : p.snapshot.table = .ok table)
      (large : (p.snapshot.config.limits table moment.wall).burst < r.batchSize) :
      Screened p r moment
        (conclude p (.held (.burstExceeded r.batchSize (p.snapshot.config.limits table moment.wall).burst))
          route.transport)
  | passed {table : PhaseTable} {route : Route} {seen : CounterReading} (timeout : Nat)
      (refreshed : p.snapshot.degraded = false) (enabled : p.snapshot.config.enabled = true)
      (routed : r.route p.snapshot.matcher = .ok route) (usable : p.snapshot.table = .ok table)
      (room : p.counters.check (p.snapshot.config.limits table moment.wall) r.batchSize moment.wall = .ok seen)
      (small : r.batchSize ≤ (p.snapshot.config.limits table moment.wall).burst) :
      Screened p r moment
        (proceed p ⟨p.snapshot.config, table, route, r.batchSize⟩ (.requested route.transport timeout) moment)

theorem screened (p : Plane σ) (r : AdmissionRequest) (moment : Moment) :
    Screened p r moment (begin p r moment) := by
  unfold begin
  dsimp only
  split
  · rename_i degraded
    split
    · exact .failSafe degraded ‹_›
    · exact .flowing degraded ‹_›
  · rename_i refreshed
    have refreshed : p.snapshot.degraded = false := by simpa using refreshed
    split
    · rename_i off
      exact .off refreshed (by simpa using off)
    · rename_i enabled
      have enabled : p.snapshot.config.enabled = true := by simpa using enabled
      split
      · exact .empty refreshed enabled ‹_›
      · split
        · exact .unroutable refreshed enabled ‹_›
        · rename_i routed
          split
          · exact .unusable refreshed enabled routed ‹_›
          · rename_i usable
            split
            · exact .full refreshed enabled routed usable ‹_›
            · rename_i room
              split
              · exact .overBurst refreshed enabled routed usable ‹_›
              · exact .passed _ refreshed enabled routed usable room (Nat.le_of_not_lt ‹_›)

theorem begins (p : Plane σ) (r : AdmissionRequest) (moment : Moment) :
    Begins p r moment (begin p r moment).1 (begin p r moment).2.2 := by
  have way := screened p r moment
  generalize begin p r moment = result at way
  cases way with
  | passed timeout refreshed enabled routed usable => exact .proceeded refreshed enabled usable (proceeds _ _ _ _)
  | _ => exact .decided rfl

end Attempt

end RelayRamp.Admission
