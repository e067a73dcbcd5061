import RelayRamp.Plane.Metrics
import RelayRamp.Proofs.Admission.Service
import RelayRamp.Proofs.Admission.Windows
import RelayRamp.Store.Memory

/-!
# What the windows count

While wall time does not go back, each window counts exactly the items that were admitted with a lease within it:
whoever else commits, and whatever is changed, in between. A commit sees the window of its own instant, and is made
only when the total stays within the limits that the snapshot of its attempt gives for that instant.
-/
namespace RelayRamp.Admission

open RelayRamp.Lease RelayRamp.Plane RelayRamp.Routing RelayRamp.Store RelayRamp.Time RelayRamp.Warmup

/-- The items of the admissions with a lease that were decided in the window with this start. -/
def volume (kind : WindowKind) (start : Instant) : List Decision → Nat
  | [] => 0
  | d :: rest =>
    (if d.admission.lease.isSome ∧ kind.start d.moment.wall = start then d.request.batchSize else 0) +
      volume kind start rest

/-- What the admissions with a lease counted. -/
def leased (decisions : List Decision) : Ledger :=
  decisions.filterMap fun d => d.admission.lease.map fun _ => (d.moment.wall, d.request.batchSize)

theorem volume_eq (kind : WindowKind) (start : Instant) (decisions : List Decision) :
    volume kind start decisions = Ledger.total kind start (leased decisions) := by
  induction decisions with
  | nil => rfl
  | cons d rest ih =>
    rw [volume, ih]
    cases lease : d.admission.lease with
    | none => simp [leased, lease]
    | some ticket => simp [leased, lease, Ledger.total]

theorem leased_append_unleased (decisions : List Decision) {more : List Decision}
    (unleased : ∀ d ∈ more, d.admission.lease = none) : leased (decisions ++ more) = leased decisions := by
  have nothing : leased more = [] := List.filterMap_eq_nil_iff.mpr fun d member => by simp [unleased d member]
  rw [leased, List.filterMap_append, ← leased, ← leased, nothing, List.append_nil]

theorem leased_append_admitted (decisions : List Decision) {d : Decision} {ticket : LeaseTicket}
    (lease : d.admission.lease = some ticket) :
    leased (decisions ++ [d]) = leased decisions ++ [(d.moment.wall, d.request.batchSize)] := by
  simp [leased, lease]

/-- Up to an instant the window has counted the decisions. -/
abbrev Tracks (kind : WindowKind) (w : Window) (decisions : List Decision) (now : Instant) : Prop :=
  Window.Records kind w (leased decisions) now

theorem Tracks.observed {kind : WindowKind} {w : Window} {decisions : List Decision} {now : Instant}
    (h : Tracks kind w decisions now) : w.observed kind now = volume kind (kind.start now) decisions := by
  rw [volume_eq]
  exact Window.Records.observed h

namespace Service

variable {σ : Type} {s t : Service σ} {now : Instant}

/-- Both windows have counted the decisions. -/
def Tracked (s : Service σ) (now : Instant) : Prop :=
  ∀ kind, Tracks kind (s.plane.counters.window kind) s.decisions now

theorem Counts.tracked {moment : Moment} (counts : s.Counts moment t) (h : s.Tracked moment.wall) :
    t.Tracked moment.wall := by
  intro kind
  cases counts with
  | nothing decided record unleased counters =>
    rw [record, Tracks, leased_append_unleased _ unleased]
    rcases counters with same | rolled
    · rw [same]
      exact h kind
    · rw [rolled, Counters.window_rolled]
      exact (h kind).rolled
  | admitted d record lease present follows fits counters =>
    rw [record, Tracks, leased_append_admitted _ lease, counters, Counters.window_plus, Counters.window_rolled,
      follows.amount, present]
    exact (h kind).rolled.counted (h kind).rolled_start _

/-- The instants of a run, from its opening on. -/
def walls (opened : Instant) (acts : List (Moment × Act)) : List Instant := opened :: acts.map (·.1.wall)

theorem opened_tracked {p : Plane σ} {instant : Instant} (fresh : p.counters = .fresh instant)
    (le : instant ≤ now) : (opened p).Tracked now := by
  intro kind
  have window : (opened p).plane.counters.window kind = ⟨kind.start instant, 0⟩ := by
    simp only [opened, fresh]
    cases kind <;> rfl
  rw [window]
  exact ⟨start_mono kind le, rfl, fun _ member => nomatch member⟩

variable [ThrottleStore σ]

theorem run_tracked {p : Plane σ} {instant : Instant} (fresh : p.counters = .fresh instant)
    {acts : List (Moment × Act)} (ordered : (walls instant acts).Pairwise (· ≤ ·)) :
    ∀ now, (∀ wall ∈ walls instant acts, wall ≤ now) → ((opened p).run acts).Tracked now := by
  induction acts using List.reverseRecOn with
  | nil => exact fun now last => opened_tracked fresh (last instant (List.mem_cons_self ..))
  | append_singleton acts last ih =>
    obtain ⟨moment, act⟩ := last
    have split : walls instant (acts ++ [(moment, act)]) = walls instant acts ++ [moment.wall] := by simp [walls]
    rw [split] at ordered ⊢
    obtain ⟨ordered, -, bound⟩ := List.pairwise_append.mp ordered
    intro now last
    have before := ih ordered moment.wall fun wall member => bound wall member _ (List.mem_singleton_self _)
    rw [run_append]
    have counted := (step_counts (run_sound p acts) moment act).tracked before
    exact fun kind => (counted kind).mono (last _ (List.mem_append_right _ (List.mem_singleton_self _)))

/-- What an attempt was admitted under while throttling did not apply is not backed by a lease. -/
theorem leased_throttled (p : Plane σ) (acts : List (Moment × Act)) {d : Decision} {ticket : LeaseTicket}
    (member : d ∈ ((opened p).run acts).decisions) (lease : d.admission.lease = some ticket) :
    d.snapshot.degraded = false ∧ d.snapshot.config.enabled = true := by
  induction acts using List.reverseRecOn with
  | nil => cases member
  | append_singleton acts last ih =>
    rw [run_append] at member
    cases step_counts (run_sound p acts) last.1 last.2 with
    | nothing decided record unleased counters =>
      rw [run, run, record] at member
      rcases List.mem_append.mp member with old | new
      · exact ih old
      · rw [unleased d new] at lease
        cases lease
    | admitted d' record lease' present follows fits counters =>
      rw [run, run, record] at member
      rcases List.mem_append.mp member with old | new
      · exact ih old
      · rw [List.mem_singleton.mp new]
        exact ⟨follows.refreshed, follows.enabled⟩

/-- The counts are those of the admissions. From fresh counters, in every run in which wall time does not go back,
and for every instant after it, the sent totals are the items admitted with a lease in the same hour and day. What
was decided under a degraded snapshot or with throttling off has no lease and is not counted. At every commit both
totals are within the limits that the snapshot of the attempt gives for the instant of the commit. -/
theorem volume_exact {p : Plane σ} {instant : Instant} (fresh : p.counters = .fresh instant)
    (acts : List (Moment × Act)) (ordered : (walls instant acts).Pairwise (· ≤ ·)) :
    let s := (opened p).run acts
    (∀ now, (∀ wall ∈ walls instant acts, wall ≤ now) →
      (s.plane.metrics now).sentThisHour = volume .hour (WindowKind.hour.start now) s.decisions ∧
      (s.plane.metrics now).sentToday = volume .day (WindowKind.day.start now) s.decisions) ∧
    (∀ d ∈ s.decisions, d.snapshot.degraded = true ∨ d.snapshot.config.enabled = false →
      d.admission.lease = none) ∧
    ∀ moment act d ticket, (∀ wall ∈ walls instant acts, wall ≤ moment.wall) →
      (s.step moment act).decisions = s.decisions ++ [d] → d.admission.lease = some ticket →
      ∃ table, d.snapshot.table = .ok table ∧
        let limits := d.snapshot.config.limits table moment.wall
        let sent := (s.step moment act).plane.metrics moment.wall
        sent.sentThisHour ≤ limits.maxPerHour ∧ sent.sentToday ≤ limits.maxPerDay := by
  intro s
  have tracked := run_tracked fresh ordered
  refine ⟨fun now last => ?_, fun d member unthrottled => ?_, fun moment act d ticket last record lease => ?_⟩
  · exact ⟨(tracked now last .hour).observed, (tracked now last .day).observed⟩
  · cases lease : d.admission.lease with
    | none => rfl
    | some ticket =>
      obtain ⟨refreshed, enabled⟩ := leased_throttled p acts member lease
      simp [refreshed, enabled] at unthrottled
  · cases step_counts (run_sound p acts) moment act with
    | nothing decided record' unleased counters =>
      have same : decided = [d] := List.append_cancel_left (record'.symm.trans record)
      rw [unleased d (by simp [same])] at lease
      cases lease
    | admitted d' record' lease' present follows fits counters =>
      cases List.append_cancel_left (record'.symm.trans record)
      refine ⟨_, follows.table, ?_⟩
      rw [← follows.config]
      have counted : (s.step moment act).plane.counters = _ := counters
      simp only [Plane.metrics, Counters.reading, counted]
      exact ⟨Nat.le_trans (Window.observed_le ..) fits.hour, Nat.le_trans (Window.observed_le ..) fits.day⟩

omit [ThrottleStore σ] in
/-- Three attempts pass the check while there is room for two: the last one loses its commit. In the next hour there
is room again, until the limit of the day. -/
theorem volume_exact_contended :
    let config : WarmupConfig := { WarmupConfig.fresh ⟨0⟩ with enabled := true }
    let store : MemoryStore := { MemoryStore.empty with config, phases := [⟨0, "start", 7, ⟨5, 8, 5⟩⟩] }
    let request (items : Nat) : Act := .submit ⟨"someone@example.org", items, none, none⟩
    let nextHour : Instant := ⟨nanosPerHour⟩
    let acts : List (Moment × Act) :=
      [(⟨⟨1⟩, 0⟩, request 3), (⟨⟨2⟩, 0⟩, request 2), (⟨⟨3⟩, 0⟩, request 1), (⟨⟨4⟩, 1000⟩, .resume 1),
        (⟨⟨5⟩, 2000⟩, .resume 2), (⟨nextHour, 3600000⟩, request 3)]
    ∃ p effects, Plane.launch store .standard ⟨⟨0⟩, 0⟩ = .ok (p, effects) ∧ p.counters = .fresh ⟨0⟩ ∧
      (walls ⟨0⟩ acts).Pairwise (· ≤ ·) ∧
      let s := (opened p).run acts
      s.decisions.map (fun d => (d.number, d.admission.lease.isSome)) =
        [(0, true), (1, true), (2, false), (3, true)] ∧
      (s.plane.metrics nextHour).sentThisHour = 3 ∧ (s.plane.metrics nextHour).sentToday = 8 := by
  intro config store request nextHour acts
  have launches : ((Plane.launch store .standard ⟨⟨0⟩, 0⟩).toOption.map fun launched =>
      let decisions := ((opened launched.1).run acts).decisions
      (launched.1.counters, decisions.map fun d => (d.number, d.admission.lease.isSome),
        volume .hour nextHour decisions, volume .day ⟨0⟩ decisions)) =
      some (.fresh ⟨0⟩, [(0, true), (1, true), (2, false), (3, true)], 3, 8) := by
    decide +kernel
  have ordered : (walls ⟨0⟩ acts).Pairwise (· ≤ ·) := by decide +kernel
  cases launched : Plane.launch store .standard ⟨⟨0⟩, 0⟩ with
  | error fault =>
    rw [launched] at launches
    cases launches
  | ok opened =>
    obtain ⟨p, effects⟩ := opened
    rw [launched] at launches
    simp only [Except.toOption, Option.map_some, Option.some.injEq, Prod.mk.injEq] at launches
    obtain ⟨fresh, decisions, hour, day⟩ := launches
    have sent := (volume_exact fresh acts ordered).1 nextHour (by decide +kernel)
    have hours : WindowKind.hour.start nextHour = nextHour := by decide +kernel
    have days : WindowKind.day.start nextHour = ⟨0⟩ := by decide +kernel
    rw [hours, days] at sent
    exact ⟨p, effects, rfl, fresh, ordered, decisions, sent.1.trans hour, sent.2.trans day⟩

end Service

end RelayRamp.Admission
