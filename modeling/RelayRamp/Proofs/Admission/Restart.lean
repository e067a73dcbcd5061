import RelayRamp.Proofs.Admission.Conservation
import RelayRamp.Proofs.Admission.Persistence

/-!
# Counters across a restart

Counters that were written replace whatever their store held: every bucket of an earlier window goes, and there are
none of a later one. So the buckets that a new plane reads are exactly those of the old counters. It takes over those
whose windows still last, and counts from zero in the others; the hour and the day may differ in this.
-/
namespace RelayRamp.Admission

open RelayRamp.Plane RelayRamp.Store RelayRamp.Time RelayRamp.Warmup

namespace Counters

/-- The counters that can be reached by an instant while the clock does not go back. -/
inductive Reached : Instant → Counters → Prop
  | fresh (now : Instant) : Reached now (.fresh now)
  | later {now later : Instant} {c : Counters} (le : now ≤ later) : Reached now c → Reached later c
  | incremented {now : Instant} {c : Counters} (kind : WindowKind) (amount limit : Nat) :
      Reached now c → Reached now (c.increment kind amount limit now).1
  | committed {now : Instant} {c : Counters} (limits : PhaseLimits) (amount : Nat) :
      Reached now c → Reached now (c.commit limits amount now).1
  | rolled {now : Instant} {c : Counters} : Reached now c → Reached now (c.rolled now)
  | restored {now : Instant} {c : Counters} (buckets : List CounterBucket) :
      Reached now c → Reached now (c.restore buckets now)

variable {now t : Instant} {c : Counters}

theorem Advances.increment (c : Counters) (kind : WindowKind) (amount limit : Nat) (now : Instant) :
    c.Advances now (c.increment kind amount limit now).1 := by
  have rolls := Window.Advances.roll (c.window kind) kind now
  unfold Counters.increment
  rcases within_cases kind ((c.window kind).roll kind now).count amount limit with ⟨-, fits⟩ | refused
  · simp only [fits]
    exact .withWindow (rolls.trans (.raise (Nat.le_add_right _ _)))
  · simp only [refused]
    exact .withWindow rolls

theorem Advances.commit (c : Counters) (limits : PhaseLimits) (amount : Nat) (now : Instant) :
    c.Advances now (c.commit limits amount now).1 := by
  rcases c.commit_cases limits amount now with ⟨-, reading, done⟩ | ⟨reason, refused⟩
  · rw [done]
    exact (rolled c now).trans (plus _ amount)
  · rw [refused]
    exact rolled c now

theorem Reached.begun (reached : c.Reached now) : c.Begun now := by
  induction reached with
  | fresh now => exact .fresh (Int.le_refl _)
  | later le _ ih => exact ih.mono le
  | incremented kind amount limit _ ih => exact ih.advances (Int.le_refl _) (.increment _ kind amount limit _)
  | committed limits amount _ ih => exact ih.advances (Int.le_refl _) (.commit _ limits amount _)
  | rolled _ ih => exact ih.advances (Int.le_refl _) (.rolled _ _)
  | restored buckets _ ih => exact ih.advances (Int.le_refl _) (.restore _ buckets)

/-- Of a store that held no window ahead of the counters only their own buckets are left. -/
theorem mem_saved {held after : List CounterBucket} (saved : SavedAll held c.buckets after)
    (current : ∀ kind, (c.window kind).start = kind.start t) (begun : ∀ b ∈ held, b.Begun t) (b : CounterBucket) :
    b ∈ after ↔ b ∈ c.buckets := by
  rw [saved b]
  refine or_iff_left fun ⟨old, later⟩ => ?_
  let own : CounterBucket := ⟨b.kind, (c.window b.kind).start.stamp, (c.window b.kind).count⟩
  have ahead : (c.window b.kind).start < b.windowStart.instant := later own (mem_buckets.mpr ⟨rfl, rfl⟩) rfl
  obtain ⟨w, le, start⟩ := begun b old
  rw [current, start] at ahead
  exact Int.lt_irrefl _ (Int.lt_of_lt_of_le ahead (start_mono b.kind le))

/-- The buckets of counters are restored as their counts, if their window still lasts, and else as zero. -/
theorem restored_count {t₁ t₂ : Instant} {buckets : List CounterBucket}
    (current : ∀ kind, (c.window kind).start = kind.start t₁) (own : ∀ b, b ∈ buckets ↔ b ∈ c.buckets)
    (kind : WindowKind) :
    (((fresh t₂).restore buckets t₂).window kind).count =
      if kind.start t₁ = kind.start t₂ then (c.window kind).count else 0 := by
  have restored := restore_window (fun kind => congrArg Window.start (fresh_window t₂ kind)) buckets kind
  rw [fresh_window] at restored
  have counted : ∀ b ∈ buckets, Matches kind ⟨kind.start t₂, 0⟩ t₂ b →
      kind.start t₁ = kind.start t₂ ∧ b.count = (c.window kind).count := by
    rintro b member ⟨rfl, -, start⟩
    obtain ⟨began, count⟩ := mem_buckets.mp ((own b).mp member)
    rw [began, current] at start
    exact ⟨start, count⟩
  split
  · rename_i lasts
    let b : CounterBucket := ⟨kind, (kind.start t₁).stamp, (c.window kind).count⟩
    have member : b ∈ buckets := (own b).mpr (mem_buckets.mpr ⟨by rw [current], rfl⟩)
    have begun : b.Begun t₁ := ⟨t₁, Int.le_refl _, rfl⟩
    have least := restored.covers b member ⟨rfl, begun.isCurrent_iff.mpr lasts, lasts⟩
    rcases restored.attained with none | ⟨b', member', matching, count⟩
    · exact Nat.le_antisymm (by simp [none]) least
    · exact count.trans (counted b' member' matching).2
  · rename_i passed
    rcases restored.attained with none | ⟨b, member, matching, -⟩
    · exact none
    · exact absurd (counted b member matching).1 passed

/-- What is read after the buckets of counters were restored is what the counters themselves give. -/
theorem observed_restored {t₁ t₂ : Instant} {buckets : List CounterBucket}
    (current : ∀ kind, (c.window kind).start = kind.start t₁) (own : ∀ b, b ∈ buckets ↔ b ∈ c.buckets)
    (order : t₁ ≤ t₂) (later : t₂ ≤ t) (kind : WindowKind) :
    (((fresh t₂).restore buckets t₂).window kind).observed kind t = (c.window kind).observed kind t := by
  have start := (restore_window (fun kind => congrArg Window.start (fresh_window t₂ kind)) buckets kind).start
  have behind : kind.start t₁ ≤ kind.start t₂ := start_mono kind order
  have ahead : kind.start t₂ ≤ kind.start t := start_mono kind later
  rw [fresh_window] at start
  unfold Window.observed
  rw [start, current, restored_count current own]
  by_cases lasts : kind.start t₁ = kind.start t₂
  · rw [if_pos lasts, lasts]
  · have before : kind.start t₁ < kind.start t₂ :=
      Int.lt_iff_le_and_ne.mpr ⟨behind, fun same => lasts (congrArg Instant.mk same)⟩
    rw [if_neg lasts, if_pos (show kind.start t₁ < kind.start t from Int.lt_of_lt_of_le before ahead), ite_self]

end Counters

/-- A restart within a window loses nothing. Counters were reached by the instant while the clock did not go back, and
the store was written by planes up to then. If they are written and a new plane is opened over the same store at that
instant or later, and it is not degraded, its counters give at every instant from then on what the old ones give:
whatever else the store held, from earlier windows, makes no difference. Windows that have passed since are at zero. -/
theorem restart_keeps_counts {p q r : Plane Backing} {t₁ t₂ : Moment} {settings : EngineSettings}
    {effects effects' : Lease.Effects} (written : WrittenBy t₁.wall p.store) (reached : p.counters.Reached t₁.wall)
    (persisted : persistCounters.run t₁ p = (.ok (), q, effects))
    (launched : Plane.launch q.store settings t₂ = .ok (r, effects')) (sound : r.snapshot.degraded = false)
    (order : t₁.wall ≤ t₂.wall) {t : Instant} (later : t₂.wall ≤ t) :
    r.counters.reading t = q.counters.reading t ∧
      ∀ kind, kind.start t₁.wall < kind.start t → readingOf (r.counters.reading t) kind = 0 := by
  obtain ⟨held, holds⟩ := written.holds
  have saved := persistCounters_ok persisted
  have begun : q.counters.Begun t₁.wall := saved.counters ▸ reached.rolled.begun
  have current (kind : WindowKind) : (q.counters.window kind).start = kind.start t₁.wall := by
    rw [saved.counters]
    exact reached.begun.rolled_start kind
  rcases holds.saveCounters q.counters.buckets_kinds begun.buckets with ⟨fault, failed, -⟩ | ⟨-, after, kept, put⟩
  · exact nomatch failed.symm.trans saved.answer
  · have stored : q.store.Holds t₁.wall after := saved.store ▸ kept
    obtain ⟨s, buckets, holds', loaded, counters⟩ := (launch_restores (S := fun s => s.Holds t₁.wall after)
      (fun c vetted holds => holds.other (vetted_other vetted)) stored launched).2 sound
    obtain rfl := holds'.loaded loaded
    have observed (kind : WindowKind) :
        (r.counters.window kind).observed kind t = (q.counters.window kind).observed kind t := by
      rw [counters]
      exact Counters.observed_restored current (Counters.mem_saved put current holds.begun) order later kind
    refine ⟨?_, fun kind passed => ?_⟩
    · change CounterReading.mk ((r.counters.window .hour).observed .hour t) ((r.counters.window .day).observed .day t) =
        _
      rw [observed, observed]
      rfl
    · rw [Account.readingOf_reading, observed, Window.observed, current, if_pos passed]

/-- Over tables: seven items in the first hour, whose bucket was written then, two in the second, and a restart before
it ends. -/
theorem restart_keeps_counts_of_day :
    let empty : PlannedStore Backing := ⟨.durable .empty, []⟩
    let minute (n : Int) : Instant := ⟨n * 60000000000⟩
    let acts : List (Moment × Act) :=
      Service.firstHour ++ [(⟨minute 60, 3600000⟩, .submit ⟨"someone@example.org", 2, none, none⟩)]
    ∃ p effects, Plane.launch empty Service.bare ⟨minute 0, 0⟩ = .ok (p, effects) ∧
      let s := ((Service.opened p).run acts).plane
      let old : Plane Backing := ⟨s.store.inner, s.snapshot, s.counters, s.pool, s.tallies, s.settings⟩
      old.store.buckets = [⟨.hour, (minute 0).stamp, 7⟩, ⟨.day, (minute 0).stamp, 7⟩] ∧
      ∃ q effects, persistCounters.run ⟨minute 70, 4200000⟩ old = (.ok (), q, effects) ∧
        ∃ r effects, Plane.launch q.store Service.bare ⟨minute 80, 0⟩ = .ok (r, effects) ∧
          r.counters.reading (minute 119) = ⟨2, 9⟩ ∧ r.counters.reading (minute 120) = ⟨0, 9⟩ ∧
          r.counters.reading (minute 1440) = ⟨0, 0⟩ := by
  intro empty minute acts
  have runs : ((Plane.launch empty Service.bare ⟨minute 0, 0⟩).toOption.bind fun first =>
      let s := ((Service.opened first.1).run acts).plane
      let old : Plane Backing := ⟨s.store.inner, s.snapshot, s.counters, s.pool, s.tallies, s.settings⟩
      let persisted := persistCounters.run ⟨minute 70, 4200000⟩ old
      (Plane.launch persisted.2.1.store Service.bare ⟨minute 80, 0⟩).toOption.map fun second =>
        (old.store.buckets, old.counters, persisted.1.toOption, persisted.2.1.counters, second.1.snapshot.degraded)) =
      some ([⟨.hour, (minute 0).stamp, 7⟩, ⟨.day, (minute 0).stamp, 7⟩], ⟨⟨minute 60, 2⟩, ⟨minute 0, 9⟩⟩,
        some (), ⟨⟨minute 60, 2⟩, ⟨minute 0, 9⟩⟩, false) := by
    decide +kernel
  obtain ⟨⟨p, effects⟩, launched, runs⟩ := Option.bind_eq_some_iff.mp runs
  obtain ⟨⟨r, effects'⟩, relaunched, runs⟩ := Option.map_eq_some_iff.mp runs
  simp only [Prod.mk.injEq] at runs
  obtain ⟨stored, counters, answer, after, sound⟩ := runs
  have launched := ok_of_toOption launched
  have relaunched := ok_of_toOption relaunched
  have first := (Counters.Reached.fresh (minute 0)).committed ⟨20, 50, 10⟩ 7
  have second := (first.later (show minute 0 ≤ minute 60 by decide +kernel)).committed ⟨20, 50, 10⟩ 2
  have reached : ((Service.opened p).run acts).plane.counters.Reached (minute 70) :=
    counters ▸ second.later (show minute 60 ≤ minute 70 by decide +kernel)
  have written : WrittenBy (minute 70) ((Service.opened p).run acts).plane.store.inner :=
    WrittenBy.durable.served launched (by decide +kernel)
  refine ⟨p, effects, launched, stored, _, _, Prod.ext (ok_of_toOption answer) rfl, r, effects', relaunched, ?_⟩
  have reads (t : Instant) (later : minute 80 ≤ t) : r.counters.reading t =
      (⟨⟨minute 60, 2⟩, ⟨minute 0, 9⟩⟩ : Counters).reading t :=
    (restart_keeps_counts written reached (Prod.ext (ok_of_toOption answer) rfl) relaunched sound
      (by decide +kernel) later).1.trans (congrArg (Counters.reading · t) after)
  exact ⟨(reads _ (by decide +kernel)).trans (by decide +kernel),
    (reads _ (by decide +kernel)).trans (by decide +kernel), (reads _ (by decide +kernel)).trans (by decide +kernel)⟩

end RelayRamp.Admission
