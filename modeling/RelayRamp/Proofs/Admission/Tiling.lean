import RelayRamp.Proofs.Admission.Restart
import RelayRamp.Proofs.Time.Calendar
import RelayRamp.Time.Rfc3339

/-!
# Windows tile time

Where a window begins is read from a calendar and a clock in UTC, whether an instant still lies in it from its length, and
whether counters have to move from a comparison of beginnings. All three say the same: each instant lies in one
window of a kind. So what counters are written as at an instant is what they are restored to at that instant.
-/
namespace RelayRamp.Admission

open RelayRamp.Time

/-- Windows of the kind tile time, and the calendar tells them apart. -/
structure Tiles (kind : WindowKind) : Prop where
  within : ∀ now : Instant, kind.start now ≤ now ∧ now < (kind.start now).addNanos kind.span
  own : ∀ now, kind.start (kind.start now) = kind.start now
  mono : ∀ a b : Instant, a ≤ b → kind.start a ≤ kind.start b
  /-- A stamp that is written with another offset, from what calendar and clock show there, keeps its window. -/
  everywhere : ∀ (s : Stamp) (offset : Int),
    kind.start ((Stamp.mk s.instant offset).civil.stamp offset).instant = kind.start s.instant
  /-- A window begins where UTC shows the date, the hour if windows are hours, and nothing beyond. -/
  calendar : ∀ now, (kind.start now).stamp = (now.stamp.civil.truncated kind).stamp 0
  separate : ∀ a b, kind.start a = kind.start b ↔ a.stamp.civil.SameWindow kind b.stamp.civil
  current : ∀ b : CounterBucket, b.kind = kind → b.Aligned →
    ∀ now, b.isCurrent now = true ↔ kind.start now = b.windowStart.instant

theorem tiles (kind : WindowKind) : Tiles kind where
  within now := (within_window_iff kind now now).mpr rfl
  own := start_start kind
  mono _ _ := start_mono kind
  everywhere s offset := by
    have same : (Stamp.mk s.instant offset).civil.stamp offset = ⟨s.instant, offset⟩ := Civil.stamp_civil ⟨_, offset⟩
    rw [same]
  calendar := kind.start_eq_truncated
  separate := kind.start_eq_iff_sameWindow
  current := by
    rintro b rfl aligned now
    exact aligned.isCurrent_iff.trans eq_comm

namespace Counters

variable {now : Instant} {c : Counters} {b : CounterBucket}

/-- Counters that are not ahead of a bucket's window take it over. -/
theorem Begun.restoreBucket (begun : c.Begun now) (aligned : b.Aligned) (current : b.isCurrent now = true) :
    ((c.restoreBucket now b).window b.kind).start = b.windowStart.instant ∧
      b.count ≤ ((c.restoreBucket now b).window b.kind).count := by
  have start : ((c.window b.kind).roll b.kind now).start = b.windowStart.instant := by
    rw [← window_rolled, begun.rolled_start, aligned.isCurrent_iff.mp current]
  unfold Counters.restoreBucket
  rw [if_pos current, window_withWindow, if_pos rfl]
  exact ⟨start, by rw [if_pos start]; exact Nat.le_max_right _ _⟩

/-- Restoring has taken over each bucket whose window lasts, whatever is restored with it. -/
theorem Begun.restore (begun : c.Begun now) {buckets : List CounterBucket} (member : b ∈ buckets)
    (aligned : b.Aligned) (current : b.isCurrent now = true) :
    ((c.restore buckets now).window b.kind).start = b.windowStart.instant ∧
      b.count ≤ ((c.restore buckets now).window b.kind).count := by
  obtain ⟨before, after, rfl⟩ := List.append_of_mem member
  have reached : (c.restore before now).Begun now := begun.advances (Int.le_refl _) (.restore c before)
  have split : c.restore (before ++ b :: after) now =
      ((c.restore before now).restoreBucket now b).restore after now := List.foldl_append ..
  obtain ⟨start, counted⟩ := reached.restoreBucket aligned current
  have advances : Window.Advances b.kind now (((c.restore before now).restoreBucket now b).window b.kind)
      ((((c.restore before now).restoreBucket now b).restore after now).window b.kind) := Advances.restore _ after b.kind
  rw [split]
  have stays : ((((c.restore before now).restoreBucket now b).restore after now).window b.kind).start =
      (((c.restore before now).restoreBucket now b).window b.kind).start := by
    rcases advances.moved with same | ⟨behind, -⟩
    · exact same
    · rw [start, aligned.isCurrent_iff.mp current] at behind
      exact absurd behind (Int.lt_irrefl _)
  exact ⟨stays.trans start, Nat.le_trans counted (advances.grown stays)⟩

/-- The bucket's window lasts, and counters that were reached by the instant count on from it, or from more, once it was
restored there. -/
structure Survives (now : Instant) (b : CounterBucket) : Prop where
  aligned : b.Aligned
  current : b.isCurrent now = true
  restored : ∀ c : Counters, c.Reached now → ∀ buckets, b ∈ buckets →
    ((c.restore buckets now).window b.kind).start = b.windowStart.instant ∧
      b.count ≤ ((c.restore buckets now).window b.kind).count

theorem Reached.survives (reached : c.Reached now) (member : b ∈ (c.rolled now).buckets) : Survives now b := by
  have start : b.windowStart.instant = b.kind.start now := by
    rw [(mem_buckets.mp member).1]
    exact reached.begun.rolled_start b.kind
  have aligned : b.Aligned := by
    rw [CounterBucket.Aligned, start]
    exact start_start b.kind now
  have current : b.isCurrent now = true := aligned.isCurrent_iff.mpr start
  exact ⟨aligned, current, fun c others buckets held => others.begun.restore held aligned current⟩

theorem ext_window {c c' : Counters} (same : ∀ kind, c.window kind = c'.window kind) : c = c' := by
  obtain ⟨hour, day⟩ := c
  obtain ⟨hour', day'⟩ := c'
  exact congrArg₂ Counters.mk (same .hour) (same .day)

/-- Fresh counters become what the counters are. -/
theorem Reached.restore_own (reached : c.Reached now) :
    (Counters.fresh now).restore (c.rolled now).buckets now = c.rolled now := by
  have current (kind : WindowKind) := reached.begun.rolled_start kind
  refine ext_window fun kind => ?_
  have restored := restore_window (fun kind => congrArg Window.start (fresh_window now kind)) (c.rolled now).buckets kind
  have count : (((Counters.fresh now).restore (c.rolled now).buckets now).window kind).count =
      if kind.start now = kind.start now then ((c.rolled now).window kind).count else 0 :=
    restored_count current (fun b => Iff.rfl) kind
  rw [if_pos rfl] at count
  have start := restored.start
  rw [fresh_window, ← current kind] at start
  exact congrArg₂ Window.mk start count

end Counters

/-- Windows of each kind tile time: an instant lies in its own window, which is known from what the calendar and the
clock of UTC show and depends on no offset, and in no other. So whatever counters have come to while the clock did not
go back, the buckets they are written as at an instant are current then, and none is lost where they are restored. -/
theorem windows_tile_time :
    (∀ kind, Tiles kind) ∧
    ∀ (now : Instant) (c : Counters), c.Reached now →
      (∀ b ∈ (c.rolled now).buckets, Counters.Survives now b) ∧
      (Counters.fresh now).restore (c.rolled now).buckets now = c.rolled now :=
  ⟨tiles, fun _ _ reached => ⟨fun _ member => reached.survives member, reached.restore_own⟩⟩

/-- The last half millisecond before 1970, written at an offset of half an hour, and a bucket of its hour, written at
another; seven items were counted fifty minutes before. -/
theorem windows_tile_time_before_epoch :
    let now : Instant := ⟨-500000⟩
    let earlier : Instant := ⟨-3000000000000⟩
    let bucket : CounterBucket := ⟨.hour, ⟨⟨-3600000000000⟩, 330⟩, 7⟩
    let day : CounterBucket := ⟨.day, ⟨⟨-86400000000000⟩, 0⟩, 7⟩
    let c := ((Counters.fresh earlier).commit ⟨20, 50, 10⟩ 7 earlier).1
    Rfc3339.parse "1969-12-31T18:29:59.9995-05:30" = some ⟨now, -330⟩ ∧
      Rfc3339.parse "1970-01-01T04:30:00+05:30" = some bucket.windowStart ∧
      WindowKind.hour.start earlier ≤ WindowKind.hour.start now ∧ bucket.isCurrent now = true ∧
      Counters.Survives now day ∧ (Counters.fresh now).restore (c.rolled now).buckets now = c.rolled now ∧
      c.reading now = ⟨7, 7⟩ := by
  intro now earlier bucket day c
  obtain ⟨tile, keep⟩ := windows_tile_time
  have le : earlier ≤ now := by decide
  have aligned : bucket.Aligned := by decide
  have reached : c.Reached now := ((Counters.Reached.fresh earlier).committed ⟨20, 50, 10⟩ 7).later le
  obtain ⟨survive, restored⟩ := keep now c reached
  exact ⟨by decide, by decide, (tile .hour).mono earlier now le,
    ((tile .hour).current bucket rfl aligned now).mpr (by decide), survive day (by decide), restored, by decide⟩

end RelayRamp.Admission
