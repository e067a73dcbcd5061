import Mathlib.Data.Prod.Lex
import RelayRamp.Proofs.Admission.Budget
import RelayRamp.Proofs.Admission.Restart

/-!
# Commits to both windows

A check looks at both windows without moving them; a commit moves them and then decides. What an instant sees of a
window is what the window counts once it has moved there, so the two agree even when one window has passed and the
other has not, or when the clock is behind a window's start: a commit is a check, followed by the addition to both
windows if it passed.

No call moves a window back or takes anything from its count. By start first and then by count the windows only grow,
whatever the order of the instants at which they are used.
-/
namespace RelayRamp.Admission

open RelayRamp.Time RelayRamp.Warmup

/-- The limit of a phase for the window of a kind. -/
def limitOf (limits : PhaseLimits) : WindowKind → Nat
  | .hour => limits.maxPerHour
  | .day => limits.maxPerDay

/-- A window by its start, and by its count among those of one start. -/
def Window.rank (w : Window) : ℤ ×ₗ ℕ := toLex (w.start.nanos, w.count)

/-- A call of the counters: one of their uses, or the return of stored counts. -/
inductive CounterCall where
  | use (use : CounterUse)
  | restore (buckets : List CounterBucket)
  deriving DecidableEq, Repr

namespace Window

variable {kind : WindowKind} {now : Instant} {w w' : Window}

theorem Advances.rank_le (h : w.Advances kind now w') : w.rank ≤ w'.rank := by
  refine Prod.Lex.toLex_le_toLex.mpr ?_
  rcases h.moved with same | ⟨behind, there⟩
  · exact Or.inr ⟨congrArg Instant.nanos same.symm, h.grown same⟩
  · exact Or.inl (there ▸ behind)

/-- At an instant that is not past the window it stays where it is. -/
theorem Advances.stays (h : w.Advances kind now w') (back : kind.start now ≤ w.start) :
    w'.start = w.start ∧ w.count ≤ w'.count := by
  rcases h.moved with same | ⟨behind, -⟩
  · exact ⟨same, h.grown same⟩
  · exact absurd (Int.lt_of_lt_of_le behind back) (Int.lt_irrefl _)

theorem not_behind_roll (w : Window) (kind : WindowKind) (now : Instant) :
    ¬ (w.roll kind now).start < kind.start now := by
  unfold roll
  split
  · exact Int.lt_irrefl _
  · assumption

theorem observed_back (back : kind.start now ≤ w.start) : w.observed kind now = w.count :=
  if_neg (Int.not_lt.mpr back)

end Window

namespace Counters

variable {c : Counters} {limits : PhaseLimits} {amount : Nat} {now : Instant}

/-! ### A commit is a check and an addition -/

theorem reading_rolled (c : Counters) (now : Instant) : (c.rolled now).reading now = c.reading now := by
  simp only [reading, Window.observed_eq, rolled, Window.roll_roll]

/-- What an instant sees is what counters count that have moved to it. -/
theorem readingOf_reading_rolled (c : Counters) (now : Instant) (kind : WindowKind) :
    readingOf (c.reading now) kind = ((c.rolled now).window kind).count := by
  rw [Account.readingOf_reading, window_rolled, Window.observed_eq]

/-- It sees what is then added as well. -/
theorem readingOf_plus (c : Counters) (amount : Nat) (now : Instant) (kind : WindowKind) :
    readingOf (((c.rolled now).plus amount).reading now) kind = readingOf (c.reading now) kind + amount := by
  have there : ¬ ((c.rolled now).window kind).start < kind.start now := by
    rw [window_rolled]
    exact Window.not_behind_roll _ kind now
  rw [readingOf_reading_rolled c, Account.readingOf_reading, window_plus]
  exact if_neg there

theorem reading_ext {r s : CounterReading} (same : ∀ kind, readingOf r kind = readingOf s kind) : r = s := by
  cases r
  cases s
  exact congrArg₂ CounterReading.mk (same .hour) (same .day)

theorem commit_eq (c : Counters) (limits : PhaseLimits) (amount : Nat) (now : Instant) :
    c.commit limits amount now =
      match c.check limits amount now with
      | .ok seen => ((c.rolled now).plus amount, .ok ⟨seen.hour + amount, seen.day + amount⟩)
      | .error reason => (c.rolled now, .error reason) := by
  have hour : (c.rolled now).hour.count = (c.reading now).hour := (Window.observed_eq ..).symm
  have day : (c.rolled now).day.count = (c.reading now).day := (Window.observed_eq ..).symm
  rcases within_cases .hour (c.reading now).hour amount limits.maxPerHour with ⟨-, fits⟩ | refused
  · rcases within_cases .day (c.reading now).day amount limits.maxPerDay with ⟨-, fits'⟩ | refused
    · simp only [commit, check, plus, hour, day, fits, fits']
      rfl
    · simp only [commit, check, hour, day, fits, refused]
      rfl
  · simp only [commit, check, hour, refused]
    rfl

/-- A check answers as the commit does, with what is seen. -/
theorem check_eq (c : Counters) (limits : PhaseLimits) (amount : Nat) (now : Instant) :
    c.check limits amount now = (c.commit limits amount now).2.map fun _ => c.reading now := by
  rw [commit_eq]
  rcases c.check_cases limits amount now with ⟨-, passed⟩ | ⟨-, reason, -, refused⟩
  · rw [passed]
    rfl
  · rw [refused]
    rfl

theorem commit_ok {reading : CounterReading} (done : (c.commit limits amount now).2 = .ok reading) :
    (c.commit limits amount now).1 = (c.rolled now).plus amount ∧
      ∀ kind, readingOf reading kind = readingOf (c.reading now) kind + amount := by
  rw [commit_eq] at done ⊢
  rcases c.check_cases limits amount now with ⟨-, passed⟩ | ⟨-, reason, -, refused⟩
  · rw [passed] at done ⊢
    obtain rfl := Except.ok.inj done
    exact ⟨rfl, fun kind => by cases kind <;> rfl⟩
  · rw [refused] at done
    cases done

theorem commit_error {reason : HoldReason} (failed : (c.commit limits amount now).2 = .error reason) :
    (c.commit limits amount now).1 = c.rolled now := by
  rw [commit_eq] at failed ⊢
  rcases c.check_cases limits amount now with ⟨-, passed⟩ | ⟨-, reason, -, refused⟩
  · rw [passed] at failed
    cases failed
  · rw [refused]

theorem commit_ok_iff :
    (∃ reading, (c.commit limits amount now).2 = .ok reading) ↔ (c.rolled now).Fits amount limits := by
  rw [← check_ok_iff, check_eq]
  cases (c.commit limits amount now).2 with
  | ok reading => exact ⟨fun _ => ⟨_, rfl⟩, fun _ => ⟨_, rfl⟩⟩
  | error reason =>
    constructor
    · rintro ⟨_, passed⟩
      cases passed
    · rintro ⟨_, done⟩
      cases done

/-- The sums of long numbers are checked alike: one within its limit does not overflow. -/
theorem fits_iff (hour : limits.maxPerHour < Width.long) (day : limits.maxPerDay < Width.long) :
    (c.rolled now).Fits amount limits ↔
      ∀ kind, let sum := readingOf (c.reading now) kind + amount; sum < Width.long ∧ sum ≤ limitOf limits kind := by
  simp only [readingOf_reading_rolled]
  constructor
  · rintro fits (_ | _)
    · exact ⟨Nat.lt_of_le_of_lt fits.hour hour, fits.hour⟩
    · exact ⟨Nat.lt_of_le_of_lt fits.day day, fits.day⟩
  · exact fun sums => ⟨(sums .hour).2, (sums .day).2⟩

/-! ### Calls in any order -/

/-- The counters after a use. -/
def used (c : Counters) (now : Instant) : CounterUse → Counters
  | .increment kind amount limit => (c.increment kind amount limit now).1
  | .commit limits amount => (c.commit limits amount now).1
  | .check .. | .reading => c
  | .buckets => c.rolled now

/-- The counters of an account go the same way. -/
theorem use_counters (a : Account) (stamp : Stamp) (use : CounterUse) :
    (a.use stamp use).counters = a.counters.used stamp.instant use := by
  cases use with
  | commit limits amount =>
    simp only [Account.use, used]
    split <;> simp only [*]
  | increment | check | reading | buckets => rfl

/-- The counters after a call. -/
def called (c : Counters) (now : Instant) : CounterCall → Counters
  | .use use => c.used now use
  | .restore buckets => c.restore buckets now

def run (c : Counters) (calls : List (Instant × CounterCall)) : Counters :=
  calls.foldl (fun c call => c.called call.1 call.2) c

theorem used_advances (c : Counters) (now : Instant) (use : CounterUse) : c.Advances now (c.used now use) := by
  cases use with
  | increment kind amount limit => exact .increment c kind amount limit now
  | commit limits amount => exact .commit c limits amount now
  | check | reading => exact .refl c
  | buckets => exact .rolled c now

theorem called_advances (c : Counters) (now : Instant) (call : CounterCall) :
    c.Advances now (c.called now call) := by
  cases call with
  | use use => exact c.used_advances now use
  | restore buckets => exact .restore c buckets

theorem run_rank_le (c : Counters) (calls : List (Instant × CounterCall)) (kind : WindowKind) :
    (c.window kind).rank ≤ ((c.run calls).window kind).rank := by
  induction calls generalizing c with
  | nil => exact le_refl _
  | cons call rest ih => exact (c.called_advances call.1 call.2 kind).rank_le.trans (ih _)

/-- A window stays through calls at instants that are not past it. -/
theorem run_stays {calls : List (Instant × CounterCall)} {kind : WindowKind}
    (back : ∀ call ∈ calls, kind.start call.1 ≤ (c.window kind).start) :
    ((c.run calls).window kind).start = (c.window kind).start ∧
      (c.window kind).count ≤ ((c.run calls).window kind).count := by
  induction calls generalizing c with
  | nil => exact ⟨rfl, Nat.le_refl _⟩
  | cons call rest ih =>
    obtain ⟨start, count⟩ := (c.called_advances call.1 call.2 kind).stays (back call (List.mem_cons_self ..))
    have back' : ∀ later ∈ rest, kind.start later.1 ≤ ((c.called call.1 call.2).window kind).start :=
      fun later member => start ▸ back later (List.mem_cons_of_mem _ member)
    obtain ⟨start', count'⟩ := ih back'
    exact ⟨start'.trans start, Nat.le_trans count count'⟩

/-- A check in a run makes no difference to it. -/
theorem run_check (c : Counters) (before after : List (Instant × CounterCall)) (limits : PhaseLimits) (amount : Nat)
    (now : Instant) : c.run (before ++ (now, .use (.check limits amount)) :: after) = c.run (before ++ after) := by
  simp only [run, List.foldl_append, List.foldl_cons]
  rfl

/-- A commit to both windows is all or nothing. For all counters and limits of 64 bits, and at every instant, ahead of
the windows or behind: it succeeds just when in both windows the count that the instant sees and the amount have a sum
that does not overflow and is within the limit. It then leaves that sum in both windows, and answers it; else the
instant sees of both what it saw before. A check passes when the commit would, refuses for the same reason, and makes
no difference to the calls around it. Through calls at instants in any order no window goes back, by its start and its
count: while none of them is past a window it stays, its count does not get smaller, and such instants see all of
it. -/
theorem commit_paired {limits : PhaseLimits} (hour : limits.maxPerHour < Width.long)
    (day : limits.maxPerDay < Width.long) (c : Counters) (amount : Nat) (now : Instant) :
    let seen := readingOf (c.reading now)
    let next := (c.commit limits amount now).1
    let answer := (c.commit limits amount now).2
    ((∃ reading, answer = .ok reading) ↔
      ∀ kind, let sum := seen kind + amount; sum < Width.long ∧ sum ≤ limitOf limits kind) ∧
    (∀ reading, answer = .ok reading → reading = next.reading now ∧
      ∀ kind, readingOf reading kind = seen kind + amount ∧
        next.window kind = ⟨((c.window kind).roll kind now).start, seen kind + amount⟩) ∧
    (∀ reason, answer = .error reason → next.reading now = c.reading now ∧
      ∀ kind, next.window kind = (c.window kind).roll kind now) ∧
    c.check limits amount now = answer.map (fun _ => c.reading now) ∧
    (∀ before after, c.run (before ++ (now, .use (.check limits amount)) :: after) = c.run (before ++ after)) ∧
    ∀ calls kind,
      let w := c.window kind
      let w' := (c.run calls).window kind
      w.rank ≤ w'.rank ∧
        ((∀ call ∈ calls, kind.start call.1 ≤ w.start) → w'.start = w.start ∧ w.count ≤ w'.count ∧
          ∀ t, kind.start t ≤ w.start → readingOf ((c.run calls).reading t) kind = w'.count) := by
  intro seen next answer
  refine ⟨commit_ok_iff.trans (fits_iff hour day), fun reading done => ?_, fun reason failed => ?_,
    c.check_eq limits amount now, fun before after => c.run_check before after limits amount now,
    fun calls kind => ⟨c.run_rank_le calls kind, fun back => ?_⟩⟩
  · obtain ⟨(moved : next = _), sums⟩ := commit_ok done
    rw [moved]
    have both : reading = ((c.rolled now).plus amount).reading now :=
      reading_ext fun kind => (sums kind).trans (c.readingOf_plus amount now kind).symm
    refine ⟨both, fun kind => ⟨sums kind, ?_⟩⟩
    rw [window_plus, ← readingOf_reading_rolled, window_rolled]
  · have moved : next = c.rolled now := commit_error failed
    rw [moved]
    exact ⟨c.reading_rolled now, fun kind => c.window_rolled kind now⟩
  · obtain ⟨start, count⟩ := run_stays back
    refine ⟨start, count, fun t behind => ?_⟩
    rw [Account.readingOf_reading]
    exact Window.observed_back (start ▸ behind)

/-- An hour whose window is ahead of the clock, and a day near the end of its numbers: three fit both, at an instant
before that hour began. Ten fit the hour after it, but not the day, whose sum would overflow. -/
theorem commit_paired_behind :
    let minute (n : Int) : Instant := ⟨n * 60000000000⟩
    let limits : PhaseLimits := ⟨10, Width.long - 1, 0⟩
    let c : Counters := ⟨⟨minute 120, 7⟩, ⟨minute 0, Width.long - 6⟩⟩
    limits.maxPerHour < Width.long ∧ limits.maxPerDay < Width.long ∧
      c.commit limits 3 (minute 90) =
        (⟨⟨minute 120, 10⟩, ⟨minute 0, Width.long - 3⟩⟩, .ok ⟨10, Width.long - 3⟩) ∧
      c.check limits 3 (minute 90) = .ok ⟨7, Width.long - 6⟩ ∧
      c.check limits 10 (minute 180) = .error (.capacityExceeded .day (Width.long - 6) 10 (Width.long - 1)) ∧
      (c.commit limits 10 (minute 180)).1.reading (minute 180) = ⟨0, Width.long - 6⟩ ∧
      let later := c.run [(minute 90, .use (.commit limits 3)), (minute 30, .use .buckets)]
      (later.window .hour).start = minute 120 ∧ readingOf (later.reading (minute 59)) .hour = 10 := by
  intro minute limits c
  have hour : limits.maxPerHour < Width.long := by decide
  have day : limits.maxPerDay < Width.long := by decide
  obtain ⟨-, -, -, checked, -, runs⟩ := commit_paired hour day c 3 (minute 90)
  obtain ⟨-, -, refused, checked', -, -⟩ := commit_paired hour day c 10 (minute 180)
  have answered : (c.commit limits 10 (minute 180)).2 =
      .error (.capacityExceeded .day (Width.long - 6) 10 (Width.long - 1)) := by decide +kernel
  obtain ⟨start, -, seen⟩ := (runs [(minute 90, .use (.commit limits 3)), (minute 30, .use .buckets)] .hour).2
    (by decide +kernel)
  refine ⟨hour, day, by decide +kernel, checked.trans (by decide +kernel), ?_, ?_, start, ?_⟩
  · rw [checked', answered]
    rfl
  · exact (refused _ answered).1.trans (by decide +kernel)
  · exact (seen (minute 59) (by decide +kernel)).trans (by decide +kernel)

end Counters

end RelayRamp.Admission
