import RelayRamp.Admission.Verdict
import RelayRamp.Warmup.Phase

/-!
# Rolling counters

One fixed window per kind. A window moves forward, and its count back to zero, when an instant past its end is
used; it never moves backward. A commit to both windows changes both or neither. Limits fit 64 bits, so a sum
that stays within its limit fits them too.
-/
namespace RelayRamp.Admission

open RelayRamp.Time RelayRamp.Warmup

structure Window where
  start : Instant
  count : Nat
  deriving DecidableEq, Repr

namespace Window

/-- The window moved forward to the instant. -/
def roll (w : Window) (kind : WindowKind) (now : Instant) : Window :=
  if w.start < kind.start now then ⟨kind.start now, 0⟩ else w

/-- The count that an instant sees. -/
def observed (w : Window) (kind : WindowKind) (now : Instant) : Nat :=
  if w.start < kind.start now then 0 else w.count

end Window

/-- The result of adding to one window. -/
structure Increment where
  committed : Bool
  current : Nat
  deriving DecidableEq, Repr

/-- The count with the amount added, unless that passes the limit. -/
def within (kind : WindowKind) (current amount limit : Nat) : Except HoldReason Nat :=
  if current + amount ≤ limit then .ok (current + amount)
  else .error (.capacityExceeded kind current amount limit)

structure Counters where
  hour : Window
  day : Window
  deriving DecidableEq, Repr

namespace Counters

/-- Counters at zero, aligned to the instant. -/
def fresh (now : Instant) : Counters :=
  ⟨⟨WindowKind.hour.start now, 0⟩, ⟨WindowKind.day.start now, 0⟩⟩

def window (c : Counters) : WindowKind → Window
  | .hour => c.hour
  | .day => c.day

def withWindow (c : Counters) (kind : WindowKind) (w : Window) : Counters :=
  match kind with
  | .hour => { c with hour := w }
  | .day => { c with day := w }

/-- Both windows moved forward to the instant. -/
def rolled (c : Counters) (now : Instant) : Counters :=
  ⟨c.hour.roll .hour now, c.day.roll .day now⟩

/-- Takes over one stored count if its window is current; a live count never gets smaller. -/
def restoreBucket (now : Instant) (c : Counters) (bucket : CounterBucket) : Counters :=
  if bucket.isCurrent now then
    let w := (c.window bucket.kind).roll bucket.kind now
    let count := if w.start = bucket.windowStart.instant then max w.count bucket.count else w.count
    c.withWindow bucket.kind { w with count := count }
  else c

def restore (c : Counters) (buckets : List CounterBucket) (now : Instant) : Counters :=
  buckets.foldl (restoreBucket now) c

/-- Adds to one window if the limit allows it. -/
def increment (c : Counters) (kind : WindowKind) (amount limit : Nat) (now : Instant) :
    Counters × Increment :=
  let w := (c.window kind).roll kind now
  match within kind w.count amount limit with
  | .ok next => (c.withWindow kind { w with count := next }, ⟨true, next⟩)
  | .error _ => (c.withWindow kind w, ⟨false, w.count⟩)

def reading (c : Counters) (now : Instant) : CounterReading :=
  ⟨c.hour.observed .hour now, c.day.observed .day now⟩

/-- What both windows hold now if the amount fits both; else the first window that it does not fit. -/
def check (c : Counters) (limits : PhaseLimits) (amount : Nat) (now : Instant) :
    Except HoldReason CounterReading := do
  let seen := c.reading now
  let _ ← within .hour seen.hour amount limits.maxPerHour
  let _ ← within .day seen.day amount limits.maxPerDay
  pure seen

/-- Adds to both windows, or to neither. -/
def commit (c : Counters) (limits : PhaseLimits) (amount : Nat) (now : Instant) :
    Counters × Except HoldReason CounterReading :=
  let c := c.rolled now
  match within .hour c.hour.count amount limits.maxPerHour with
  | .error reason => (c, .error reason)
  | .ok hour =>
    match within .day c.day.count amount limits.maxPerDay with
    | .error reason => (c, .error reason)
    | .ok day => (⟨{ c.hour with count := hour }, { c.day with count := day }⟩, .ok ⟨hour, day⟩)

/-- The windows to be stored, after moving them to the instant. -/
def buckets (c : Counters) : List CounterBucket :=
  WindowKind.all.map fun kind => ⟨kind, (c.window kind).start.stamp, (c.window kind).count⟩

end Counters

end RelayRamp.Admission
