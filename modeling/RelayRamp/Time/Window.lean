import RelayRamp.Time.Instant

/-!
# Counter windows

Fixed windows of an hour or a day, aligned in UTC. The window of an instant starts at the last multiple of
its length since the epoch, so windows of one kind tile time without gap or overlap.
-/
namespace RelayRamp.Time

inductive WindowKind where
  | hour
  | day
  deriving DecidableEq, Repr

namespace WindowKind

/-- Both kinds, in the order in which they are checked. -/
def all : List WindowKind := [.hour, .day]

def label : WindowKind → String
  | .hour => "hour"
  | .day => "day"

def ofLabel? : String → Option WindowKind
  | "hour" => some .hour
  | "day" => some .day
  | _ => none

/-- The length of a window in nanoseconds. -/
def span : WindowKind → Int
  | .hour => nanosPerHour
  | .day => nanosPerDay

def seconds : WindowKind → Nat
  | .hour => 3600
  | .day => 86400

/-- The start of the window that holds the instant. -/
def start (kind : WindowKind) (now : Instant) : Instant := now.floorTo kind.span

end WindowKind

/-- The stored count of one window. -/
structure CounterBucket where
  kind : WindowKind
  windowStart : Stamp
  count : Nat
  deriving DecidableEq, Repr

/-- The instant lies in the bucket's window. -/
def CounterBucket.isCurrent (b : CounterBucket) (now : Instant) : Bool :=
  b.windowStart.instant ≤ now && now < b.windowStart.instant.addNanos b.kind.span

/-- The counts of both windows at one instant. -/
structure CounterReading where
  hour : Nat
  day : Nat
  deriving DecidableEq, Repr

end RelayRamp.Time
