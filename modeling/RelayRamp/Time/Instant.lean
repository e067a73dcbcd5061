/-!
# Instants

An instant is a count of nanoseconds since the start of 1970 in UTC. A stamp is an instant together with the
offset it was written with; two stamps can name the same instant. Calendar dates follow the Gregorian
calendar in both directions.
-/
namespace RelayRamp.Time

structure Instant where
  nanos : Int
  deriving DecidableEq, Repr, Inhabited

def nanosPerMilli : Int := 1000000
def nanosPerSecond : Int := 1000000000
def nanosPerHour : Int := 3600 * nanosPerSecond
def nanosPerDay : Int := 86400 * nanosPerSecond

namespace Instant

instance : LE Instant := ⟨fun a b => a.nanos ≤ b.nanos⟩
instance : LT Instant := ⟨fun a b => a.nanos < b.nanos⟩
instance (a b : Instant) : Decidable (a ≤ b) := inferInstanceAs (Decidable (a.nanos ≤ b.nanos))
instance (a b : Instant) : Decidable (a < b) := inferInstanceAs (Decidable (a.nanos < b.nanos))

def addNanos (t : Instant) (n : Int) : Instant := ⟨t.nanos + n⟩

def addMillis (t : Instant) (ms : Int) : Instant := t.addNanos (ms * nanosPerMilli)

def subDays (t : Instant) (days : Nat) : Instant := t.addNanos (-(days * nanosPerDay))

/-- The last multiple of the span that is not after the instant. -/
def floorTo (t : Instant) (span : Int) : Instant := ⟨span * (t.nanos / span)⟩

/-- Whole milliseconds since the epoch, dropping the fraction toward it. -/
def millis (t : Instant) : Int := t.nanos.tdiv nanosPerMilli

/-- Whole 24-hour days from the start to the instant, zero when it lies before the start. -/
def daysSince (t start : Instant) : Nat := ((t.nanos - start.nanos) / nanosPerDay).toNat

end Instant

/-- A day of the Gregorian calendar. -/
structure Date where
  year : Int
  month : Nat
  day : Nat
  deriving DecidableEq, Repr

namespace Date

def isLeap (year : Int) : Bool :=
  year % 4 == 0 && (year % 100 != 0 || year % 400 == 0)

def daysInMonth (year : Int) (month : Nat) : Nat :=
  if month = 2 then (if isLeap year then 29 else 28)
  else if month = 4 ∨ month = 6 ∨ month = 9 ∨ month = 11 then 30
  else 31

/-- Days since the start of 1970. Years are counted from March, so that a leap day ends its year. -/
def toDays (d : Date) : Int :=
  let year := if d.month ≤ 2 then d.year - 1 else d.year
  let month : Int := if d.month ≤ 2 then d.month + 9 else d.month - 3
  365 * year + year / 4 - year / 100 + year / 400 + (153 * month + 2) / 5 + d.day - 1 - 719468

/-- The date that is the given number of days after the start of 1970. -/
def ofDays (days : Int) : Date :=
  let z := days + 719468
  let era := z / 146097
  let dayOfEra := z % 146097
  let yearOfEra := (dayOfEra - dayOfEra / 1460 + dayOfEra / 36524 - dayOfEra / 146096) / 365
  let dayOfYear := dayOfEra - (365 * yearOfEra + yearOfEra / 4 - yearOfEra / 100)
  let shifted := (5 * dayOfYear + 2) / 153
  let day := dayOfYear - (153 * shifted + 2) / 5 + 1
  let month := if shifted < 10 then shifted + 3 else shifted - 9
  let year := yearOfEra + era * 400 + (if month ≤ 2 then 1 else 0)
  ⟨year, month.toNat, day.toNat⟩

end Date

/-- An instant and the offset from UTC, in minutes, that it was written with. -/
structure Stamp where
  instant : Instant
  offset : Int
  deriving DecidableEq, Repr, Inhabited

/-- The stamp of an instant in UTC. -/
def Instant.stamp (t : Instant) : Stamp := ⟨t, 0⟩

/-- The instants that can be stored: years -9999 to 9999. -/
def Instant.storable (t : Instant) : Bool :=
  let first : Instant := ⟨(Date.mk (-9999) 1 1).toDays * nanosPerDay⟩
  let last : Instant := ⟨(Date.mk 10000 1 1).toDays * nanosPerDay⟩
  first ≤ t && t < last

/-- The instant with the given milliseconds since the epoch, if it can be stored. -/
def Instant.ofMillis? (ms : Int) : Option Instant :=
  let t : Instant := ⟨ms * nanosPerMilli⟩
  if t.storable then some t else none

end RelayRamp.Time
