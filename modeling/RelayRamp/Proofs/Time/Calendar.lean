import RelayRamp.Time.Window

/-!
# Calendar and clock

Every day since the start of 1970, or before it, has its own date. So a stamp is known from what a calendar and a clock
show at its offset, and the window that holds an instant begins where the calendar and the clock of UTC show its date,
its hour if windows are hours, and nothing beyond.
-/
namespace RelayRamp.Time

namespace Date

/-- The days of an era up to a day of it, without the leap days. An era is 400 years. -/
def unleaped (day : Int) : Int := day - day / 1460 + day / 36524 - day / 146096

/-- The day of an era with which a year begins that is counted from March. -/
def yearStart (year : Int) : Int := 365 * year + year / 4 - year / 100

theorem unleaped_mono {a b : Int} (le : a ≤ b) : unleaped a ≤ unleaped b := by
  unfold unleaped
  omega

theorem unleaped_yearStart : ∀ year : Nat, year < 400 →
    (0 < year → unleaped (yearStart year - 1) < 365 * year) ∧ 365 * (year : Int) ≤ unleaped (yearStart year) := by
  decide +kernel

/-- The year that is computed for a day of an era has begun by that day, and no more than 365 days before it. -/
theorem year_of_day (day : Int) (first : 0 ≤ day) (last : day < 146097) :
    0 ≤ unleaped day / 365 ∧ unleaped day / 365 < 400 ∧
      yearStart (unleaped day / 365) ≤ day ∧ day ≤ yearStart (unleaped day / 365) + 365 := by
  have within : 0 ≤ unleaped day / 365 ∧ unleaped day / 365 < 400 := by
    unfold unleaped
    omega
  have low : 365 * (unleaped day / 365) ≤ unleaped day := by omega
  have high : unleaped day < 365 * (unleaped day / 365 + 1) := by omega
  generalize unleaped day / 365 = year at *
  refine ⟨within.1, within.2, Int.not_lt.mp fun earlier => ?_, Int.not_lt.mp fun later => ?_⟩
  · obtain ⟨n, rfl⟩ := Int.eq_ofNat_of_zero_le within.1
    obtain ⟨before, -⟩ := unleaped_yearStart n (by omega)
    have le := unleaped_mono (show day ≤ yearStart n - 1 by omega)
    unfold yearStart at *
    omega
  · obtain ⟨n, next⟩ := Int.eq_ofNat_of_zero_le (show 0 ≤ year + 1 by omega)
    obtain ⟨-, reached⟩ := unleaped_yearStart n (by unfold yearStart at later; omega)
    have le := unleaped_mono (show yearStart n ≤ day by unfold yearStart at *; omega)
    omega

/-- The date of a day is that day. -/
theorem toDays_ofDays (days : Int) : (ofDays days).toDays = days := by
  have eras : days + 719468 = 146097 * ((days + 719468) / 146097) + (days + 719468) % 146097 := by omega
  have placed := year_of_day ((days + 719468) % 146097) (by omega) (by omega)
  have numbered (day : Int) : (day - day / 1460 + day / 36524 - day / 146096) / 365 = unleaped day / 365 := rfl
  simp only [ofDays, toDays, numbered]
  generalize (days + 719468) / 146097 = era at *
  generalize (days + 719468) % 146097 = dayOfEra at *
  generalize unleaped dayOfEra / 365 = year at *
  unfold yearStart at placed
  generalize ofYear : dayOfEra - (365 * year + year / 4 - year / 100) = day
  have months : 0 ≤ (5 * day + 2) / 153 ∧ (5 * day + 2) / 153 ≤ 11 ∧ (153 * ((5 * day + 2) / 153) + 2) / 5 ≤ day := by
    omega
  generalize (5 * day + 2) / 153 = month at *
  have years : (year + era * 400) / 4 = year / 4 + era * 100 ∧ (year + era * 400) / 100 = year / 100 + era * 4 ∧
      (year + era * 400) / 400 = era := by omega
  have dayOfMonth : ((day - (153 * month + 2) / 5 + 1).toNat : Int) = day - (153 * month + 2) / 5 + 1 :=
    Int.toNat_of_nonneg (by omega)
  -- Months are counted from March; the last two belong to the next year of the calendar.
  by_cases early : month < 10
  · have number : ((month + 3).toNat : Int) = month + 3 := Int.toNat_of_nonneg (by omega)
    have later : ¬ month + 3 ≤ 2 ∧ ¬ (month + 3).toNat ≤ 2 := by omega
    simp only [early, if_true, later, if_false, number, dayOfMonth, Int.add_zero, Int.add_sub_cancel, years]
    omega
  · have number : ((month - 9).toNat : Int) = month - 9 := Int.toNat_of_nonneg (by omega)
    have later : month - 9 ≤ 2 ∧ (month - 9).toNat ≤ 2 := by omega
    simp only [early, if_false, later, if_true, number, dayOfMonth, Int.sub_add_cancel, Int.add_sub_cancel, years]
    omega

theorem ofDays_inj {a b : Int} : ofDays a = ofDays b ↔ a = b := by
  constructor
  · intro same
    have days := congrArg toDays same
    rwa [toDays_ofDays, toDays_ofDays] at days
  · exact congrArg ofDays

end Date

/-- What a calendar and a clock show. -/
structure Civil where
  date : Date
  hour : Int
  minute : Int
  second : Int
  nano : Int
  deriving DecidableEq, Repr

/-- What they show at the offset of the stamp. -/
def Stamp.civil (s : Stamp) : Civil :=
  let wall := s.instant.nanos + s.offset * 60 * nanosPerSecond
  { date := .ofDays (wall / nanosPerDay)
    hour := wall % nanosPerDay / nanosPerHour
    minute := wall % nanosPerHour / (60 * nanosPerSecond)
    second := wall % (60 * nanosPerSecond) / nanosPerSecond
    nano := wall % nanosPerSecond }

namespace Civil

/-- The stamp at which they show this at the offset. -/
def stamp (c : Civil) (offset : Int) : Stamp where
  instant := ⟨c.date.toDays * nanosPerDay + c.hour * nanosPerHour + c.minute * (60 * nanosPerSecond) +
    c.second * nanosPerSecond + c.nano - offset * 60 * nanosPerSecond⟩
  offset := offset

/-- Without what is smaller than a window. -/
def truncated (kind : WindowKind) (c : Civil) : Civil :=
  match kind with
  | .hour => { c with minute := 0, second := 0, nano := 0 }
  | .day => { c with hour := 0, minute := 0, second := 0, nano := 0 }

/-- The same date, and the same hour if windows are hours. -/
def SameWindow (kind : WindowKind) (c d : Civil) : Prop := c.date = d.date ∧ (kind = .hour → c.hour = d.hour)

theorem stamp_civil (s : Stamp) : s.civil.stamp s.offset = s := by
  obtain ⟨⟨nanos⟩, offset⟩ := s
  simp only [stamp, Stamp.civil, Date.toDays_ofDays, Stamp.mk.injEq, Instant.mk.injEq, and_true, nanosPerDay,
    nanosPerHour, nanosPerSecond]
  omega

end Civil

namespace WindowKind

/-- A window begins where UTC shows nothing beyond it. -/
theorem start_eq_truncated (kind : WindowKind) (now : Instant) :
    (kind.start now).stamp = (now.stamp.civil.truncated kind).stamp 0 := by
  cases kind <;>
  · simp only [Instant.stamp, Stamp.civil, Civil.truncated, Civil.stamp, Date.toDays_ofDays, start, span,
      Instant.floorTo, Stamp.mk.injEq, Instant.mk.injEq, and_true, nanosPerDay, nanosPerHour, nanosPerSecond]
    omega

/-- Instants lie in one window when UTC shows them the same date and, if windows are hours, the same hour. -/
theorem start_eq_iff_sameWindow (kind : WindowKind) (a b : Instant) :
    kind.start a = kind.start b ↔ a.stamp.civil.SameWindow kind b.stamp.civil := by
  cases kind <;>
  · simp only [Civil.SameWindow, Instant.stamp, Stamp.civil, Date.ofDays_inj, start, span, Instant.floorTo,
      Instant.mk.injEq, reduceCtorEq, false_implies, true_implies, and_true, nanosPerDay, nanosPerHour, nanosPerSecond]
    omega

end WindowKind

end RelayRamp.Time
