import RelayRamp.Proofs.Store.Contents
import RelayRamp.Proofs.Store.Rows

/-!
# What a store keeps of an instant

A store in memory gives a configuration back as it was saved. One in tables keeps whole milliseconds and drops the rest
of an instant toward the epoch: an instant after 1970 comes back as an earlier one, an instant before 1970 as a later
one, by less than a millisecond. Counted in whole days the first makes no difference, and the second costs a day when
the instant lies a number of days back exactly.
-/
namespace RelayRamp.Time

/-- The instant as tables give it back. -/
def Instant.kept (t : Instant) : Instant := ⟨t.millis * nanosPerMilli⟩

/-- The instant comes back from tables as a later one: it is before 1970 and not a whole millisecond. -/
def Instant.Delayed (t : Instant) : Prop := t.nanos < 0 ∧ ¬ nanosPerMilli ∣ t.nanos

def Stamp.kept (s : Stamp) : Stamp := s.instant.kept.stamp

namespace Instant

instance (t : Instant) : Decidable t.Delayed := inferInstanceAs (Decidable (_ ∧ _))

theorem millis_eq (t : Instant) :
    t.millis = t.nanos / nanosPerMilli + if 0 ≤ t.nanos ∨ nanosPerMilli ∣ t.nanos then 0 else 1 :=
  Int.tdiv_eq_ediv

theorem kept_delayed {t : Instant} (delayed : t.Delayed) :
    t.nanos < t.kept.nanos ∧ t.kept.nanos < t.nanos + nanosPerMilli := by
  obtain ⟨negative, broken⟩ := delayed
  have millis := t.millis_eq
  rw [if_neg fun forward => forward.elim (Int.not_le.mpr negative) broken] at millis
  simp only [kept, millis, nanosPerMilli] at *
  omega

theorem kept_undelayed {t : Instant} (undelayed : ¬ t.Delayed) :
    t.kept.nanos ≤ t.nanos ∧ t.nanos < t.kept.nanos + nanosPerMilli := by
  have forward : 0 ≤ t.nanos ∨ nanosPerMilli ∣ t.nanos := by
    by_cases before : 0 ≤ t.nanos
    · exact Or.inl before
    · exact Or.inr (Decidable.not_not.mp fun broken => undelayed ⟨Int.not_le.mp before, broken⟩)
  have millis := t.millis_eq
  rw [if_pos forward] at millis
  simp only [kept, millis, nanosPerMilli] at *
  omega

theorem daysSince_subDays (t : Instant) (days : Nat) : t.daysSince (t.subDays days) = days := by
  simp only [daysSince, subDays, addNanos, nanosPerDay, nanosPerSecond]
  omega

/-- Days counted from an instant that tables give back no later are the days counted from the instant. -/
theorem daysSince_undelayed (t : Instant) {days : Nat} (undelayed : ¬ (t.subDays days).Delayed) :
    t.daysSince (t.subDays days).kept = days := by
  have bounds := kept_undelayed undelayed
  simp only [daysSince, subDays, addNanos, nanosPerDay, nanosPerSecond, nanosPerMilli] at *
  omega

/-- From one that they give back later a day is missing, if there is any. -/
theorem daysSince_delayed (t : Instant) {days : Nat} (delayed : (t.subDays days).Delayed) :
    t.daysSince (t.subDays days).kept = days - 1 := by
  have bounds := kept_delayed delayed
  simp only [daysSince, subDays, addNanos, nanosPerDay, nanosPerSecond, nanosPerMilli] at *
  omega

end Instant

end RelayRamp.Time

namespace RelayRamp.Warmup

/-- The configuration as tables give it back. -/
def WarmupConfig.kept (config : WarmupConfig) : WarmupConfig :=
  { config with
    activation := config.activation.kept
    phaseOverride := config.phaseOverride.map fun o =>
      { o with effectiveActivation := o.effectiveActivation.kept, appliedAt := o.appliedAt.kept } }

end RelayRamp.Warmup

namespace RelayRamp.Store

open RelayRamp.Time RelayRamp.Warmup

/-! ### Reading a row back -/

theorem storedNat_inv {bound : Nat} {value : Int} {column : String} {n : Nat}
    (read : storedNat bound value column = .ok n) : (n : Int) = value := by
  unfold storedNat at read
  split at read
  · rename_i within
    cases read
    exact Int.toNat_of_nonneg within.1
  · cases read

theorem storedInstant_inv {t : Instant} {column : String} {s : Stamp}
    (read : storedInstant t.millis column = .ok s) : s = t.kept.stamp := by
  unfold storedInstant Instant.ofMillis? at read
  dsimp only at read
  by_cases storable : (⟨t.millis * nanosPerMilli⟩ : Instant).storable = true
  · rw [if_pos storable] at read
    cases read
    rfl
  · rw [if_neg storable] at read
    cases read

namespace ConfigRow

theorem readOverride_inv {phaseOverride read : Option PhaseOverride}
    (done : readOverride (phaseOverride.map fun o => (o.phaseNumber : Int))
      (phaseOverride.map fun o => o.effectiveActivation.instant.millis)
      (phaseOverride.map fun o => o.appliedAt.instant.millis) = .ok read) :
    read = phaseOverride.map fun o =>
      { o with effectiveActivation := o.effectiveActivation.kept, appliedAt := o.appliedAt.kept } := by
  cases phaseOverride with
  | none =>
    cases done
    rfl
  | some o =>
    simp only [Option.map_some, readOverride] at done
    obtain ⟨phase, number, done⟩ := ok_of_bind done
    obtain ⟨activation, shifted, done⟩ := ok_of_bind done
    obtain ⟨applied, since, done⟩ := ok_of_bind done
    cases done
    rw [storedInstant_inv shifted, storedInstant_inv since, Int.ofNat_inj.mp (storedNat_inv number)]
    rfl

/-- Whatever is read back from the row of a configuration is the configuration to the millisecond. -/
theorem toConfig_inv {config read : WarmupConfig} (done : (ofConfig config).toConfig = .ok read) :
    read = config.kept := by
  obtain ⟨enabled, flag, done⟩ := ok_of_bind done
  obtain ⟨activation, instant, done⟩ := ok_of_bind done
  obtain ⟨interval, minutes, done⟩ := ok_of_bind done
  obtain ⟨phase, number, done⟩ := ok_of_bind done
  obtain ⟨shifted, effective, done⟩ := ok_of_bind done
  obtain ⟨applied, since, done⟩ := ok_of_bind done
  obtain ⟨phaseOverride, overridden, done⟩ := ok_of_bind done
  obtain ⟨activation', stored, done⟩ := ok_of_bind done
  obtain ⟨interval', word, done⟩ := ok_of_bind done
  cases done
  have flag := Except.ok.inj ((Datum.toBool_bool 0 "enabled" config.enabled).symm.trans flag)
  have number := Except.ok.inj ((Datum.optional_integer config.phaseOverride _ 3 "override_phase").symm.trans number)
  have effective := Except.ok.inj
    ((Datum.optional_integer config.phaseOverride _ 4 "override_activation_ms").symm.trans effective)
  have since := Except.ok.inj
    ((Datum.optional_integer config.phaseOverride _ 5 "override_applied_ms").symm.trans since)
  subst flag number effective since
  cases instant
  cases minutes
  rw [readOverride_inv overridden, storedInstant_inv stored, Int.ofNat_inj.mp (storedNat_inv word)]
  rfl

end ConfigRow

/-! ### Saving a configuration -/

namespace Backing

/-- The store keeps instants to the millisecond only. -/
def rounds : Backing → Bool
  | memory _ => false
  | durable _ => true

/-- The configuration as the store gives it back. -/
def kept (s : Backing) (config : WarmupConfig) : WarmupConfig := if s.rounds then config.kept else config

theorem rounds_call {α : Type} (s : Backing) (c : StoreCall α) : (s.call c).2.rounds = s.rounds := by
  cases s <;> rfl

/-- A configuration that was saved is what the store gives back, and its phases are as they were. -/
theorem contents_saved {s : Backing} {config : WarmupConfig} (saved : (s.call (.saveConfig config)).1 = .ok ()) :
    (s.call (.saveConfig config)).2.contents.phases = s.contents.phases ∧
      ∀ read, (s.call (.saveConfig config)).2.contents.config = some read → read = s.kept config := by
  cases s with
  | memory store =>
    have done : store.call (.saveConfig config) = (.ok (), { store with config := some config }) := by
      unfold MemoryStore.call
      split
      · rename_i off
        simp [call, MemoryStore.call, off] at saved
      · rfl
    simp only [call, done]
    exact ⟨rfl, fun read same => (Option.some.inj same).symm⟩
  | durable store =>
    refine ⟨rfl, fun read same => ?_⟩
    have row : ((ConfigRow.ofConfig config).toConfig).toOption = some read := same
    exact ConfigRow.toConfig_inv (ok_of_toOption row)

end Backing

end RelayRamp.Store
