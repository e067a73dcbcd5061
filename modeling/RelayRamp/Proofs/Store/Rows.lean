import RelayRamp.Proofs.Store.Effects
import RelayRamp.Width

/-!
# Rows

What is written into a row is read back from it if it can be stored: a number by its width, and an instant if it is a
whole millisecond in UTC. A configuration has one row, and phases have a row each, in the order of their numbers.
-/
namespace RelayRamp.Time

/-- The stamp is a whole number of milliseconds in UTC. -/
structure Stamp.Whole (s : Stamp) : Prop where
  utc : s.offset = 0
  millis : s.instant.nanos = nanosPerMilli * s.instant.millis

/-- Nothing of the stamp is lost when it is stored. -/
structure Stamp.Storable (s : Stamp) : Prop extends s.Whole where
  within : s.instant.storable = true

end RelayRamp.Time

namespace RelayRamp.Warmup

structure PhaseOverride.Storable (o : PhaseOverride) : Prop where
  phaseNumber : o.phaseNumber < Width.word
  effectiveActivation : o.effectiveActivation.Storable
  appliedAt : o.appliedAt.Storable

structure WarmupConfig.Storable (config : WarmupConfig) : Prop where
  activation : config.activation.Storable
  interval : config.batchIntervalMinutes < Width.word
  phaseOverride : ∀ o, config.phaseOverride = some o → o.Storable

structure WarmupPhase.Storable (phase : WarmupPhase) : Prop where
  number : phase.number < Width.word
  durationDays : phase.durationDays < Width.word
  maxPerHour : phase.limits.maxPerHour < Width.signed
  maxPerDay : phase.limits.maxPerDay < Width.signed
  burst : phase.limits.burst < Width.signed

end RelayRamp.Warmup

namespace RelayRamp.Store

open RelayRamp.Time RelayRamp.Warmup

/-! ### Values -/

theorem storedNat_of_lt {bound n : Nat} (fits : n < bound) (column : String) :
    storedNat bound n column = .ok n := by
  have within : 0 ≤ (n : Int) ∧ (n : Int) < bound := ⟨Int.natCast_nonneg n, Int.ofNat_lt.mpr fits⟩
  rw [storedNat, if_pos within, Int.toNat_natCast]

theorem storedWord_of_lt {n : Nat} (fits : n < Width.word) (column : String) : storedWord n column = .ok n :=
  storedNat_of_lt fits column

theorem storedLong_of_lt {n : Nat} (fits : n < Width.long) (column : String) : storedLong n column = .ok n :=
  storedNat_of_lt fits column

/-- The refusal of a number that does not fit. -/
def tooLarge (n : Nat) (field : String) : StoreFault := ⟨.invalid, s!"{field} too large: {n}"⟩

theorem inputInteger_eq (n : Nat) (field : String) : inputInteger n field =
    if n < Width.signed then .ok (n : Int) else .error (tooLarge n field) := rfl

theorem inputInteger_of_lt {n : Nat} (fits : n < Width.signed) (field : String) : inputInteger n field = .ok (n : Int) := by
  rw [inputInteger_eq, if_pos fits]

theorem storedInstant_of_whole {s : Stamp} (whole : s.Whole) (column : String) :
    storedInstant s.instant.millis column =
      if s.instant.storable = true then .ok s else .error (outOfRange s.instant.millis column) := by
  have nanos : (⟨s.instant.millis * nanosPerMilli⟩ : Instant) = s.instant := by
    rw [Int.mul_comm, ← whole.millis]
  have stamp : s.instant.stamp = s := by
    rw [Instant.stamp, ← whole.utc]
  simp only [storedInstant, Instant.ofMillis?, nanos]
  by_cases storable : s.instant.storable = true
  · simp only [storable, if_true, stamp]
  · simp only [storable, if_false, Bool.false_eq_true]

theorem storedInstant_of_storable {s : Stamp} (storable : s.Storable) (column : String) :
    storedInstant s.instant.millis column = .ok s := by
  rw [storedInstant_of_whole storable.toWhole, if_pos storable.within]

theorem Datum.toBool_bool (index : Nat) (column : String) (b : Bool) : (Datum.bool b).toBool index column = .ok b := by
  cases b <;> rfl

theorem Datum.optional_integer {α : Type} (value : Option α) (number : α → Int) (index : Nat) (column : String) :
    (Datum.orNull (value.map fun a => .integer (number a))).optional Datum.toInteger index column =
      .ok (value.map number) := by
  cases value <;> rfl

theorem Datum.optional_text (value : Option String) (index : Nat) (column : String) :
    (Datum.orNull (value.map .text)).optional Datum.toText index column = .ok value := by
  cases value <;> rfl

/-! ### Configurations -/

namespace ConfigRow

theorem readOverride_written {phaseOverride : Option PhaseOverride} (storable : ∀ o, phaseOverride = some o → o.Storable) :
    readOverride (phaseOverride.map fun o => (o.phaseNumber : Int))
      (phaseOverride.map fun o => o.effectiveActivation.instant.millis)
      (phaseOverride.map fun o => o.appliedAt.instant.millis) = .ok phaseOverride := by
  cases phaseOverride with
  | none => rfl
  | some o =>
    have fits := storable o rfl
    have phase := storedWord_of_lt fits.phaseNumber "override_phase"
    have activation := storedInstant_of_storable fits.effectiveActivation "override_activation_ms"
    have applied := storedInstant_of_storable fits.appliedAt "override_applied_ms"
    simp only [Option.map_some, readOverride]
    rw [phase, ok_bind, activation, ok_bind, applied, ok_bind]
    rfl

/-- A configuration is read back from its row. -/
theorem toConfig_ofConfig {c : WarmupConfig} (storable : c.Storable) : (ofConfig c).toConfig = .ok c := by
  have enabled : (ofConfig c).enabled.toBool 0 "enabled" = .ok c.enabled := Datum.toBool_bool ..
  have millis : (ofConfig c).activation.toInteger 1 "activation_ms" = .ok c.activation.instant.millis := rfl
  have minutes : (ofConfig c).interval.toInteger 2 "batch_interval_minutes" = .ok c.batchIntervalMinutes := rfl
  have phase : (ofConfig c).overridePhase.optional Datum.toInteger 3 "override_phase" =
      .ok (c.phaseOverride.map fun o => (o.phaseNumber : Int)) := Datum.optional_integer ..
  have shifted : (ofConfig c).overrideActivation.optional Datum.toInteger 4 "override_activation_ms" =
      .ok (c.phaseOverride.map fun o => o.effectiveActivation.instant.millis) := Datum.optional_integer ..
  have applied : (ofConfig c).overrideApplied.optional Datum.toInteger 5 "override_applied_ms" =
      .ok (c.phaseOverride.map fun o => o.appliedAt.instant.millis) := Datum.optional_integer ..
  have activation := storedInstant_of_storable storable.activation "activation_ms"
  have interval := storedWord_of_lt storable.interval "batch_interval_minutes"
  unfold toConfig
  rw [enabled, ok_bind, millis, ok_bind, minutes, ok_bind, phase, ok_bind, shifted, ok_bind, applied, ok_bind,
    readOverride_written storable.phaseOverride, ok_bind, activation, ok_bind, interval, ok_bind]
  rfl

end ConfigRow

/-! ### Phases -/

namespace PhaseRow

/-- The row of a phase. -/
def entry (p : WarmupPhase) : PhaseRow :=
  { number := p.number
    name := .text p.name
    durationDays := .integer p.durationDays
    maxPerHour := .integer p.limits.maxPerHour
    maxPerDay := .integer p.limits.maxPerDay
    burst := .integer p.limits.burst }

variable {p : WarmupPhase}

theorem ofPhase_entry (storable : p.Storable) : ofPhase p = .ok (entry p) := by
  have hour := inputInteger_of_lt storable.maxPerHour "max_per_hour"
  have day := inputInteger_of_lt storable.maxPerDay "max_per_day"
  have burst := inputInteger_of_lt storable.burst "burst_limit"
  unfold ofPhase
  rw [hour, ok_bind, day, ok_bind, burst, ok_bind]
  rfl

/-- A phase is read back from its row. -/
theorem toPhase_entry (storable : p.Storable) : (entry p).toPhase = .ok p := by
  have long {n : Nat} (fits : n < Width.signed) : n < Width.long := Nat.lt_trans fits (by decide)
  have name : (entry p).name.toText 1 "name" = .ok p.name := rfl
  have days : (entry p).durationDays.toInteger 2 "duration_days" = .ok p.durationDays := rfl
  have hour : (entry p).maxPerHour.toInteger 3 "max_per_hour" = .ok p.limits.maxPerHour := rfl
  have day : (entry p).maxPerDay.toInteger 4 "max_per_day" = .ok p.limits.maxPerDay := rfl
  have burst : (entry p).burst.toInteger 5 "burst_limit" = .ok p.limits.burst := rfl
  have number_fits : storedWord (entry p).number "phase_number" = .ok p.number := storedWord_of_lt storable.number _
  have days_fit := storedWord_of_lt storable.durationDays "duration_days"
  have hour_fits := storedLong_of_lt (long storable.maxPerHour) "max_per_hour"
  have day_fits := storedLong_of_lt (long storable.maxPerDay) "max_per_day"
  have burst_fits := storedLong_of_lt (long storable.burst) "burst_limit"
  unfold toPhase
  rw [name, ok_bind, days, ok_bind, hour, ok_bind, day, ok_bind, burst, ok_bind, number_fits, ok_bind, days_fit, ok_bind,
    hour_fits, ok_bind, day_fits, ok_bind, burst_fits, ok_bind]
  rfl

/-- A row whose number is free goes where its phase goes. -/
theorem insert_entry {phases : List WarmupPhase} (free : ∀ q ∈ phases, q.number ≠ p.number) :
    insert (entry p) (phases.map entry) = .ok ((MemoryStore.putPhase p phases).map entry) := by
  induction phases with
  | nil => rfl
  | cons q rest ih =>
    obtain ⟨apart, free⟩ := List.forall_mem_cons.mp free
    have different : (entry q).number ≠ (entry p).number := fun same => apart (Int.ofNat.inj same)
    rw [List.map_cons, insert, if_neg different, MemoryStore.putPhase, if_neg apart, ih free]
    by_cases before : p.number < q.number
    · have before' : (entry p).number < (entry q).number := Int.ofNat_lt.mpr before
      rw [if_pos before', if_pos before]
      rfl
    · have after : ¬ (entry p).number < (entry q).number := fun lt => before (Int.ofNat_lt.mp lt)
      rw [if_neg after, if_neg before]
      rfl

theorem mem_putPhase {phases : List WarmupPhase} (free : ∀ q ∈ phases, q.number ≠ p.number) (x : WarmupPhase) :
    x ∈ MemoryStore.putPhase p phases ↔ x = p ∨ x ∈ phases := by
  induction phases with
  | nil => simp [MemoryStore.putPhase]
  | cons q rest ih =>
    obtain ⟨apart, free⟩ := List.forall_mem_cons.mp free
    rw [MemoryStore.putPhase, if_neg apart]
    split
    · exact List.mem_cons
    · rw [List.mem_cons, ih free, List.mem_cons, or_left_comm]

end PhaseRow

namespace DurableStore

/-- Phases whose numbers are free are put in one after another, as in memory. -/
theorem foldlM_insert {phases placed : List WarmupPhase} (storable : ∀ p ∈ phases, p.Storable)
    (distinct : phases.Pairwise (·.number ≠ ·.number)) (free : ∀ q ∈ placed, ∀ p ∈ phases, q.number ≠ p.number) :
    phases.foldlM (fun rows phase => do (← PhaseRow.ofPhase phase).insert rows) (placed.map PhaseRow.entry) =
        .ok ((phases.foldl (fun ps p => MemoryStore.putPhase p ps) placed).map PhaseRow.entry) ∧
      ∀ x, x ∈ phases.foldl (fun ps p => MemoryStore.putPhase p ps) placed ↔ x ∈ placed ∨ x ∈ phases := by
  induction phases generalizing placed with
  | nil => exact ⟨rfl, fun x => by simp⟩
  | cons p rest ih =>
    obtain ⟨first, others⟩ := List.forall_mem_cons.mp storable
    obtain ⟨apart, distinct⟩ := List.pairwise_cons.mp distinct
    have unused : ∀ q ∈ placed, q.number ≠ p.number := fun q member => free q member p (List.mem_cons_self ..)
    have free' : ∀ q ∈ MemoryStore.putPhase p placed, ∀ r ∈ rest, q.number ≠ r.number := by
      intro q member r later
      rcases (PhaseRow.mem_putPhase unused q).mp member with rfl | old
      · exact apart r later
      · exact free q old r (List.mem_cons_of_mem _ later)
    obtain ⟨rows, members⟩ := ih others distinct free'
    constructor
    · rw [List.foldlM_cons, PhaseRow.ofPhase_entry first, ok_bind, PhaseRow.insert_entry unused, ok_bind]
      exact rows
    · intro x
      rw [List.foldl_cons, members x, PhaseRow.mem_putPhase unused, List.mem_cons, or_assoc, or_left_comm]

/-- A whole table of phases has the rows of the phases that a store in memory keeps. -/
theorem phaseRows_eq {phases : List WarmupPhase} (storable : ∀ p ∈ phases, p.Storable)
    (distinct : phases.Pairwise (·.number ≠ ·.number)) :
    phaseRows phases = .ok ((phases.foldl (fun ps p => MemoryStore.putPhase p ps) []).map PhaseRow.entry) := by
  have free : ∀ q ∈ ([] : List WarmupPhase), ∀ p ∈ phases, q.number ≠ p.number := nofun
  exact (foldlM_insert storable distinct free).1

theorem mem_placed {phases : List WarmupPhase} (storable : ∀ p ∈ phases, p.Storable)
    (distinct : phases.Pairwise (·.number ≠ ·.number)) (x : WarmupPhase) :
    x ∈ phases.foldl (fun ps p => MemoryStore.putPhase p ps) [] ↔ x ∈ phases := by
  have free : ∀ q ∈ ([] : List WarmupPhase), ∀ p ∈ phases, q.number ≠ p.number := nofun
  rw [(foldlM_insert storable distinct free).2 x]
  simp

end DurableStore

end RelayRamp.Store
