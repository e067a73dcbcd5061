import RelayRamp.Proofs.Store.Rounding

/-!
# The stored configuration, part by part

A store in memory holds a configuration as it was saved, one in tables as a row. Tables keep less than was saved, but
what they gave back once they give back again: a configuration that was read from a row and is written without a change
to a part leaves the columns of that part as they were.
-/
namespace RelayRamp.Store

open RelayRamp.Time RelayRamp.Warmup

/-! ### Rows that were read -/

theorem storedNat_within {bound : Nat} {value : Int} {column : String} {n : Nat}
    (read : storedNat bound value column = .ok n) : n < bound := by
  have same := storedNat_inv read
  unfold storedNat at read
  split at read
  · rename_i within
    rw [← same] at within
    exact Int.ofNat_lt.mp within.2
  · cases read

theorem storedInstant_read {value : Int} {column : String} {s : Stamp} (read : storedInstant value column = .ok s) :
    s.instant.millis = value ∧ s.Storable := by
  simp only [storedInstant, Instant.ofMillis?] at read
  by_cases storable : (⟨value * nanosPerMilli⟩ : Instant).storable = true
  · rw [if_pos storable] at read
    cases read
    have whole : (⟨value * nanosPerMilli⟩ : Instant).millis = value := Int.mul_tdiv_cancel value (by decide)
    refine ⟨whole, ⟨rfl, ?_⟩, storable⟩
    show value * nanosPerMilli = nanosPerMilli * (⟨value * nanosPerMilli⟩ : Instant).millis
    rw [whole, Int.mul_comm]
  · rw [if_neg storable] at read
    cases read

theorem Datum.toInteger_inv {d : Datum} {index : Nat} {column : String} {n : Int}
    (read : d.toInteger index column = .ok n) : d = .integer n := by
  cases d with
  | integer value =>
    cases read
    rfl
  | null | real | text => cases read

theorem Datum.optional_inv {d : Datum} {index : Nat} {column : String} {n : Option Int}
    (read : d.optional Datum.toInteger index column = .ok n) : d = .orNull (n.map .integer) := by
  cases d with
  | null =>
    cases read
    rfl
  | integer value =>
    cases read
    rfl
  | real | text => cases read

namespace ConfigRow

theorem readOverride_read {phase shifted applied : Option Int} {o : Option PhaseOverride}
    (read : readOverride phase shifted applied = .ok o) :
    phase = o.map (fun o => (o.phaseNumber : Int)) ∧ shifted = o.map (·.effectiveActivation.instant.millis) ∧
      applied = o.map (·.appliedAt.instant.millis) ∧ ∀ p, o = some p → p.Storable := by
  unfold readOverride at read
  split at read
  · cases read
    exact ⟨rfl, rfl, rfl, nofun⟩
  · obtain ⟨number, word, read⟩ := ok_of_bind read
    obtain ⟨activation, effective, read⟩ := ok_of_bind read
    obtain ⟨instant, since, read⟩ := ok_of_bind read
    cases read
    obtain ⟨millis, storable⟩ := storedInstant_read effective
    obtain ⟨millis', storable'⟩ := storedInstant_read since
    have same : (number : Int) = _ := storedNat_inv word
    refine ⟨congrArg some same.symm, congrArg some millis.symm, congrArg some millis'.symm, ?_⟩
    rintro _ ⟨⟩
    exact ⟨storedNat_within word, storable, storable'⟩
  · cases read

/-- A configuration that was read from a row makes the row again, but for the flag, of which only the meaning stays; and
nothing of it is lost when it is stored. -/
theorem toConfig_read {r : ConfigRow} {c : WarmupConfig} (read : r.toConfig = .ok c) :
    ofConfig c = { r with enabled := .bool c.enabled } ∧ r.enabled.toBool 0 "enabled" = .ok c.enabled ∧ c.Storable := by
  obtain ⟨enabled, flag, read⟩ := ok_of_bind read
  obtain ⟨activation, instant, read⟩ := ok_of_bind read
  obtain ⟨interval, minutes, read⟩ := ok_of_bind read
  obtain ⟨phase, number, read⟩ := ok_of_bind read
  obtain ⟨shifted, effective, read⟩ := ok_of_bind read
  obtain ⟨applied, since, read⟩ := ok_of_bind read
  obtain ⟨phaseOverride, overridden, read⟩ := ok_of_bind read
  obtain ⟨activation', stored, read⟩ := ok_of_bind read
  obtain ⟨interval', word, read⟩ := ok_of_bind read
  cases read
  obtain ⟨millis, storable⟩ := storedInstant_read stored
  obtain ⟨rfl, rfl, rfl, kept⟩ := readOverride_read overridden
  have minutes' : (interval' : Int) = interval := storedNat_inv word
  obtain ⟨rEnabled, rActivation, rInterval, rPhase, rShifted, rApplied⟩ := r
  obtain rfl : rActivation = .integer activation := Datum.toInteger_inv instant
  obtain rfl : rInterval = .integer interval := Datum.toInteger_inv minutes
  obtain rfl : rPhase = _ := Datum.optional_inv number
  obtain rfl : rShifted = _ := Datum.optional_inv effective
  obtain rfl : rApplied = _ := Datum.optional_inv since
  refine ⟨?_, flag, storable, storedNat_within word, kept⟩
  simp only [ofConfig, millis, minutes', Option.map_map]
  rfl

end ConfigRow

/-! ### What is stored -/

/-- A configuration as a store holds it. -/
inductive ConfigEntry where
  | whole (config : WarmupConfig)
  | row (row : ConfigRow)

namespace ConfigEntry

def read : ConfigEntry → Except StoreFault WarmupConfig
  | whole config => .ok config
  | row r => r.toConfig

/-- A configuration in the place of another one. -/
def rewrite (config : WarmupConfig) : ConfigEntry → ConfigEntry
  | whole _ => whole config
  | row _ => row (.ofConfig config)

def activation : ConfigEntry → Stamp ⊕ Datum
  | whole config => .inl config.activation
  | row r => .inr r.activation

/-- The phase, the effective activation and the instant of the override. -/
def phaseOverride : ConfigEntry → Option PhaseOverride ⊕ Datum × Datum × Datum
  | whole config => .inl config.phaseOverride
  | row r => .inr (r.overridePhase, r.overrideActivation, r.overrideApplied)

def interval : ConfigEntry → Nat ⊕ Datum
  | whole config => .inl config.batchIntervalMinutes
  | row r => .inr r.interval

/-- The flag. In a row every integer but zero is true. -/
def enabled : ConfigEntry → Option Bool
  | whole config => some config.enabled
  | row r => (r.enabled.toBool 0 "enabled").toOption

variable {e : ConfigEntry} {config changed : WarmupConfig}

/-- A part in which the flag has no share stays as it is stored if the part is written as it was read. -/
theorem rewrite_part {β : Type} {part : ConfigEntry → β}
    (unflagged : ∀ r flag, part (.row { r with enabled := flag }) = part (.row r)) (loaded : e.read = .ok config)
    (same : part (e.rewrite changed) = part (e.rewrite config)) : part (e.rewrite changed) = part e := by
  rw [same]
  cases e with
  | whole stored =>
    cases loaded
    rfl
  | row r => rw [rewrite, (ConfigRow.toConfig_read loaded).1, unflagged]

theorem rewrite_activation (loaded : e.read = .ok config) (same : changed.activation = config.activation) :
    (e.rewrite changed).activation = e.activation := by
  refine rewrite_part (fun _ _ => rfl) loaded ?_
  cases e with
  | whole | row => simp only [rewrite, activation, ConfigRow.ofConfig, same]

theorem rewrite_phaseOverride (loaded : e.read = .ok config) (same : changed.phaseOverride = config.phaseOverride) :
    (e.rewrite changed).phaseOverride = e.phaseOverride := by
  refine rewrite_part (fun _ _ => rfl) loaded ?_
  cases e with
  | whole | row => simp only [rewrite, phaseOverride, ConfigRow.ofConfig, same]

theorem rewrite_interval (loaded : e.read = .ok config)
    (same : changed.batchIntervalMinutes = config.batchIntervalMinutes) :
    (e.rewrite changed).interval = e.interval := by
  refine rewrite_part (fun _ _ => rfl) loaded ?_
  cases e with
  | whole | row => simp only [rewrite, interval, ConfigRow.ofConfig, same]

/-- Of the flag as it is stored its meaning stays. -/
theorem rewrite_enabled (loaded : e.read = .ok config) (same : changed.enabled = config.enabled) :
    (e.rewrite changed).enabled = e.enabled := by
  cases e with
  | whole stored =>
    cases loaded
    exact congrArg some same
  | row r =>
    have flag := (ConfigRow.toConfig_read loaded).2.1
    have written : (ConfigRow.ofConfig changed).enabled.toBool 0 "enabled" = .ok changed.enabled :=
      Datum.toBool_bool ..
    simp only [rewrite, enabled, written, flag, same]

/-- What was read can be read again after a change to the flag and the interval. -/
theorem rewrite_read (loaded : e.read = .ok config) (activation : changed.activation = config.activation)
    (phaseOverride : changed.phaseOverride = config.phaseOverride)
    (interval : changed.batchIntervalMinutes < Width.word ∨ changed.batchIntervalMinutes = config.batchIntervalMinutes) :
    (e.rewrite changed).read = .ok changed := by
  cases e with
  | whole stored => rfl
  | row r =>
    have storable := (ConfigRow.toConfig_read loaded).2.2
    have within : changed.batchIntervalMinutes < Width.word := interval.elim id fun same => same ▸ storable.interval
    exact ConfigRow.toConfig_ofConfig ⟨activation ▸ storable.activation, within, phaseOverride ▸ storable.phaseOverride⟩

/-- The days of a warmup are told by the activation and the override, as they are stored. -/
theorem read_effectiveActivation {e' : ConfigEntry} {config' : WarmupConfig} (loaded : e.read = .ok config)
    (loaded' : e'.read = .ok config') (activation : e'.activation = e.activation)
    (phaseOverride : e'.phaseOverride = e.phaseOverride) : config'.effectiveActivation = config.effectiveActivation := by
  cases e with
  | whole stored =>
    cases e' with
    | row => cases activation
    | whole stored' =>
      cases loaded
      cases loaded'
      rw [WarmupConfig.effectiveActivation, Sum.inl.inj activation, Sum.inl.inj phaseOverride]
      rfl
  | row r =>
    cases e' with
    | whole => cases activation
    | row r' =>
      obtain ⟨again, -, storable⟩ := ConfigRow.toConfig_read loaded
      obtain ⟨again', -, storable'⟩ := ConfigRow.toConfig_read loaded'
      -- Both parts of the one, put into the other, make the same row.
      let mixed := { config with activation := config'.activation, phaseOverride := config'.phaseOverride }
      have columns : ConfigRow.ofConfig mixed = .ofConfig config := by
        have parts : ConfigRow.ofConfig mixed = { ConfigRow.ofConfig config with
            activation := (ConfigRow.ofConfig config').activation
            overridePhase := (ConfigRow.ofConfig config').overridePhase
            overrideActivation := (ConfigRow.ofConfig config').overrideActivation
            overrideApplied := (ConfigRow.ofConfig config').overrideApplied } := rfl
        obtain ⟨phase, shifted, applied⟩ : r'.overridePhase = r.overridePhase ∧
            r'.overrideActivation = r.overrideActivation ∧ r'.overrideApplied = r.overrideApplied := by
          simpa only [Prod.mk.injEq] using Sum.inr.inj phaseOverride
        have first : r'.activation = r.activation := Sum.inr.inj activation
        rw [parts, again', again]
        simp only [first, phase, shifted, applied]
      have same : mixed = config := by
        have read := ConfigRow.toConfig_ofConfig (c := mixed)
          ⟨storable'.activation, storable.interval, storable'.phaseOverride⟩
        rw [columns, ConfigRow.toConfig_ofConfig storable] at read
        exact (Except.ok.inj read).symm
      change mixed.effectiveActivation = config.effectiveActivation
      rw [same]

end ConfigEntry

namespace Backing

/-- The configuration that is stored. -/
def stored? : Backing → Option ConfigEntry
  | memory store => store.config.map .whole
  | durable store => store.config.map .row

/-- The configuration was written, and the store is then the other one. -/
def Saves (s : Backing) (config : WarmupConfig) (t : Backing) : Prop := s.call (.saveConfig config) = (.ok (), t)

/-- The configuration is what the store gives when it is asked. -/
def Loads (s : Backing) (config : WarmupConfig) : Prop := (s.call .loadConfig).1 = .ok (some config)

/-- What is loaded is read from what is stored. -/
theorem loadConfig_read {s : Backing} {found : Option WarmupConfig} (loaded : (s.call .loadConfig).1 = .ok found) :
    s.stored?.map (·.read) = found.map .ok := by
  cases s with
  | memory store =>
    change (store.call .loadConfig).1 = .ok found at loaded
    unfold MemoryStore.call at loaded
    split at loaded
    · cases loaded
    · cases loaded
      exact Option.map_map ..
  | durable store =>
    obtain ⟨store', done, -⟩ := DurableStore.call_ok loaded
    simp only [DurableStore.attempt] at done
    split at done
    · rename_i absent
      cases done
      simp only [stored?, absent, Option.map_none]
    · rename_i row present
      obtain ⟨config, read, same⟩ := ok_of_bind done
      cases same
      simp only [stored?, present, Option.map_some, ConfigEntry.read, read]

theorem Saves.memory {store : MemoryStore} {config : WarmupConfig} {t : Backing}
    (saved : (memory store).Saves config t) : t = .memory { store with config := some config } := by
  have on : store.offline = false := MemoryStore.on_of_ok (congrArg Prod.fst saved)
  have done : store.call (.saveConfig config) = (.ok (), { store with config := some config }) := by
    rw [MemoryStore.call_on on]
    rfl
  rw [Saves, call, done] at saved
  cases saved
  rfl

/-- A configuration that was saved stands in the place of the one before. -/
theorem saveConfig_entry {s t : Backing} {config : WarmupConfig} {e : ConfigEntry}
    (saved : s.Saves config t) (found : s.stored? = some e) : t.stored? = some (e.rewrite config) := by
  cases s with
  | memory store =>
    obtain ⟨stored, -, rfl⟩ := Option.map_eq_some_iff.mp found
    rw [saved.memory]
    rfl
  | durable store =>
    obtain ⟨row, -, rfl⟩ := Option.map_eq_some_iff.mp found
    cases saved
    rfl

end Backing

/-- No call but that which saves a configuration touches it. -/
theorem Backing.call_entry {α : Type} (s : Backing) {c : StoreCall α} (other : c.kind ≠ .saveConfig) :
    (s.call c).2.stored? = s.stored? := by
  cases s with
  | memory store => exact congrArg (Option.map _) ((store.call_confines _).config other)
  | durable store => exact congrArg (Option.map _) ((store.call_confines _).config other)

/-! ### Configurations that pass validation -/

namespace Backing

variable {s t : Backing} {config : WarmupConfig}

/-- What can be read as the configuration passes validation. -/
def Valid (s : Backing) : Prop :=
  ∀ e config, s.stored? = some e → e.read = .ok config → config.validate = .ok ()

theorem Valid.kept (h : s.Valid) (same : t.stored? = s.stored?) : t.Valid := fun e config stored =>
  h e config (same.symm.trans stored)

theorem Valid.loaded (h : s.Valid) (loaded : s.Loads config) : config.validate = .ok () := by
  have read := loadConfig_read loaded
  obtain ⟨e, stored, reads⟩ := Option.map_eq_some_iff.mp read
  exact h e config stored reads

/-- Only the interval is validated, and it is read as it was saved. -/
theorem Saves.valid (saved : s.Saves config t) (valid : config.validate = .ok ()) : t.Valid := by
  intro e config' stored read
  cases s with
  | memory store =>
    rw [saved.memory] at stored
    cases stored
    cases read
    exact valid
  | durable store =>
    cases saved
    cases stored
    have interval := congrArg ConfigRow.interval (ConfigRow.toConfig_read read).1
    have same : config'.batchIntervalMinutes = config.batchIntervalMinutes :=
      Int.ofNat.inj (Datum.integer.inj interval)
    rw [WarmupConfig.validate, same]
    exact valid

end Backing

end RelayRamp.Store
