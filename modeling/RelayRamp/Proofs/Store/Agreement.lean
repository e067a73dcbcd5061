import Mathlib.Data.List.Nodup
import RelayRamp.Proofs.Store.Buckets
import RelayRamp.Proofs.Store.RuleTable

/-!
# Stores in tables and in memory agree

A store in tables can be used in place of one in memory: as long as everything that is written can be stored, the two
give the same answers, call by call, also about which calls are refused and why. The tables then hold the rows of what
the store in memory holds; only counters may stand in another order there.
-/
namespace RelayRamp.Time

structure CounterBucket.Storable (b : CounterBucket) : Prop where
  windowStart : b.windowStart.Storable
  count : b.count < Width.signed

end RelayRamp.Time

namespace RelayRamp.Store

open RelayRamp.Routing RelayRamp.Time RelayRamp.Warmup

variable {α : Type}

/-- What the call writes can be stored. -/
def StoreCall.Storable : StoreCall α → Prop
  | saveConfig config => config.Storable
  | replacePhases phases => (∀ p ∈ phases, p.Storable) ∧ phases.Pairwise (·.number ≠ ·.number)
  | insertRule draft => draft.InWords
  | updateRule rule => rule.InWords ∧ rule.id < Width.signed
  | deleteRule id => id < Width.signed
  | saveCounters buckets => ∀ b ∈ buckets, b.Storable
  | _ => True

/-- Two answers to the call agree: the values are the same, the counters up to their order, or the faults are of the
same kind. -/
def StoreCall.SameAnswer : StoreCall α → Except StoreFault α → Except StoreFault α → Prop
  | loadCounters, .ok held, .ok held' => held.Perm held'
  | _, answer, answer' => answer.mapError (·.kind) = answer'.mapError (·.kind)

/-- One use of a store: it is called, or it is opened again. -/
inductive Usage : Type 1
  | call {α : Type} (c : StoreCall α)
  | reopen

namespace Usage

def onMemory (m : MemoryStore) : Usage → MemoryStore
  | call c => (m.call c).2
  | reopen => m

def onTables (d : DurableStore) : Usage → DurableStore
  | call c => (d.call c).2
  | reopen => d.reopen.toOption.getD d

/-- What is written can be stored, the id of an inserted rule included. -/
def Storable (m : MemoryStore) : Usage → Prop
  | call c => c.Storable ∧ (c.kind = .insertRule → m.lastRuleId + 1 < Width.signed)
  | reopen => True

/-- The two stores answer alike; tables can be opened again. -/
def Agrees (m : MemoryStore) (d : DurableStore) : Usage → Prop
  | call c => c.SameAnswer (m.call c).1 (d.call c).1
  | reopen => d.reopen = .ok d

/-- Everything that the uses write one after another can be stored. -/
def AllStorable : MemoryStore → List Usage → Prop
  | _, [] => True
  | m, u :: rest => u.Storable m ∧ AllStorable (u.onMemory m) rest

end Usage

/-! ### Counters in any order -/

/-- No two buckets are of the same window. -/
def Apart (buckets : List CounterBucket) : Prop := buckets.Pairwise fun a b => ¬ MemoryStore.sameWindow a b = true

namespace Apart

variable {buckets held : List CounterBucket}

theorem of_sorted (sorted : MemoryStore.Sorted buckets) : Apart buckets := by
  refine List.Pairwise.imp (fun {a b} before same => ?_) sorted
  rw [MemoryStore.bucketBefore_iff] at before
  rw [MemoryStore.sameWindow_iff] at same
  grind

theorem perm (apart : Apart buckets) (order : held.Perm buckets) : Apart held := by
  refine (order.pairwise_iff fun {a b} different same => different ?_).mpr apart
  rw [MemoryStore.sameWindow_iff] at *
  exact ⟨same.1.symm, same.2.symm⟩

theorem nodup (apart : Apart buckets) : buckets.Nodup := by
  refine List.Pairwise.imp (fun {a b} different same => different ?_) apart
  rw [MemoryStore.sameWindow_iff, same]
  exact ⟨rfl, rfl⟩

theorem saveEntry (apart : Apart buckets) (b : CounterBucket) : Apart (CounterRow.saveEntry buckets b) := by
  refine List.Pairwise.filter _ ?_
  split
  · rw [List.pairwise_map]
    -- Two buckets that both gave way to the new one would be of the same window.
    refine List.Pairwise.imp (fun {x y} different => ?_) apart
    rw [MemoryStore.sameWindow_iff] at different
    simp only [MemoryStore.sameWindow_iff]
    split
    · split
      · grind
      · grind
    · split
      · grind
      · grind
  · rename_i absent
    simp only [List.any_eq_true, not_exists, not_and, MemoryStore.sameWindow_iff] at absent
    refine List.pairwise_append.mpr ⟨apart, List.pairwise_singleton _ _, fun x member y new same => ?_⟩
    obtain rfl := List.mem_singleton.mp new
    rw [MemoryStore.sameWindow_iff] at same
    exact absent x member same.1.symm same.2.symm

end Apart

variable {held buckets : List CounterBucket}

theorem perm_saved (order : held.Perm buckets) (sorted : MemoryStore.Sorted buckets) (b : CounterBucket) :
    (CounterRow.saveEntry held b).Perm (MemoryStore.saveBucket buckets b) := by
  have apart := ((Apart.of_sorted sorted).perm order).saveEntry b
  have apart' := Apart.of_sorted (MemoryStore.sorted_saveBucket sorted b)
  refine (List.perm_ext_iff_of_nodup apart.nodup apart'.nodup).mpr fun x => ?_
  rw [CounterRow.mem_saveEntry, MemoryStore.mem_saveBucket sorted, order.mem_iff]

/-- Saving buckets one after another keeps the order of neither store, but leaves the same buckets. -/
theorem perm_foldl_saved (order : held.Perm buckets) (sorted : MemoryStore.Sorted buckets) (new : List CounterBucket) :
    (new.foldl CounterRow.saveEntry held).Perm (new.foldl MemoryStore.saveBucket buckets) ∧
      MemoryStore.Sorted (new.foldl MemoryStore.saveBucket buckets) := by
  induction new generalizing held buckets with
  | nil => exact ⟨order, sorted⟩
  | cons b rest ih => exact ih (perm_saved order sorted b) (MemoryStore.sorted_saveBucket sorted b)

theorem mem_foldl_saved {new : List CounterBucket} (sorted : MemoryStore.Sorted buckets) {x : CounterBucket}
    (member : x ∈ new.foldl MemoryStore.saveBucket buckets) : x ∈ new ∨ x ∈ buckets := by
  induction new generalizing buckets with
  | nil => exact Or.inr member
  | cons b rest ih =>
    rcases ih (MemoryStore.sorted_saveBucket sorted b) member with later | saved
    · exact Or.inl (List.mem_cons_of_mem _ later)
    · rcases (MemoryStore.mem_saveBucket sorted).mp saved with rfl | ⟨old, -⟩
      · exact Or.inl (List.mem_cons_self ..)
      · exact Or.inr old

theorem CounterRow.ofBucket_entry {b : CounterBucket} (storable : b.Storable) : ofBucket b = .ok (entry b) := by
  unfold ofBucket
  rw [inputInteger_of_lt storable.count, ok_bind]
  rfl

theorem CounterRow.toBucket_storable {b : CounterBucket} (storable : b.Storable) : (entry b).toBucket = .ok b :=
  (toBucket_entry storable.windowStart.toWhole b).mpr
    ⟨storable.windowStart.within, Nat.lt_trans storable.count (by decide), rfl⟩

/-! ### Tables with the rows of a store in memory -/

/-- The tables hold the rows of what the store in memory holds, and all of it can be stored. -/
structure Encodes (m : MemoryStore) (d : DurableStore) : Prop where
  on : m.offline = false
  config : d.config = m.config.map .ofConfig
  config_storable : ∀ c, m.config = some c → c.Storable
  phases : d.phases = m.phases.map PhaseRow.entry
  phases_storable : ∀ p ∈ m.phases, p.Storable
  rules : d.Tabulates m.lastRuleId m.rules
  rules_storable : ∀ rule ∈ m.rules, rule.InWords
  rules_issued : ∀ rule ∈ m.rules, rule.id ≤ m.lastRuleId
  counters : ∃ held : List CounterBucket, d.counters = held.map CounterRow.entry ∧ held.Perm m.buckets
  counters_sorted : MemoryStore.Sorted m.buckets
  counters_storable : ∀ b ∈ m.buckets, b.Storable

/-- A call leads both stores to the same answer, and the tables hold the rows of the store in memory again. -/
def Corresponds (c : StoreCall α) (m : Except StoreFault α × MemoryStore) (d : Except StoreFault α × DurableStore) :
    Prop :=
  c.SameAnswer m.1 d.1 ∧ Encodes m.2 d.2

theorem encodes_empty : Encodes .empty .empty where
  on := rfl
  config := rfl
  config_storable := nofun
  phases := rfl
  phases_storable := nofun
  rules := ⟨rfl, rfl, rfl, by decide⟩
  rules_storable := nofun
  rules_issued := nofun
  counters := ⟨[], rfl, .nil⟩
  counters_sorted := .nil
  counters_storable := nofun

theorem DurableStore.call_attempt_ok {d d' : DurableStore} {c : StoreCall α} {a : α}
    (done : d.attempt c = .ok (a, d')) : d.call c = (.ok a, d') := by
  rw [call, done]

theorem DurableStore.call_attempt_error {d : DurableStore} {c : StoreCall α} {fault : StoreFault}
    (failed : d.attempt c = .error fault) : d.call c = (.error fault, d) := by
  rw [call, failed]

namespace Encodes

variable {m : MemoryStore} {d : DurableStore} (h : Encodes m d)

include h

theorem loadConfig : Corresponds .loadConfig (m.answer .loadConfig) (d.call .loadConfig) := by
  have read : d.attempt .loadConfig = .ok (m.config, d) := by
    simp only [DurableStore.attempt, h.config]
    cases stored : m.config with
    | none => rfl
    | some config =>
      simp only [Option.map_some]
      rw [ConfigRow.toConfig_ofConfig (h.config_storable config stored), ok_bind]
      rfl
  rw [DurableStore.call_attempt_ok read]
  exact ⟨rfl, h⟩

theorem loadPhases : Corresponds .loadPhases (m.answer .loadPhases) (d.call .loadPhases) := by
  have read : d.attempt .loadPhases = .ok (m.phases, d) := by
    have rows : d.phases.mapM PhaseRow.toPhase = .ok m.phases := by
      rw [h.phases]
      exact mapM_written fun p member => PhaseRow.toPhase_entry (h.phases_storable p member)
    simp only [DurableStore.attempt]
    rw [rows, ok_bind]
    rfl
  rw [DurableStore.call_attempt_ok read]
  exact ⟨rfl, h⟩

theorem listRules : Corresponds .listRules (m.answer .listRules) (d.call .listRules) := by
  have read : d.attempt .listRules = .ok (m.rules, d) := by
    refine DurableStore.attempt_listRules h.rules.rows h.rules_storable fun rule member => ?_
    have issued := h.rules_issued rule member
    have within : (m.lastRuleId : Int) ≤ 9223372036854775807 := h.rules.within
    change rule.id < 18446744073709551616
    omega
  rw [DurableStore.call_attempt_ok read]
  exact ⟨rfl, h⟩

theorem loadCounters : Corresponds .loadCounters (m.answer .loadCounters) (d.call .loadCounters) := by
  obtain ⟨held, rows, order⟩ := h.counters
  have read : d.attempt .loadCounters = .ok (held, d) := by
    have written : d.counters.mapM CounterRow.toBucket = .ok held := by
      rw [rows]
      exact mapM_written fun b member =>
        CounterRow.toBucket_storable (h.counters_storable b (order.mem_iff.mp member))
    simp only [DurableStore.attempt]
    rw [written, ok_bind]
    rfl
  rw [DurableStore.call_attempt_ok read]
  exact ⟨order.symm, h⟩

theorem saveConfig {config : WarmupConfig} (storable : config.Storable) :
    Corresponds (.saveConfig config) (m.answer (.saveConfig config)) (d.call (.saveConfig config)) := by
  refine ⟨rfl, { h with
    config := rfl
    config_storable := fun c same => ?_
    rules := h.rules.elsewhere rfl rfl rfl }⟩
  exact Option.some.inj same ▸ storable

theorem replacePhases {phases : List WarmupPhase} (storable : ∀ p ∈ phases, p.Storable)
    (distinct : phases.Pairwise (·.number ≠ ·.number)) :
    Corresponds (.replacePhases phases) (m.answer (.replacePhases phases)) (d.call (.replacePhases phases)) := by
  have written : d.attempt (.replacePhases phases) = .ok ((),
      { d with phases := (phases.foldl (fun ps p => MemoryStore.putPhase p ps) []).map PhaseRow.entry }) := by
    simp only [DurableStore.attempt]
    rw [DurableStore.phaseRows_eq storable distinct, ok_bind]
    rfl
  rw [DurableStore.call_attempt_ok written]
  refine ⟨rfl, { h with
    phases := rfl
    phases_storable := fun p member => ?_
    rules := h.rules.elsewhere rfl rfl rfl }⟩
  exact storable p ((DurableStore.mem_placed storable distinct p).mp member)

theorem insertRule {draft : RuleDraft} (storable : draft.InWords) (numbered : m.lastRuleId + 1 < Width.signed) :
    Corresponds (.insertRule draft) (m.answer (.insertRule draft)) (d.call (.insertRule draft)) := by
  have room : ¬ DurableStore.maxRuleId ≤ (m.lastRuleId : Int) := by
    change ¬ (9223372036854775807 : Int) ≤ m.lastRuleId
    have numbered : m.lastRuleId + 1 < 9223372036854775808 := numbered
    omega
  have attempted : d.attempt (.insertRule draft) = _ :=
    DurableStore.insertRule_entries h.rules.rows h.rules.number h.rules_issued draft
  rw [if_neg room] at attempted
  simp only [MemoryStore.answer]
  split
  · rename_i taken
    rw [if_pos taken] at attempted
    rw [DurableStore.call_attempt_error attempted]
    exact ⟨rfl, h⟩
  · rename_i unused
    rw [if_neg unused] at attempted
    rw [DurableStore.call_attempt_ok attempted]
    refine ⟨rfl, { h with
      rules := ⟨h.rules.version, rfl, rfl, ?_⟩
      rules_storable := fun rule member => ?_
      rules_issued := fun rule member => ?_ }⟩
    · change ((m.lastRuleId + 1 : Nat) : Int) ≤ DurableStore.maxRuleId
      omega
    · rcases List.mem_append.mp member with old | new
      · exact h.rules_storable rule old
      · exact List.mem_singleton.mp new ▸ storable
    · rcases List.mem_append.mp member with old | new
      · exact Nat.le_succ_of_le (h.rules_issued rule old)
      · obtain rfl := List.mem_singleton.mp new
        exact Nat.le_refl _

theorem updateRule {rule : TransportRule} (storable : rule.InWords) (id : rule.id < Width.signed) :
    Corresponds (.updateRule rule) (m.answer (.updateRule rule)) (d.call (.updateRule rule)) := by
  have attempted : d.attempt (.updateRule rule) = _ := DurableStore.updateRule_entries h.rules.rows rule
  rw [if_pos id] at attempted
  simp only [MemoryStore.answer]
  split
  · rename_i unknown
    rw [if_pos unknown] at attempted
    rw [DurableStore.call_attempt_ok attempted]
    exact ⟨rfl, h⟩
  · rename_i known
    rw [if_neg known] at attempted
    split
    · rename_i taken
      rw [if_pos taken] at attempted
      rw [DurableStore.call_attempt_error attempted]
      exact ⟨rfl, h⟩
    · rename_i unused
      rw [if_neg unused] at attempted
      rw [DurableStore.call_attempt_ok attempted]
      refine ⟨rfl, { h with
        rules := ⟨h.rules.version, rfl, h.rules.number, h.rules.within⟩
        rules_storable := fun other member => ?_
        rules_issued := fun other member => ?_ }⟩
      · obtain ⟨old, present, rfl⟩ := List.mem_map.mp member
        split
        · exact storable
        · exact h.rules_storable old present
      · obtain ⟨old, present, rfl⟩ := List.mem_map.mp member
        rw [replaced_id]
        exact h.rules_issued old present

theorem deleteRule {id : Nat} (fits : id < Width.signed) :
    Corresponds (.deleteRule id) (m.answer (.deleteRule id)) (d.call (.deleteRule id)) := by
  have attempted : d.attempt (.deleteRule id) = _ := DurableStore.deleteRule_entries h.rules.rows id
  rw [if_pos fits] at attempted
  rw [DurableStore.call_attempt_ok attempted]
  exact ⟨rfl, { h with
    rules := ⟨h.rules.version, rfl, h.rules.number, h.rules.within⟩
    rules_storable := fun rule member => h.rules_storable rule (List.mem_filter.mp member).1
    rules_issued := fun rule member => h.rules_issued rule (List.mem_filter.mp member).1 }⟩

theorem saveCounters {new : List CounterBucket} (storable : ∀ b ∈ new, b.Storable) :
    Corresponds (.saveCounters new) (m.answer (.saveCounters new)) (d.call (.saveCounters new)) := by
  obtain ⟨held, rows, order⟩ := h.counters
  have written : d.attempt (.saveCounters new) = .ok ((),
      { d with counters := (new.foldl CounterRow.saveEntry held).map CounterRow.entry }) := by
    have encoded : new.mapM CounterRow.ofBucket = .ok (new.map CounterRow.entry) :=
      mapM_ok fun b member => CounterRow.ofBucket_entry (storable b member)
    simp only [DurableStore.attempt]
    rw [encoded, ok_bind, rows, CounterRow.foldl_save_entry]
    rfl
  obtain ⟨order, sorted⟩ := perm_foldl_saved order h.counters_sorted new
  rw [DurableStore.call_attempt_ok written]
  refine ⟨rfl, { h with
    rules := h.rules.elsewhere rfl rfl rfl
    counters := ⟨_, rfl, order⟩
    counters_sorted := sorted
    counters_storable := fun b member => ?_ }⟩
  rcases mem_foldl_saved h.counters_sorted member with saved | old
  · exact storable b saved
  · exact h.counters_storable b old

/-- Every call corresponds. -/
theorem call {α : Type} {c : StoreCall α} (storable : c.Storable)
    (numbered : c.kind = .insertRule → m.lastRuleId + 1 < Width.signed) : Corresponds c (m.call c) (d.call c) := by
  rw [MemoryStore.call_on h.on]
  cases c with
  | loadConfig => exact h.loadConfig
  | saveConfig config => exact h.saveConfig storable
  | loadPhases => exact h.loadPhases
  | replacePhases phases => exact h.replacePhases storable.1 storable.2
  | listRules => exact h.listRules
  | insertRule draft => exact h.insertRule storable (numbered rfl)
  | updateRule rule => exact h.updateRule storable.1 storable.2
  | deleteRule id => exact h.deleteRule storable
  | loadCounters => exact h.loadCounters
  | saveCounters buckets => exact h.saveCounters storable

theorem reopened : d.reopen = .ok d := h.rules.reopened

/-- One use keeps the correspondence, and the stores agree on it. -/
theorem use {u : Usage} (storable : u.Storable m) : u.Agrees m d ∧ Encodes (u.onMemory m) (u.onTables d) := by
  cases u with
  | call c => exact h.call storable.1 storable.2
  | reopen =>
    refine ⟨h.reopened, ?_⟩
    rw [Usage.onTables, h.reopened]
    exact h

theorem uses {before : List Usage} {u : Usage} (storable : Usage.AllStorable m (before ++ [u])) :
    u.Agrees (before.foldl Usage.onMemory m) (before.foldl Usage.onTables d) := by
  induction before generalizing m d with
  | nil => exact (h.use storable.1).1
  | cons first rest ih => exact ih (h.use storable.1).2 storable.2

end Encodes

/-- However an empty store in memory and empty tables were used, both alike, the next use gives the same on both, as
long as everything that is written can be stored. -/
theorem tables_refine_memory (before : List Usage) (u : Usage)
    (storable : Usage.AllStorable .empty (before ++ [u])) :
    u.Agrees (before.foldl Usage.onMemory .empty) (before.foldl Usage.onTables .empty) :=
  encodes_empty.uses storable

/-- A rule is inserted, refused the second time, and deleted; the tables are opened again, and the next rule gets the
next id. -/
theorem tables_refine_memory_inserted :
    let draft (pattern : String) : RuleDraft := ⟨pattern, ⟨"relay"⟩, ⟨2, 0⟩, true, none⟩
    let before : List Usage :=
      [.call (.insertRule (draft "a.example.org")), .call (.insertRule (draft "a.example.org")),
        .call (.saveCounters [⟨.hour, ⟨⟨0⟩, 0⟩, 3⟩]), .call (.deleteRule 1), .reopen]
    let insert : StoreCall TransportRule := .insertRule (draft "b.example.org")
    Usage.AllStorable .empty (before ++ [.call insert]) ∧
      ((before.foldl Usage.onTables .empty).call insert).1.toOption = some ((draft "b.example.org").withId 2) := by
  intro draft before insert
  have words (pattern : String) : (draft pattern).InWords :=
    ⟨show 2 < Width.word by decide, show 0 < Width.word by decide⟩
  have bucket : ∀ b ∈ [(⟨.hour, ⟨⟨0⟩, 0⟩, 3⟩ : CounterBucket)], b.Storable := fun b member => by
    obtain rfl := List.mem_singleton.mp member
    exact ⟨⟨⟨rfl, rfl⟩, by decide⟩, by decide⟩
  have storable : Usage.AllStorable .empty (before ++ [.call insert]) :=
    ⟨⟨words _, fun _ => by decide⟩, ⟨words _, fun _ => by decide⟩, ⟨bucket, nofun⟩,
      ⟨show 1 < Width.signed by decide, nofun⟩, trivial, ⟨words _, fun _ => by decide⟩, trivial⟩
  have agrees : insert.SameAnswer ((before.foldl Usage.onMemory .empty).call insert).1
      ((before.foldl Usage.onTables .empty).call insert).1 := tables_refine_memory before (.call insert) storable
  have memory : ((before.foldl Usage.onMemory .empty).call insert).1 = .ok ((draft "b.example.org").withId 2) := by
    decide
  refine ⟨storable, ?_⟩
  rw [memory] at agrees
  generalize ((before.foldl Usage.onTables .empty).call insert).1 = answer at agrees ⊢
  cases answer with
  | ok rule => exact congrArg some (Except.ok.inj agrees).symm
  | error fault => exact nomatch agrees

end RelayRamp.Store
