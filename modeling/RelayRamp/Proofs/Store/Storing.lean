import RelayRamp.Proofs.Store.Agreement
import RelayRamp.Proofs.Store.Columns
import RelayRamp.Proofs.Warmup.Acceptance

/-!
# What a store takes

A table of phases is taken in the order of its numbers and read back as it was, and so are valid rules with patterns
that no other rule has. A store in memory takes all of them. Tables hold signed numbers: they refuse a limit that is too
large for one, and the rule for which no id is left; what is refused changes nothing.
-/
namespace RelayRamp.Warmup

/-- The limits fit signed numbers. -/
structure PhaseLimits.Signed (limits : PhaseLimits) : Prop where
  maxPerHour : limits.maxPerHour < Width.signed
  maxPerDay : limits.maxPerDay < Width.signed
  burst : limits.burst < Width.signed

instance (limits : PhaseLimits) : Decidable limits.Signed :=
  decidable_of_iff (limits.maxPerHour < Width.signed ∧ limits.maxPerDay < Width.signed ∧ limits.burst < Width.signed)
    ⟨fun ⟨hour, day, burst⟩ => ⟨hour, day, burst⟩, fun h => ⟨h.maxPerHour, h.maxPerDay, h.burst⟩⟩

/-- One of the limits, with its name, does not fit a signed number. -/
inductive PhaseLimits.Exceeds (limits : PhaseLimits) : Nat → String → Prop
  | maxPerHour (large : Width.signed ≤ limits.maxPerHour) : Exceeds limits limits.maxPerHour "max_per_hour"
  | maxPerDay (large : Width.signed ≤ limits.maxPerDay) : Exceeds limits limits.maxPerDay "max_per_day"
  | burst (large : Width.signed ≤ limits.burst) : Exceeds limits limits.burst "burst_limit"

namespace PhaseTable

variable {phases : List WarmupPhase} {table : PhaseTable}

/-- Only the limits can keep the phases of a table from being stored. -/
theorem storable (acceptable : Acceptable phases) {phase : WarmupPhase} (member : phase ∈ phases)
    (signed : phase.limits.Signed) : phase.Storable := by
  have listed := acceptable.numbered.mem_iff.mp (List.mem_map_of_mem member)
  have few := acceptable.few
  have number : phase.number < phases.length := List.mem_range.mp listed
  have bounded := (acceptable.valid phase member).bounded
  refine ⟨?_, ?_, signed.maxPerHour, signed.maxPerDay, signed.burst⟩
  · change phase.number < 4294967296
    omega
  · change phase.durationDays < 4294967296
    omega

theorem ordered (table : PhaseTable) : table.phases.Pairwise (·.number < ·.number) := by
  have numbers : (table.phases.map (·.number)).Pairwise (· < ·) := by
    rw [(firstFault?_eq_none_iff.mp table.sound).1]
    exact List.pairwise_lt_range'
  exact List.pairwise_map.mp numbers

/-- What was made into a table makes it again. -/
theorem ofPhases_again (built : ofPhases phases = .ok table) : ofPhases table.phases = .ok table := by
  refine table.ofPhases_self ?_
  rw [(ofPhases_perm built).length_eq]
  exact (ofPhases_ok_iff.mp ⟨table, built⟩).few

/-- The phases of a table are listed as they stand. -/
theorem sorted (table : PhaseTable) : table.phases.mergeSort (·.number ≤ ·.number) = table.phases :=
  List.mergeSort_of_pairwise (table.ordered.imp fun before => decide_eq_true (Nat.le_of_lt before))

end PhaseTable

end RelayRamp.Warmup

namespace RelayRamp.Store

open RelayRamp.Routing RelayRamp.Warmup

/-! ### Phases -/

namespace MemoryStore

theorem putPhase_last {p : WarmupPhase} {placed : List WarmupPhase} (after : ∀ q ∈ placed, q.number < p.number) :
    putPhase p placed = placed ++ [p] := by
  induction placed with
  | nil => rfl
  | cons q rest ih =>
    obtain ⟨first, others⟩ := List.forall_mem_cons.mp after
    rw [putPhase, if_neg (Nat.ne_of_lt first), if_neg (Nat.lt_asymm first), ih others, List.cons_append]

/-- Phases in the order of their numbers are put in as they are. -/
theorem foldl_putPhase {placed phases : List WarmupPhase} (ordered : (placed ++ phases).Pairwise (·.number < ·.number)) :
    phases.foldl (fun ps p => putPhase p ps) placed = placed ++ phases := by
  induction phases generalizing placed with
  | nil => exact (List.append_nil placed).symm
  | cons p rest ih =>
    have after : ∀ q ∈ placed, q.number < p.number := fun q member =>
      (List.pairwise_append.mp ordered).2.2 q member p (List.mem_cons_self ..)
    rw [List.append_cons] at ordered ⊢
    rw [List.foldl_cons, putPhase_last after]
    exact ih ordered

end MemoryStore

namespace PhaseRow

/-- A phase that does not fit is refused for one of its limits. -/
theorem ofPhase_refused {p : WarmupPhase} (large : ¬ p.limits.Signed) :
    ∃ n field, p.limits.Exceeds n field ∧ ofPhase p = .error (tooLarge n field) := by
  unfold ofPhase
  by_cases hour : p.limits.maxPerHour < Width.signed
  · rw [inputInteger_of_lt hour, ok_bind]
    by_cases day : p.limits.maxPerDay < Width.signed
    · rw [inputInteger_of_lt day, ok_bind]
      have burst : ¬ p.limits.burst < Width.signed := fun burst => large ⟨hour, day, burst⟩
      refine ⟨_, _, .burst (Nat.not_lt.mp burst), ?_⟩
      rw [inputInteger_eq, if_neg burst]
      rfl
    · refine ⟨_, _, .maxPerDay (Nat.not_lt.mp day), ?_⟩
      rw [inputInteger_eq, if_neg day]
      rfl
  · refine ⟨_, _, .maxPerHour (Nat.not_lt.mp hour), ?_⟩
    rw [inputInteger_eq, if_neg hour]
    rfl

end PhaseRow

namespace DurableStore

variable {phases placed : List WarmupPhase}

/-- The first phase that does not fit ends the writing. -/
theorem foldlM_refused (storable : ∀ p ∈ phases, p.limits.Signed → p.Storable)
    (distinct : phases.Pairwise (·.number ≠ ·.number)) (free : ∀ q ∈ placed, ∀ p ∈ phases, q.number ≠ p.number)
    (large : ¬ ∀ p ∈ phases, p.limits.Signed) :
    ∃ p ∈ phases, ∃ n field, p.limits.Exceeds n field ∧
      phases.foldlM (fun rows phase => do (← PhaseRow.ofPhase phase).insert rows) (placed.map PhaseRow.entry) =
        .error (tooLarge n field) := by
  induction phases generalizing placed with
  | nil => exact absurd nofun large
  | cons p rest ih =>
    obtain ⟨first, others⟩ := List.forall_mem_cons.mp storable
    obtain ⟨apart, distinct⟩ := List.pairwise_cons.mp distinct
    by_cases fits : p.limits.Signed
    · have unused : ∀ q ∈ placed, q.number ≠ p.number := fun q member => free q member p (List.mem_cons_self ..)
      have free' : ∀ q ∈ MemoryStore.putPhase p placed, ∀ r ∈ rest, q.number ≠ r.number := by
        intro q member r later
        rcases (PhaseRow.mem_putPhase unused q).mp member with rfl | old
        · exact apart r later
        · exact free q old r (List.mem_cons_of_mem _ later)
      have large' : ¬ ∀ r ∈ rest, r.limits.Signed := fun all => large (List.forall_mem_cons.mpr ⟨fits, all⟩)
      obtain ⟨r, member, n, field, exceeds, failed⟩ := ih others distinct free' large'
      refine ⟨r, List.mem_cons_of_mem _ member, n, field, exceeds, ?_⟩
      rw [List.foldlM_cons, PhaseRow.ofPhase_entry (first fits), ok_bind, PhaseRow.insert_entry unused, ok_bind]
      exact failed
    · obtain ⟨n, field, exceeds, failed⟩ := PhaseRow.ofPhase_refused fits
      refine ⟨p, List.mem_cons_self .., n, field, exceeds, ?_⟩
      rw [List.foldlM_cons, failed]
      rfl

end DurableStore

namespace Backing

/-- The store is on and holds these phases; tables hold a row of each, and each can be read back. -/
def HasPhases (s : Backing) (phases : List WarmupPhase) : Prop :=
  match s with
  | memory store => store.offline = false ∧ store.phases = phases
  | durable store => store.phases = phases.map PhaseRow.entry ∧ ∀ p ∈ phases, p.Storable

/-- The limits of the phases are not too large for the store. -/
def Fits (s : Backing) (phases : List WarmupPhase) : Prop :=
  match s with
  | memory _ => True
  | durable _ => ∀ phase ∈ phases, phase.limits.Signed

instance (s : Backing) (phases : List WarmupPhase) : Decidable (s.Fits phases) :=
  match s with
  | memory _ => isTrue trivial
  | durable _ => inferInstanceAs (Decidable (∀ phase ∈ phases, phase.limits.Signed))

namespace HasPhases

variable {s : Backing} {held phases : List WarmupPhase} {table : PhaseTable}

theorem loaded (h : s.HasPhases held) : (s.call .loadPhases).1 = .ok held := by
  cases s with
  | memory store =>
    change (store.call .loadPhases).1 = _
    rw [MemoryStore.call_on h.1]
    exact congrArg Except.ok h.2
  | durable store =>
    have rows : store.phases.mapM PhaseRow.toPhase = .ok held := by
      rw [h.1]
      exact mapM_written fun p member => PhaseRow.toPhase_entry (h.2 p member)
    have read : store.attempt .loadPhases = .ok (held, store) := by
      simp only [DurableStore.attempt]
      rw [rows, ok_bind]
      rfl
    change (store.call .loadPhases).1 = _
    rw [DurableStore.call_attempt_ok read]

theorem kept (h : s.HasPhases held) {α : Type} {c : StoreCall α} (other : c.kind ≠ .replacePhases) :
    (s.call c).2.HasPhases held := by
  cases s with
  | memory store =>
    have confines := store.call_confines c
    exact ⟨confines.offline.trans h.1, (confines.phases other).trans h.2⟩
  | durable store => exact ⟨((store.call_confines c).phases other).trans h.1, h.2⟩

/-- A table that fits takes the place of the phases, and the rules stay. -/
theorem replaced (h : s.HasPhases held) (built : PhaseTable.ofPhases phases = .ok table)
    (fits : s.Fits table.phases) : ∃ t, s.call (.replacePhases table.phases) = (.ok (), t) ∧
      t.HasPhases table.phases ∧ ∀ last rules, s.Tabulates last rules → t.Tabulates last rules := by
  have placed : table.phases.foldl (fun ps p => MemoryStore.putPhase p ps) [] = table.phases :=
    MemoryStore.foldl_putPhase table.ordered
  cases s with
  | memory store =>
    have done : store.call (.replacePhases table.phases) = (.ok (), { store with phases := table.phases }) := by
      rw [MemoryStore.call_on h.1]
      simp only [MemoryStore.answer, placed]
    have kept (last : Nat) (rules : List TransportRule) (tabulates : store.Tabulates last rules) :
        MemoryStore.Tabulates { store with phases := table.phases } last rules :=
      ⟨tabulates.on, tabulates.rules, tabulates.number⟩
    exact ⟨_, Backing.call_memory done, ⟨h.1, rfl⟩, kept⟩
  | durable store =>
    have acceptable := PhaseTable.ofPhases_ok_iff.mp ⟨table, PhaseTable.ofPhases_again built⟩
    have storable : ∀ p ∈ table.phases, p.Storable := fun p member =>
      PhaseTable.storable acceptable member (fits p member)
    have written : store.attempt (.replacePhases table.phases) =
        .ok ((), { store with phases := table.phases.map PhaseRow.entry }) := by
      simp only [DurableStore.attempt]
      rw [DurableStore.phaseRows_eq storable (table.ordered.imp Nat.ne_of_lt), placed, ok_bind]
      rfl
    exact ⟨_, Backing.call_durable (DurableStore.call_attempt_ok written), ⟨rfl, storable⟩,
      fun _ _ tabulates => DurableStore.Tabulates.elsewhere tabulates rfl rfl rfl⟩

/-- A table that does not fit is refused for a limit that is too large. -/
theorem refused (built : PhaseTable.ofPhases phases = .ok table) (large : ¬ s.Fits table.phases) :
    ∃ p ∈ table.phases, ∃ n field, p.limits.Exceeds n field ∧
      s.call (.replacePhases table.phases) = (.error (tooLarge n field), s) := by
  cases s with
  | memory store => exact absurd trivial large
  | durable store =>
    have acceptable := PhaseTable.ofPhases_ok_iff.mp ⟨table, PhaseTable.ofPhases_again built⟩
    have free : ∀ q ∈ ([] : List WarmupPhase), ∀ p ∈ table.phases, q.number ≠ p.number := nofun
    obtain ⟨p, member, n, field, exceeds, failed⟩ := DurableStore.foldlM_refused
      (fun p member => PhaseTable.storable acceptable member) (table.ordered.imp Nat.ne_of_lt) free large
    have failed : DurableStore.phaseRows table.phases = .error (tooLarge n field) := failed
    have attempted : store.attempt (.replacePhases table.phases) = .error (tooLarge n field) := by
      simp only [DurableStore.attempt]
      rw [failed]
      rfl
    exact ⟨p, member, n, field, exceeds, Backing.call_durable (DurableStore.call_attempt_error attempted)⟩

end HasPhases

/-! ### Rules -/

/-- There is an id left for another rule. -/
def HasIds (s : Backing) : Prop :=
  match s with
  | memory _ => True
  | durable store => store.lastRuleId < DurableStore.maxRuleId

/-- The refusal of a rule for which no id is left. -/
def exhaustedIds : StoreFault := ⟨.engine, "database or disk is full"⟩

/-- The number can be asked for as an id. -/
def Numbers (s : Backing) (id : Nat) : Prop :=
  match s with
  | memory _ => True
  | durable _ => id < Width.signed

instance (s : Backing) : Decidable s.HasIds :=
  match s with
  | memory _ => isTrue trivial
  | durable store => inferInstanceAs (Decidable (store.lastRuleId < DurableStore.maxRuleId))

instance (s : Backing) (id : Nat) : Decidable (s.Numbers id) :=
  match s with
  | memory _ => isTrue trivial
  | durable _ => inferInstanceAs (Decidable (id < Width.signed))

namespace Tabulates

variable {s : Backing} {last : Nat} {rules : List TransportRule}

/-- A valid rule with a pattern of its own gets the next id, if there is one. -/
theorem inserted (h : s.Tabulates last rules) (table : RuleTable last rules) (left : s.HasIds) {draft : RuleDraft}
    (unused : ∀ rule ∈ rules, rule.pattern ≠ draft.pattern) :
    ∃ t, s.call (.insertRule draft) = (.ok (draft.withId (last + 1)), t) ∧
      t.Tabulates (last + 1) (rules ++ [draft.withId (last + 1)]) := by
  have unused := any_eq_false_iff.mpr unused
  cases s with
  | memory store =>
    obtain ⟨on, rfl, rfl⟩ := h
    have done : store.call (.insertRule draft) = (.ok (draft.withId (store.lastRuleId + 1)),
        { store with
          rules := store.rules ++ [draft.withId (store.lastRuleId + 1)]
          lastRuleId := store.lastRuleId + 1 }) := by
      rw [MemoryStore.call_on on]
      simp only [MemoryStore.answer]
      rw [if_neg unused]
    exact ⟨_, Backing.call_memory done, on, rfl, rfl⟩
  | durable store =>
    obtain ⟨version, rows, number, within⟩ := h
    have left : store.lastRuleId < DurableStore.maxRuleId := left
    rw [number] at left
    have attempted : store.attempt (.insertRule draft) = _ :=
      DurableStore.insertRule_entries rows number table.issued draft
    rw [if_neg (Int.not_le.mpr left), if_neg unused] at attempted
    refine ⟨_, Backing.call_durable (DurableStore.call_attempt_ok attempted), version, rfl, rfl, ?_⟩
    omega

/-- Where no id is left, a rule is refused. -/
theorem exhausted (h : s.Tabulates last rules) (table : RuleTable last rules) (none : ¬ s.HasIds) (draft : RuleDraft) :
    s.call (.insertRule draft) = (.error exhaustedIds, s) := by
  cases s with
  | memory store => exact absurd trivial none
  | durable store =>
    have full : ¬ store.lastRuleId < DurableStore.maxRuleId := none
    rw [DurableStore.Tabulates.number h] at full
    have attempted : store.attempt (.insertRule draft) = _ :=
      DurableStore.insertRule_entries h.rows h.number table.issued draft
    rw [if_pos (Int.not_lt.mp full)] at attempted
    exact Backing.call_durable (DurableStore.call_attempt_error attempted)

/-- A rule that is there is replaced, unless another one has the pattern. -/
theorem updated (h : s.Tabulates last rules) (table : RuleTable last rules) {rule : TransportRule}
    (present : ∃ old ∈ rules, old.id = rule.id)
    (unused : ∀ other ∈ rules, other.id ≠ rule.id → other.pattern ≠ rule.pattern) :
    ∃ t, s.call (.updateRule rule) = (.ok true, t) ∧
      t.Tabulates last (rules.map fun other => if other.id = rule.id then rule else other) := by
  have known : ¬ (!rules.any (·.id = rule.id)) = true := by simpa using present
  have unused : ¬ (rules.any fun other => other.id ≠ rule.id && other.pattern = rule.pattern) = true := by
    simpa using unused
  cases s with
  | memory store =>
    obtain ⟨on, rfl, rfl⟩ := h
    have done : store.call (.updateRule rule) = (.ok true,
        { store with rules := store.rules.map fun other => if other.id = rule.id then rule else other }) := by
      rw [MemoryStore.call_on on]
      simp only [MemoryStore.answer]
      rw [if_neg known, if_neg unused]
    exact ⟨_, Backing.call_memory done, on, rfl, rfl⟩
  | durable store =>
    obtain ⟨version, rows, number, within⟩ := h
    have fits : rule.id < Width.signed := by
      obtain ⟨old, member, same⟩ := present
      have issued := table.issued old member
      have within : (last : Int) ≤ 9223372036854775807 := within
      change rule.id < 9223372036854775808
      omega
    have attempted : store.attempt (.updateRule rule) = _ := DurableStore.updateRule_entries rows rule
    rw [if_pos fits, if_neg known, if_neg unused] at attempted
    exact ⟨_, Backing.call_durable (DurableStore.call_attempt_ok attempted), version, rfl, number, within⟩

/-- There is nothing to delete where no rule has the id. -/
theorem missing (h : s.Tabulates last rules) {id : Nat} (absent : ∀ rule ∈ rules, rule.id ≠ id)
    (numbers : s.Numbers id) : s.call (.deleteRule id) = (.ok false, s) := by
  have unknown : rules.any (fun rule => decide (rule.id = id)) = false := by simpa using absent
  have answered : (s.call (.deleteRule id)).1 = .ok false := by
    cases s with
    | memory store =>
      obtain ⟨on, rfl, -⟩ := h
      change (store.call (.deleteRule id)).1 = _
      rw [MemoryStore.call_on on]
      simp only [MemoryStore.answer, unknown]
    | durable store =>
      have attempted : store.attempt (.deleteRule id) = _ := DurableStore.deleteRule_entries h.rows id
      have numbers : id < Width.signed := numbers
      rw [if_pos numbers, unknown] at attempted
      change (store.call (.deleteRule id)).1 = _
      rw [DurableStore.call_attempt_ok attempted]
  exact Backing.call_of_vain answered (Or.inr rfl)

/-- An id that is not a number for the store is refused. -/
theorem unasked (h : s.Tabulates last rules) {id : Nat} (large : ¬ s.Numbers id) :
    s.call (.deleteRule id) = (.error (tooLarge id "rule id"), s) := by
  cases s with
  | memory store => exact absurd trivial large
  | durable store =>
    have attempted : store.attempt (.deleteRule id) = _ := DurableStore.deleteRule_entries h.rows id
    have large : ¬ id < Width.signed := large
    rw [if_neg large] at attempted
    exact Backing.call_durable (DurableStore.call_attempt_error attempted)

end Tabulates

/-- What is loaded as the configuration is so until another one is saved. -/
theorem Loads.kept {s : Backing} {config : WarmupConfig} (loads : s.Loads config) {α : Type} {c : StoreCall α}
    (other : c.kind ≠ .saveConfig) : (s.call c).2.Loads config := by
  cases s with
  | memory store =>
    have confines := store.call_confines c
    have on : store.offline = false := MemoryStore.on_of_ok loads
    have found : (store.call .loadConfig).1 = .ok (some config) := loads
    change ((store.call c).2.call .loadConfig).1 = _
    rw [MemoryStore.call_on on] at found
    rw [MemoryStore.call_on (confines.offline.trans on)]
    exact (congrArg Except.ok (confines.config other)).trans found
  | durable store =>
    obtain ⟨e, stored, read⟩ := Option.map_eq_some_iff.mp (loadConfig_read loads)
    obtain ⟨row, present, rfl⟩ := Option.map_eq_some_iff.mp stored
    have read : row.toConfig = .ok config := read
    have found : (store.call c).2.attempt .loadConfig = .ok (some config, (store.call c).2) := by
      simp only [DurableStore.attempt, (store.call_confines c).config other, present]
      rw [read]
      rfl
    change ((store.call c).2.call .loadConfig).1 = _
    rw [DurableStore.call_attempt_ok found]

end Backing

end RelayRamp.Store
