import RelayRamp.Proofs.Store.RuleRows
import RelayRamp.Proofs.Store.Rules

/-!
# The table of rules

The rules of a store form a table: every rule is valid as it stands, no two have the same pattern, and the ids go up
to the last one that was given out. A store that is only asked to write valid rules keeps such a table, be it in
memory or in tables. Each of its calls does one of four things to the table; only one of them gives out an id, and it
is the next one.
-/
namespace RelayRamp.Routing

open RelayRamp.Store

/-- What validation made of a draft passes as it stands, and has the canonical text of its pattern. -/
theorem RuleDraft.Validated.unchanged {draft : RuleDraft} (validated : draft.Validated) :
    ∃ pattern, draft.validate = .ok (pattern, draft) ∧ DomainPattern.parse draft.pattern = .ok pattern ∧
      pattern.canonical = draft.pattern := by
  obtain ⟨raw, pattern, valid⟩ := validated
  have again := RuleDraft.validate_validated valid
  obtain ⟨found, parsed, rest⟩ := ok_of_bind again
  obtain ⟨⟨⟩, -, rest⟩ := ok_of_bind rest
  obtain ⟨⟨⟩, -, rest⟩ := ok_of_bind rest
  split at rest
  · cases rest
  · obtain ⟨rfl, same⟩ := Prod.mk.inj (Except.ok.inj rest)
    exact ⟨found, again, parsed, congrArg RuleDraft.pattern same⟩

theorem RuleDraft.Validated.inWords {draft : RuleDraft} (validated : draft.Validated) : draft.InWords := by
  obtain ⟨pattern, valid, -⟩ := validated.unchanged
  obtain ⟨found, -, rest⟩ := ok_of_bind valid
  obtain ⟨⟨⟩, -, rest⟩ := ok_of_bind rest
  obtain ⟨⟨⟩, limits, -⟩ := ok_of_bind rest
  unfold TransportLimits.validate at limits
  split at limits
  · cases limits
  · split at limits
    · cases limits
    · split at limits
      · cases limits
      · rename_i concurrency delay
        constructor
        · exact Nat.lt_of_le_of_lt (Nat.not_lt.mp concurrency) (by decide)
        · exact Nat.lt_of_le_of_lt (Nat.not_lt.mp delay) (by decide)

/-- Valid rules of different texts have different patterns. -/
theorem TransportRule.parsedPattern_ne {a b : TransportRule} (valid : a.toRuleDraft.Validated)
    (valid' : b.toRuleDraft.Validated) (different : a.pattern ≠ b.pattern) : a.parsedPattern ≠ b.parsedPattern := by
  intro same
  obtain ⟨pattern, -, parsed, text⟩ := valid.unchanged
  obtain ⟨pattern', -, parsed', text'⟩ := valid'.unchanged
  have equal : pattern = pattern' := Except.ok.inj (parsed.symm.trans (same.trans parsed'))
  exact different (text.symm.trans (equal ▸ text'))

end RelayRamp.Routing

namespace RelayRamp.Store

open RelayRamp.Routing

/-- The rules of a store that has given out the ids up to the last one. -/
structure RuleTable (last : Nat) (rules : List TransportRule) : Prop where
  validated : ∀ rule ∈ rules, rule.toRuleDraft.Validated
  distinct : rules.Pairwise (·.pattern ≠ ·.pattern)
  ordered : rules.Pairwise (·.id < ·.id)
  issued : ∀ rule ∈ rules, rule.id ≤ last

/-- The ids that an answer gives out. -/
def StoreCall.assigned {α : Type} : StoreCall α → Except StoreFault α → List Nat
  | insertRule _, .ok rule => [rule.id]
  | _, _ => []

/-- What a call does to the table of rules: the ids it gives out, the last id and the rules afterwards. -/
inductive RuleEffect (last : Nat) (rules : List TransportRule) : List Nat → Nat → List TransportRule → Prop
  | kept : RuleEffect last rules [] last rules
  | inserted (draft : RuleDraft) (validated : draft.Validated) (unused : ∀ rule ∈ rules, rule.pattern ≠ draft.pattern) :
      RuleEffect last rules [last + 1] (last + 1) (rules ++ [draft.withId (last + 1)])
  | updated (rule : TransportRule) (validated : rule.toRuleDraft.Validated)
      (unused : ∀ other ∈ rules, other.id ≠ rule.id → other.pattern ≠ rule.pattern) :
      RuleEffect last rules [] last (rules.map fun other => if other.id = rule.id then rule else other)
  | deleted (id : Nat) : RuleEffect last rules [] last (rules.filter (·.id ≠ id))

variable {last last' : Nat} {rules rules' : List TransportRule} {ids : List Nat}

theorem replaced_id (rule other : TransportRule) : (if other.id = rule.id then rule else other).id = other.id := by
  split
  · rename_i same
    exact same.symm
  · rfl

/-- Every rule afterwards has an id that was given out by the call, or one of before. -/
theorem RuleEffect.origin (effect : RuleEffect last rules ids last' rules') (rule : TransportRule)
    (member : rule ∈ rules') : rule.id ∈ ids ∨ ∃ old ∈ rules, old.id = rule.id := by
  cases effect with
  | kept => exact Or.inr ⟨rule, member, rfl⟩
  | inserted draft =>
    rcases List.mem_append.mp member with old | new
    · exact Or.inr ⟨rule, old, rfl⟩
    · exact Or.inl (List.mem_singleton.mp new ▸ List.mem_singleton_self _)
  | updated changed =>
    obtain ⟨old, present, rfl⟩ := List.mem_map.mp member
    exact Or.inr ⟨old, present, (replaced_id changed old).symm⟩
  | deleted id => exact Or.inr ⟨rule, (List.mem_filter.mp member).1, rfl⟩

namespace RuleTable

theorem empty (last : Nat) : RuleTable last [] := by
  constructor <;> simp

theorem inserted (h : RuleTable last rules) {draft : RuleDraft} (validated : draft.Validated)
    (unused : ∀ rule ∈ rules, rule.pattern ≠ draft.pattern) :
    RuleTable (last + 1) (rules ++ [draft.withId (last + 1)]) where
  validated rule member := by
    rcases List.mem_append.mp member with old | new
    · exact h.validated rule old
    · exact List.mem_singleton.mp new ▸ validated
  distinct := by
    refine List.pairwise_append.mpr ⟨h.distinct, List.pairwise_singleton _ _, fun rule old other new => ?_⟩
    exact List.mem_singleton.mp new ▸ unused rule old
  ordered := by
    refine List.pairwise_append.mpr ⟨h.ordered, List.pairwise_singleton _ _, fun rule old other new => ?_⟩
    exact List.mem_singleton.mp new ▸ Nat.lt_succ_of_le (h.issued rule old)
  issued rule member := by
    rcases List.mem_append.mp member with old | new
    · exact Nat.le_succ_of_le (h.issued rule old)
    · exact List.mem_singleton.mp new ▸ Nat.le_refl _

theorem updated (h : RuleTable last rules) {rule : TransportRule} (validated : rule.toRuleDraft.Validated)
    (unused : ∀ other ∈ rules, other.id ≠ rule.id → other.pattern ≠ rule.pattern) :
    RuleTable last (rules.map fun other => if other.id = rule.id then rule else other) := by
  constructor
  · intro other member
    obtain ⟨old, present, rfl⟩ := List.mem_map.mp member
    split
    · exact validated
    · exact h.validated old present
  · rw [List.pairwise_map]
    -- The ids of two rules differ, so at most one of them is replaced.
    refine (h.distinct.and h.ordered).imp_of_mem fun {a b} first second both => ?_
    obtain ⟨different, before⟩ := both
    split
    · rename_i replaced
      rw [if_neg (by omega)]
      exact (unused b second (by omega)).symm
    · split
      · exact unused a first ‹_›
      · exact different
  · rw [List.pairwise_map]
    refine h.ordered.imp fun {a b} before => ?_
    rwa [replaced_id, replaced_id]
  · intro other member
    obtain ⟨old, present, rfl⟩ := List.mem_map.mp member
    rw [replaced_id]
    exact h.issued old present

theorem deleted (h : RuleTable last rules) (id : Nat) : RuleTable last (rules.filter (·.id ≠ id)) where
  validated rule member := h.validated rule (List.mem_filter.mp member).1
  distinct := h.distinct.filter _
  ordered := h.ordered.filter _
  issued rule member := h.issued rule (List.mem_filter.mp member).1

/-- A call keeps the table; the ids that it gives out are new. -/
theorem effect (h : RuleTable last rules) (effect : RuleEffect last rules ids last' rules') :
    RuleTable last' rules' ∧ last ≤ last' ∧ ∀ id ∈ ids, last < id ∧ id ≤ last' := by
  cases effect with
  | kept => exact ⟨h, Nat.le_refl _, nofun⟩
  | inserted draft validated unused =>
    refine ⟨h.inserted validated unused, Nat.le_succ _, fun id member => ?_⟩
    obtain rfl := List.mem_singleton.mp member
    omega
  | updated rule validated unused => exact ⟨h.updated validated unused, Nat.le_refl _, nofun⟩
  | deleted id => exact ⟨h.deleted id, Nat.le_refl _, nofun⟩

theorem parsed_distinct (h : RuleTable last rules) : rules.Pairwise (·.parsedPattern ≠ ·.parsedPattern) :=
  h.distinct.imp_of_mem fun first second =>
    TransportRule.parsedPattern_ne (h.validated _ first) (h.validated _ second)

end RuleTable

/-! ### Stores that keep such a table -/

/-- The store is on, and holds these rules and this last id. -/
structure MemoryStore.Tabulates (s : MemoryStore) (last : Nat) (rules : List TransportRule) : Prop where
  on : s.offline = false
  rules : s.rules = rules
  number : s.lastRuleId = last

/-- The tables are of the known schema, and hold the rows of these rules and this last id. -/
structure DurableStore.Tabulates (s : DurableStore) (last : Nat) (rules : List TransportRule) : Prop where
  version : s.version = .integer schemaVersion
  rows : s.rules = rules.map RuleRow.entry
  number : s.lastRuleId = last
  within : (last : Int) ≤ maxRuleId

def Backing.Tabulates (s : Backing) (last : Nat) (rules : List TransportRule) : Prop :=
  match s with
  | memory store => store.Tabulates last rules
  | durable store => store.Tabulates last rules

theorem any_eq_false_iff {p : TransportRule → Prop} [DecidablePred p] :
    ¬ (rules.any fun rule => p rule) = true ↔ ∀ rule ∈ rules, ¬ p rule := by
  simp

namespace MemoryStore.Tabulates

variable {s : MemoryStore}

theorem answer (h : s.Tabulates last rules) {α : Type} (c : StoreCall α) (vetted : c.kind ≠ .saveCounters → c.Vetted) :
    ∃ last' rules', (s.answer c).2.Tabulates last' rules' ∧
      RuleEffect last rules (c.assigned (s.answer c).1) last' rules' := by
  obtain ⟨on, rfl, rfl⟩ := h
  cases c with
  | insertRule draft =>
    simp only [MemoryStore.answer]
    split
    · exact ⟨_, _, ⟨on, rfl, rfl⟩, .kept⟩
    · rename_i unused
      have valid := vetted fun other => by cases other
      exact ⟨_, _, ⟨on, rfl, rfl⟩, .inserted draft valid (any_eq_false_iff.mp unused)⟩
  | updateRule rule =>
    simp only [MemoryStore.answer]
    split
    · exact ⟨_, _, ⟨on, rfl, rfl⟩, .kept⟩
    · split
      · exact ⟨_, _, ⟨on, rfl, rfl⟩, .kept⟩
      · rename_i unused
        have valid := vetted fun other => by cases other
        refine ⟨_, _, ⟨on, rfl, rfl⟩, .updated rule valid fun other member different taken => ?_⟩
        exact unused (List.any_eq_true.mpr ⟨other, member, by simp [different, taken]⟩)
  | deleteRule id => exact ⟨_, _, ⟨on, rfl, rfl⟩, .deleted id⟩
  | _ => exact ⟨_, _, ⟨on, rfl, rfl⟩, .kept⟩

end MemoryStore.Tabulates

namespace DurableStore.Tabulates

variable {s s' : DurableStore}

theorem attempt (h : s.Tabulates last rules) (table : RuleTable last rules) {α : Type} {a : α} {c : StoreCall α}
    (vetted : c.kind ≠ .saveCounters → c.Vetted) (done : s.attempt c = .ok (a, s')) :
    ∃ last' rules', s'.Tabulates last' rules' ∧ RuleEffect last rules (c.assigned (.ok a)) last' rules' := by
  obtain ⟨version, rows, number, within⟩ := h
  cases c with
  | insertRule draft =>
    change s.insertRule draft = _ at done
    rw [insertRule_entries rows number table.issued] at done
    split at done
    · cases done
    · split at done
      · cases done
      · rename_i room unused
        cases done
        refine ⟨_, _, ⟨version, rfl, rfl, ?_⟩, .inserted draft (vetted nofun) (any_eq_false_iff.mp unused)⟩
        omega
  | updateRule rule =>
    change s.updateRule rule = _ at done
    rw [updateRule_entries rows] at done
    split at done
    · split at done
      · cases done
        exact ⟨_, _, ⟨version, rows, number, within⟩, .kept⟩
      · split at done
        · cases done
        · rename_i unused
          cases done
          refine ⟨_, _, ⟨version, rfl, number, within⟩,
            .updated rule (vetted nofun) fun other member different taken => ?_⟩
          exact unused (List.any_eq_true.mpr ⟨other, member, by simp [different, taken]⟩)
    · cases done
  | deleteRule id =>
    change s.deleteRule id = _ at done
    rw [deleteRule_entries rows] at done
    split at done
    · cases done
      exact ⟨_, _, ⟨version, rfl, number, within⟩, .deleted id⟩
    · cases done
  | saveConfig config =>
    cases done
    exact ⟨_, _, ⟨version, rows, number, within⟩, .kept⟩
  | replacePhases _ | saveCounters _ =>
    obtain ⟨_, -, same⟩ := ok_of_bind done
    cases same
    exact ⟨_, _, ⟨version, rows, number, within⟩, .kept⟩
  | loadConfig | loadPhases | listRules | loadCounters =>
    obtain rfl := attempt_read rfl done
    exact ⟨_, _, ⟨version, rows, number, within⟩, .kept⟩

/-- Whatever else is written, the rules stay. -/
theorem elsewhere (h : s.Tabulates last rules) (version : s'.version = s.version) (rows : s'.rules = s.rules)
    (number : s'.lastRuleId = s.lastRuleId) : s'.Tabulates last rules :=
  ⟨version.trans h.version, rows.trans h.rows, number.trans h.number, h.within⟩

/-- The tables open again as they are. -/
theorem reopened (h : s.Tabulates last rules) : s.reopen = .ok s := by
  rw [reopen, h.version]
  rfl

end DurableStore.Tabulates

/-- A call that failed has given out no ids. -/
theorem StoreCall.assigned_error {α : Type} (c : StoreCall α) (fault : StoreFault) : c.assigned (.error fault) = [] := by
  cases c <;> rfl

namespace Backing.Tabulates

variable {s : Backing}

theorem call (h : s.Tabulates last rules) (table : RuleTable last rules) {α : Type} (c : StoreCall α)
    (vetted : c.kind ≠ .saveCounters → c.Vetted) : ∃ last' rules', (s.call c).2.Tabulates last' rules' ∧
      RuleEffect last rules (c.assigned (s.call c).1) last' rules' := by
  cases s with
  | memory store =>
    change ∃ last' rules', (store.call c).2.Tabulates last' rules' ∧ _
    rw [Backing.call, MemoryStore.call_on (MemoryStore.Tabulates.on h)]
    exact MemoryStore.Tabulates.answer h c vetted
  | durable store =>
    change ∃ last' rules', (store.call c).2.Tabulates last' rules' ∧
      RuleEffect last rules (c.assigned (store.call c).1) last' rules'
    unfold DurableStore.call
    split
    · rename_i done
      exact DurableStore.Tabulates.attempt h table vetted done
    · rw [StoreCall.assigned_error]
      exact ⟨last, rules, h, .kept⟩

/-- The store lists the rules of its table. -/
theorem listed (h : s.Tabulates last rules) (table : RuleTable last rules) : (s.call .listRules).1 = .ok rules := by
  cases s with
  | memory store =>
    change (store.call .listRules).1 = _
    rw [MemoryStore.call_on (MemoryStore.Tabulates.on h)]
    exact congrArg Except.ok (MemoryStore.Tabulates.rules h)
  | durable store =>
    have read : store.attempt .listRules = .ok (rules, store) := by
      refine DurableStore.attempt_listRules h.rows (fun rule member => (table.validated rule member).inWords)
        fun rule member => ?_
      have issued := table.issued rule member
      have within : (last : Int) ≤ 9223372036854775807 := h.within
      change rule.id < 18446744073709551616
      omega
    change (store.call .listRules).1 = _
    rw [DurableStore.call, read]

/-- The store opens again as it is. -/
theorem reopened (h : s.Tabulates last rules) : s.reopen = .ok s := by
  cases s with
  | memory store => rfl
  | durable store => exact congrArg (durable <$> ·) (DurableStore.Tabulates.reopened h)

end Backing.Tabulates

end RelayRamp.Store
