import RelayRamp.Proofs.Store.Contents
import RelayRamp.Proofs.Store.RuleTable
import RelayRamp.Seed

/-!
# A store that is being filled

An empty store is filled with the seed data call by call, and each call can fail. In between the store has the phases
or not, and the first of the rules under the ids that come next. A call that fails leaves it where it was.
-/
namespace RelayRamp.Seed

open RelayRamp.Routing RelayRamp.Store

/-- The rules of the drafts, with the ids that follow the last one. -/
def numbered (last : Nat) (drafts : List RuleDraft) : List TransportRule :=
  (drafts.zipIdx (last + 1)).map fun entry => entry.1.withId entry.2

theorem numbered_append (last : Nat) (drafts : List RuleDraft) (draft : RuleDraft) :
    numbered last (drafts ++ [draft]) = numbered last drafts ++ [draft.withId (last + drafts.length + 1)] := by
  simp only [numbered, List.zipIdx_append, List.map_append, List.zipIdx_singleton, List.map_singleton]
  rw [Nat.add_right_comm]

theorem numbered_eq_nil {last : Nat} {drafts : List RuleDraft} : numbered last drafts = [] ↔ drafts = [] := by
  simp [numbered]

/-- Validation leaves the rules as they are. -/
theorem rules_validated {draft : RuleDraft} (member : draft ∈ rules) :
    ∃ pattern, draft.validate = .ok (pattern, draft) := by
  have all : ∀ draft ∈ rules, draft.validate.toOption.map (·.2) = some draft := by decide +kernel
  obtain ⟨⟨pattern, validated⟩, valid, same⟩ := Option.map_eq_some_iff.mp (all draft member)
  cases same
  exact ⟨pattern, ok_of_toOption valid⟩

end RelayRamp.Seed

namespace RelayRamp.Store

open RelayRamp.Routing RelayRamp.Warmup

/-- The store has the configuration, the phases, and the rules of the drafts with the ids after the last one that was
given out before. -/
structure Backing.Stocked (s : Backing) (last : Nat) (config : Option WarmupConfig) (phases : List WarmupPhase)
    (drafts : List RuleDraft) : Prop where
  tabulates : s.Tabulates (last + drafts.length) (Seed.numbered last drafts)
  table : RuleTable (last + drafts.length) (Seed.numbered last drafts)
  config : s.contents.config = config
  phases : s.contents.phases = phases

namespace Backing.Stocked

variable {s : Backing} {last : Nat} {config : Option WarmupConfig} {phases : List WarmupPhase} {drafts : List RuleDraft}

theorem rules (h : s.Stocked last config phases drafts) : s.contents.rules = Seed.numbered last drafts :=
  (Backing.faithful.answer .listRules trivial (h.tabulates.listed h.table)).1.symm

theorem saveConfig (h : s.Stocked last config phases drafts) (new : WarmupConfig) :
    ∃ config, (s.call (.saveConfig new)).2.Stocked last config phases drafts := by
  obtain ⟨tabulates, table, -, held⟩ := h
  cases s with
  | memory store =>
    have done : store.call (.saveConfig new) = (.ok (), { store with config := some new }) := by
      rw [MemoryStore.call_on (MemoryStore.Tabulates.on tabulates)]
      rfl
    simp only [Backing.call, done]
    exact ⟨_, ⟨tabulates.on, tabulates.rules, tabulates.number⟩, table, rfl, held⟩
  | durable store => exact ⟨_, DurableStore.Tabulates.elsewhere tabulates rfl rfl rfl, table, rfl, held⟩

theorem replacePhases (h : s.Stocked last config phases drafts) :
    (s.call (.replacePhases Seed.phases)).2.Stocked last config Seed.phases drafts := by
  obtain ⟨tabulates, table, unchanged, -⟩ := h
  cases s with
  | memory store =>
    have done : store.call (.replacePhases Seed.phases) = (.ok (), { store with phases := Seed.phases }) := by
      rw [MemoryStore.call_on (MemoryStore.Tabulates.on tabulates)]
      rfl
    simp only [Backing.call, done]
    exact ⟨⟨tabulates.on, tabulates.rules, tabulates.number⟩, table, unchanged, rfl⟩
  | durable store =>
    exact ⟨DurableStore.Tabulates.elsewhere tabulates rfl rfl rfl, table, unchanged, by with_unfolding_all rfl⟩

/-- A rule that is not refused gets the next id. -/
theorem insertRule (h : s.Stocked last config phases drafts) {draft : RuleDraft} (validated : draft.Validated)
    {rule : TransportRule} (done : (s.call (.insertRule draft)).1 = .ok rule) :
    (s.call (.insertRule draft)).2.Stocked last config phases (drafts ++ [draft]) := by
  obtain ⟨tabulates, table, unchanged, held⟩ := h
  have inserted (unused : ∀ rule ∈ Seed.numbered last drafts, rule.pattern ≠ draft.pattern) :
      RuleTable (last + (drafts ++ [draft]).length) (Seed.numbered last (drafts ++ [draft])) := by
    rw [Seed.numbered_append, List.length_append]
    exact table.inserted validated unused
  cases s with
  | memory store =>
    obtain ⟨on, rules, number⟩ := tabulates
    simp only [Backing.call, MemoryStore.call_on on, MemoryStore.answer, rules, number] at done ⊢
    split at done
    · cases done
    · rename_i unused
      rw [if_neg unused]
      exact ⟨⟨on, (Seed.numbered_append ..).symm, by rw [List.length_append]; rfl⟩,
        inserted (any_eq_false_iff.mp unused), unchanged, held⟩
  | durable store =>
    obtain ⟨version, rows, number, within⟩ := tabulates
    have answered : store.attempt (.insertRule draft) = _ :=
      DurableStore.insertRule_entries rows number table.issued draft
    simp only [Backing.call, DurableStore.call, answered] at done ⊢
    by_cases full : DurableStore.maxRuleId ≤ ((last + drafts.length : Nat) : Int)
    · rw [if_pos full] at done
      cases done
    · rw [if_neg full] at done ⊢
      by_cases taken : ((Seed.numbered last drafts).any (·.pattern = draft.pattern)) = true
      · rw [if_pos taken] at done
        cases done
      · rw [if_neg taken]
        refine ⟨⟨version, by rw [Seed.numbered_append], by rw [List.length_append]; rfl, ?_⟩,
          inserted (any_eq_false_iff.mp taken), unchanged, held⟩
        rw [List.length_append, List.length_singleton]
        omega

end Backing.Stocked

end RelayRamp.Store
