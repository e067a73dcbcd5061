import RelayRamp.Proofs.Plane.Calls
import RelayRamp.Proofs.Routing.Patterns
import RelayRamp.Proofs.Store.Effects

/-!
# Stored rules

What validation makes of a rule is valid as it stands. A store that is only asked to write such rules holds nothing
else and lists nothing else, so a matcher can be built from what it lists.
-/
namespace RelayRamp.Routing

open RelayRamp.Store

/-- Validating a rule again changes nothing. -/
theorem RuleDraft.validate_validated {raw draft : RuleDraft} {pattern : DomainPattern}
    (valid : raw.validate = .ok (pattern, draft)) : draft.validate = .ok (pattern, draft) := by
  obtain ⟨found, parsed, valid⟩ := ok_of_bind valid
  obtain ⟨⟨⟩, name, valid⟩ := ok_of_bind valid
  obtain ⟨⟨⟩, limits, valid⟩ := ok_of_bind valid
  split at valid
  · cases valid
  · rename_i short
    cases valid
    simp only [validate, DomainPattern.parse_canonical parsed, name, limits, if_neg short]
    rfl

theorem RuleDraft.Validated.readable {draft : RuleDraft} (validated : draft.Validated) :
    ∃ pattern, DomainPattern.parse draft.pattern = .ok pattern := by
  obtain ⟨raw, pattern, valid⟩ := validated
  obtain ⟨found, parsed, -⟩ := ok_of_bind (RuleDraft.validate_validated valid)
  exact ⟨found, parsed⟩

theorem Matcher.mapM_compile_ok {rules : List TransportRule}
    (validated : ∀ rule ∈ rules, rule.toRuleDraft.Validated) : ∃ compiled, rules.mapM compile = .ok compiled := by
  refine exists_mapM fun rule member => ?_
  obtain ⟨pattern, parsed⟩ := (validated rule member).readable
  rw [compile, TransportRule.parsedPattern, parsed]
  exact ⟨⟨rule.id, pattern, rule.transport⟩, rfl⟩

/-- A matcher can be built from validated rules and a valid default transport. -/
theorem Matcher.build_ok {rules : List TransportRule} (validated : ∀ rule ∈ rules, rule.toRuleDraft.Validated)
    {fallback : DefaultTransport} (valid : fallback.validate = .ok ()) :
    ∃ matcher, build rules fallback = .ok matcher := by
  obtain ⟨compiled, done⟩ := mapM_compile_ok fun rule (member : rule ∈ rules.filter (·.isActive)) =>
    validated rule (List.mem_filter.mp member).1
  simp only [build, valid, done]
  exact ⟨_, rfl⟩

end RelayRamp.Routing

namespace RelayRamp.Store

open RelayRamp.Routing

/-! ### What tables list -/

theorem storedNat_ok {bound n : Nat} {value : Int} {column : String} (stored : storedNat bound value column = .ok n) :
    n = value.toNat := by
  unfold storedNat at stored
  split at stored
  · cases stored
    rfl
  · cases stored

/-- The row of a rule reads as that rule. -/
theorem RuleRow.toRule_ofDraft {id : Int} {draft : RuleDraft} {rule : TransportRule}
    (read : (ofDraft id draft).toRule = .ok rule) : rule.toRuleDraft = draft := by
  obtain ⟨pattern, ⟨⟩, read⟩ := ok_of_bind read
  obtain ⟨transport, ⟨⟩, read⟩ := ok_of_bind read
  obtain ⟨concurrency, ⟨⟩, read⟩ := ok_of_bind read
  obtain ⟨delay, ⟨⟩, read⟩ := ok_of_bind read
  obtain ⟨active, active_eq, read⟩ := ok_of_bind read
  obtain ⟨description, description_eq, read⟩ := ok_of_bind read
  obtain ⟨number, -, read⟩ := ok_of_bind read
  obtain ⟨concurrency', stored, read⟩ := ok_of_bind read
  obtain ⟨delay', stored', read⟩ := ok_of_bind read
  cases read
  rcases draft with ⟨pattern, transport, limits, isActive, description⟩
  cases storedNat_ok stored
  cases storedNat_ok stored'
  cases isActive <;> cases description <;> cases active_eq <;> cases description_eq <;> rfl

/-! ### Stores of validated rules -/

/-- Every rule in the store is what validation made of one. -/
def Backing.RulesValidated : Backing → Prop
  | memory store => ∀ rule ∈ store.rules, rule.toRuleDraft.Validated
  | durable store => ∀ row ∈ store.rules, ∃ id draft, row = .ofDraft id draft ∧ draft.Validated

namespace Backing.RulesValidated

theorem memory_answer {store : MemoryStore} (h : (memory store).RulesValidated) {α : Type} (c : StoreCall α)
    (vetted : c.kind ≠ .saveCounters → c.Vetted) : (memory (store.answer c).2).RulesValidated := by
  cases c with
  | insertRule draft =>
    rcases store.insertRule_cases draft with ⟨fault, failed⟩ | ⟨id, done⟩
    · rwa [failed]
    · rw [done]
      intro rule member
      rcases List.mem_append.mp member with old | new
      · exact h rule old
      · obtain rfl := List.mem_singleton.mp new
        exact vetted nofun
  | updateRule rule =>
    rcases store.updateRule_cases rule with ⟨fault, failed⟩ | missed | done
    · rwa [failed]
    · rwa [missed]
    · rw [done]
      intro other member
      obtain ⟨old, present, same⟩ := List.mem_map.mp member
      split at same
      · exact same ▸ vetted nofun
      · exact same ▸ h old present
  | deleteRule id => exact fun rule member => h rule (List.mem_filter.mp member).1
  | loadConfig | loadPhases | listRules | loadCounters | saveConfig _ | replacePhases _ | saveCounters _ => exact h

theorem durable_attempt {store store' : DurableStore} (h : (durable store).RulesValidated) {α : Type} {a : α}
    {c : StoreCall α} (vetted : c.kind ≠ .saveCounters → c.Vetted) (done : store.attempt c = .ok (a, store')) :
    (durable store').RulesValidated := by
  cases c with
  | insertRule draft =>
    obtain ⟨id, rfl⟩ := DurableStore.insertRule_ok done
    intro row member
    rcases List.mem_append.mp member with old | new
    · exact h row old
    · exact ⟨id, draft, List.mem_singleton.mp new, vetted nofun⟩
  | updateRule rule =>
    rcases DurableStore.updateRule_ok done with ⟨-, rfl⟩ | ⟨-, id, rfl⟩
    · exact h
    · intro row member
      obtain ⟨old, present, same⟩ := List.mem_map.mp member
      split at same
      · exact ⟨id, _, same.symm, vetted nofun⟩
      · exact same ▸ h old present
  | deleteRule id =>
    obtain ⟨-, id, rfl⟩ := DurableStore.deleteRule_ok done
    exact fun row member => h row (List.mem_filter.mp member).1
  | saveConfig config =>
    cases done
    exact h
  | replacePhases _ | saveCounters _ =>
    obtain ⟨rows, -, same⟩ := ok_of_bind done
    cases same
    exact h
  | loadConfig | loadPhases | listRules | loadCounters =>
    obtain rfl := DurableStore.attempt_read rfl done
    exact h

/-- A store that is asked to write only validated rules goes on holding nothing else. -/
theorem asked {s : Backing} (h : s.RulesValidated) {α : Type} (c : StoreCall α)
    (vetted : c.kind ≠ .saveCounters → c.Vetted) : (s.call c).2.RulesValidated := by
  cases s with
  | memory store =>
    change (memory (store.call c).2).RulesValidated
    unfold MemoryStore.call
    split
    · exact h
    · exact h.memory_answer c vetted
  | durable store =>
    change (durable (store.call c).2).RulesValidated
    unfold DurableStore.call
    split
    · rename_i done
      exact h.durable_attempt vetted done
    · exact h

/-- What such a store lists are validated rules. -/
theorem listed {s : Backing} (h : s.RulesValidated) {rules : List TransportRule}
    (ok : (s.call .listRules).1 = .ok rules) {rule : TransportRule} (member : rule ∈ rules) :
    rule.toRuleDraft.Validated := by
  cases s with
  | memory store =>
    change (store.call .listRules).1 = .ok rules at ok
    unfold MemoryStore.call at ok
    split at ok
    · cases ok
    · cases ok
      exact h rule member
  | durable store =>
    obtain ⟨store', done, -⟩ := DurableStore.call_ok ok
    obtain ⟨_, read, same⟩ := ok_of_bind done
    cases same
    obtain ⟨row, present, reads⟩ := (mem_of_mapM read rule).mp member
    obtain ⟨id, draft, rfl, validated⟩ := h row present
    exact RuleRow.toRule_ofDraft reads ▸ validated

end Backing.RulesValidated

end RelayRamp.Store
