import RelayRamp.Proofs.Store.Rows

/-!
# Rules as rows

A store in tables keeps one row for each rule. Read through its rows, it inserts, updates and deletes rules as the
store in memory does with its list; besides, it refuses ids that do not fit a signed number.
-/
namespace RelayRamp.Routing

/-- The numbers of the rule fit 32 bits. -/
structure RuleDraft.InWords (draft : RuleDraft) : Prop where
  concurrency : draft.limits.concurrency < Width.word
  rateDelay : draft.limits.rateDelaySeconds < Width.word

end RelayRamp.Routing

namespace RelayRamp.Store

open RelayRamp.Routing

namespace RuleRow

/-- The row of a rule. -/
def entry (rule : TransportRule) : RuleRow := .ofDraft rule.id rule.toRuleDraft

theorem entry_id (rule : TransportRule) : (entry rule).id = rule.id := rfl

theorem entry_pattern (rule : TransportRule) (pattern : String) :
    ((entry rule).pattern == .text pattern) = decide (rule.pattern = pattern) := by
  change (rule.pattern == pattern) = _
  rw [Bool.beq_eq_decide_eq]

/-- A row of numbers in range gives its rule back. -/
theorem toRule_entry {rule : TransportRule} (words : rule.InWords) (id : rule.id < Width.long) :
    (entry rule).toRule = .ok rule := by
  have pattern : (entry rule).pattern.toText 1 "domain_pattern" = .ok rule.pattern := rfl
  have transport : (entry rule).transport.toText 2 "transport_name" = .ok rule.transport.text := rfl
  have concurrency : (entry rule).concurrency.toInteger 3 "concurrency_limit" = .ok rule.limits.concurrency := rfl
  have delay : (entry rule).rateDelay.toInteger 4 "rate_delay_seconds" = .ok rule.limits.rateDelaySeconds := rfl
  have active : (entry rule).isActive.toBool 5 "is_active" = .ok rule.isActive := Datum.toBool_bool ..
  have description : (entry rule).description.optional Datum.toText 6 "description" = .ok rule.description :=
    Datum.optional_text ..
  have number : storedLong (entry rule).id "id" = .ok rule.id := storedLong_of_lt id _
  have concurrency_fits := storedWord_of_lt words.concurrency "concurrency_limit"
  have delay_fits := storedWord_of_lt words.rateDelay "rate_delay_seconds"
  unfold toRule
  rw [pattern, ok_bind, transport, ok_bind, concurrency, ok_bind, delay, ok_bind, active, ok_bind, description, ok_bind,
    number, ok_bind, concurrency_fits, ok_bind, delay_fits, ok_bind]
  rfl

end RuleRow

namespace DurableStore

variable {s : DurableStore} {rules : List TransportRule} {last : Nat}

theorem any_id (rules : List TransportRule) (id : Nat) :
    (rules.map RuleRow.entry).any (fun r => decide (r.id = (id : Int))) = rules.any fun r => decide (r.id = id) := by
  rw [List.any_map]
  refine congrArg (List.any rules) (funext fun rule => ?_)
  simp only [Function.comp_apply, RuleRow.entry_id, Int.natCast_inj]

theorem any_pattern (rules : List TransportRule) (pattern : String) :
    (rules.map RuleRow.entry).any (fun r => r.pattern == .text pattern) =
      rules.any fun r => decide (r.pattern = pattern) := by
  rw [List.any_map]
  exact congrArg (List.any rules) (funext fun rule => RuleRow.entry_pattern rule pattern)

/-- No id is above the last one that was given out. -/
theorem highest_eq (issued : ∀ rule ∈ rules, rule.id ≤ last) :
    (rules.map RuleRow.entry).foldl (fun m r => max m r.id) (last : Int) = last := by
  induction rules with
  | nil => rfl
  | cons rule rest ih =>
    obtain ⟨first, others⟩ := List.forall_mem_cons.mp issued
    have kept : max (last : Int) (rule.id : Int) = last := by omega
    rw [List.map_cons, List.foldl_cons, RuleRow.entry_id, kept]
    exact ih others

theorem insertRule_entries (rows : s.rules = rules.map RuleRow.entry) (number : s.lastRuleId = last)
    (issued : ∀ rule ∈ rules, rule.id ≤ last) (draft : RuleDraft) :
    s.insertRule draft =
      if maxRuleId ≤ last then .error ⟨.engine, "database or disk is full"⟩
      else if rules.any (·.pattern = draft.pattern) then .error duplicatePattern
      else .ok (draft.withId (last + 1),
        { s with rules := (rules ++ [draft.withId (last + 1)]).map RuleRow.entry, lastRuleId := (last + 1 : Nat) }) := by
  simp only [insertRule, rows, number, highest_eq issued, any_pattern, ge_iff_le]
  split
  · rfl
  · split
    · rfl
    · have next : ((last : Int) + 1).toNat = last + 1 := by omega
      rw [List.map_append, next]
      rfl

theorem updateRule_entries (rows : s.rules = rules.map RuleRow.entry) (rule : TransportRule) :
    s.updateRule rule =
      if rule.id < Width.signed then
        if !rules.any (·.id = rule.id) then .ok (false, s)
        else if rules.any fun other => other.id ≠ rule.id && other.pattern = rule.pattern then .error duplicatePattern
        else .ok (true,
          { s with rules := (rules.map fun other => if other.id = rule.id then rule else other).map RuleRow.entry })
      else .error (tooLarge rule.id "rule id") := by
  have taken : (rules.map RuleRow.entry).any (fun r => decide (r.id ≠ (rule.id : Int)) && r.pattern == .text rule.pattern) =
      rules.any fun other => decide (other.id ≠ rule.id) && decide (other.pattern = rule.pattern) := by
    rw [List.any_map]
    refine congrArg (List.any rules) (funext fun other => ?_)
    simp only [Function.comp_apply, RuleRow.entry_id, RuleRow.entry_pattern, ne_eq, Int.natCast_inj]
  have replaced : ((rules.map RuleRow.entry).map fun r =>
      if r.id = (rule.id : Int) then RuleRow.ofDraft rule.id rule.toRuleDraft else r) =
      (rules.map fun other => if other.id = rule.id then rule else other).map RuleRow.entry := by
    rw [List.map_map, List.map_map]
    refine List.map_congr_left fun other _ => ?_
    simp only [Function.comp_apply, RuleRow.entry_id, Int.natCast_inj]
    split <;> rfl
  unfold updateRule
  rw [inputInteger_eq]
  split
  · rw [ok_bind]
    simp only [rows, any_id, taken, replaced]
    split
    · rfl
    · split <;> rfl
  · rfl

theorem deleteRule_entries (rows : s.rules = rules.map RuleRow.entry) (id : Nat) :
    s.deleteRule id =
      if id < Width.signed then
        .ok (rules.any (·.id = id), { s with rules := (rules.filter (·.id ≠ id)).map RuleRow.entry })
      else .error (tooLarge id "rule id") := by
  have kept : (rules.map RuleRow.entry).filter (fun r => decide (r.id ≠ (id : Int))) =
      (rules.filter (·.id ≠ id)).map RuleRow.entry := by
    rw [List.filter_map]
    refine congrArg _ (List.filter_congr fun rule _ => ?_)
    simp only [Function.comp_apply, RuleRow.entry_id, ne_eq, Int.natCast_inj]
  unfold deleteRule
  rw [inputInteger_eq]
  split
  · rw [ok_bind]
    simp only [rows, any_id, kept]
    rfl
  · rfl

/-- Rows whose numbers are in range list the rules. -/
theorem attempt_listRules (rows : s.rules = rules.map RuleRow.entry) (words : ∀ rule ∈ rules, rule.InWords)
    (ids : ∀ rule ∈ rules, rule.id < Width.long) : s.attempt .listRules = .ok (rules, s) := by
  have read : s.rules.mapM RuleRow.toRule = .ok rules := by
    rw [rows]
    exact mapM_written fun rule member => RuleRow.toRule_entry (words rule member) (ids rule member)
  simp only [attempt, read]
  rfl

end DurableStore

end RelayRamp.Store
