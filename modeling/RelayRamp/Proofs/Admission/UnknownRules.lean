import RelayRamp.Proofs.Admission.Reachable

/-!
# Rules that are not there

An id can be unknown because it was never given out, because its rule was deleted, or because no rule can have it. A
change of such a rule is answered alike in all three cases: the rules are listed first, and it is not among them. A
deletion asks the store for it, and tables are asked with a signed number: of an id that is none they say that it is too
large, and not that it is unknown.
-/
namespace RelayRamp.Admission

open RelayRamp.Lease RelayRamp.Plane RelayRamp.Routing RelayRamp.Store RelayRamp.Time

/-- Of an id that no rule has, changing and deleting say that it is not found, and change nothing. Only where the id is
too large for the store does deleting fail as a call of the store; nothing is changed then, either. -/
theorem unknown_rules_not_found {p : Plane Backing} (reachable : Reachable p) (moment : Moment) :
    ∃ rules, p.store.call .listRules = (.ok rules, p.store) ∧ ∀ id, (∀ rule ∈ rules, rule.id ≠ id) →
      (∀ patch, (updateRule id patch).run moment p = (.error (.ruleNotFound id), p, .none)) ∧
      (p.store.Numbers id → (deleteRule id).run moment p = (.error (.ruleNotFound id), p, .none)) ∧
      (¬ p.store.Numbers id →
        (deleteRule id).run moment p = (.error (.store (tooLarge id "rule id")), p, .none)) := by
  obtain ⟨-, last, rules, -, tabulates, table, -⟩ := reachable.whole
  refine ⟨rules, Backing.call_of_vain (tabulates.listed table) (Or.inl rfl), fun id absent => ⟨fun patch => ?_, ?_, ?_⟩⟩
  · exact updateRule_unknown tabulates table absent patch
  · exact deleteRule_unknown tabulates absent
  · exact deleteRule_unasked tabulates

/-- Over tables: of two rules the first one is deleted. Its id is not found, nor is the next one or the largest. -/
theorem unknown_rules_not_found_deleted :
    let empty : PlannedStore Backing := ⟨.durable .empty, []⟩
    let relay (pattern : String) : RuleDraft := ⟨pattern, ⟨"relay"⟩, ⟨2, 0⟩, true, none⟩
    let paused : RulePatch := ⟨none, none, none, none, some false, none⟩
    let acts : List (Moment × Act) :=
      [(⟨⟨1⟩, 1⟩, .command (.createRule (relay "example.org"))), (⟨⟨2⟩, 2⟩, .command (.createRule (relay "example.net"))),
        (⟨⟨3⟩, 3⟩, .command (.deleteRule 1))]
    let now : Moment := ⟨⟨4⟩, 4⟩
    ∃ p effects, Plane.launch empty Service.bare ⟨⟨0⟩, 0⟩ = .ok (p, effects) ∧
      let q := ((Service.opened p).run acts).plane.relieved
      (updateRule 1 paused).run now q = (.error (.ruleNotFound 1), q, .none) ∧
      (deleteRule 1).run now q = (.error (.ruleNotFound 1), q, .none) ∧
      (deleteRule 3).run now q = (.error (.ruleNotFound 3), q, .none) ∧
      (deleteRule 9223372036854775807).run now q = (.error (.ruleNotFound 9223372036854775807), q, .none) := by
  intro empty relay paused acts now
  have runs : (Plane.launch empty Service.bare ⟨⟨0⟩, 0⟩).toOption.map (fun first =>
      (((Service.opened first.1).run acts).plane.relieved.store.call .listRules).1.toOption.map (·.map (·.id))) =
      some (some [2]) := by
    decide +kernel
  obtain ⟨⟨p, effects⟩, launched, listed⟩ := Option.map_eq_some_iff.mp runs
  have launched := ok_of_toOption launched
  have reachable := Reachable.served acts (.durable (t := ⟨0⟩)) launched
  obtain ⟨rules, answered, unknown⟩ := unknown_rules_not_found reachable now
  rw [answered] at listed
  have ids : rules.map (·.id) = [2] := Option.some.inj listed
  have absent (id : Nat) (other : id ≠ 2) : ∀ rule ∈ rules, rule.id ≠ id := by
    rintro rule member rfl
    exact other (List.mem_singleton.mp (ids ▸ List.mem_map_of_mem member))
  have numbers (id : Nat) (fits : id < Width.signed) :
      ((Service.opened p).run acts).plane.relieved.store.Numbers id := by
    generalize ((Service.opened p).run acts).plane.relieved.store = store
    cases store with
    | memory => trivial
    | durable => exact fits
  refine ⟨p, effects, launched, (unknown 1 (absent 1 (by decide))).1 paused, ?_, ?_, ?_⟩
  · exact (unknown 1 (absent 1 (by decide))).2.1 (numbers 1 (by decide))
  · exact (unknown 3 (absent 3 (by decide))).2.1 (numbers 3 (by decide))
  · exact (unknown 9223372036854775807 (absent _ (by decide))).2.1 (numbers _ (by decide))

/-- No rule was ever created. An id that is no signed number is not found by a change; tables refuse to delete it. -/
theorem unknown_rule_refused :
    ∃ p : Plane Backing, Reachable p ∧ (p.store.call .listRules).1 = .ok [] ∧
      ((updateRule 9223372036854775808 ⟨none, none, none, none, none, none⟩).run ⟨⟨1⟩, 1⟩ p).1 =
        .error (.ruleNotFound 9223372036854775808) ∧
      ((deleteRule 9223372036854775808).run ⟨⟨1⟩, 1⟩ p).1 =
        .error (.store ⟨.invalid, "rule id too large: 9223372036854775808"⟩) := by
  let empty : PlannedStore Backing := ⟨.durable .empty, []⟩
  have runs : (Plane.launch empty Service.bare ⟨⟨0⟩, 0⟩).toOption.map (fun first =>
      let p := ((Service.opened first.1).run []).plane.relieved
      ((p.store.call .listRules).1,
        ((updateRule 9223372036854775808 ⟨none, none, none, none, none, none⟩).run ⟨⟨1⟩, 1⟩ p).1,
        ((deleteRule 9223372036854775808).run ⟨⟨1⟩, 1⟩ p).1)) =
      some (.ok [], .error (.ruleNotFound 9223372036854775808),
        .error (.store ⟨.invalid, "rule id too large: 9223372036854775808"⟩)) := by
    decide +kernel
  obtain ⟨⟨p, effects⟩, launched, runs⟩ := Option.map_eq_some_iff.mp runs
  obtain ⟨listed, runs⟩ := Prod.mk.inj runs
  obtain ⟨changed, deleted⟩ := Prod.mk.inj runs
  exact ⟨_, .served [] (.durable (t := ⟨0⟩)) (ok_of_toOption launched), listed, changed, deleted⟩

end RelayRamp.Admission
