import RelayRamp.Proofs.Admission.Reachable

/-!
# Accepted input is stored

What passes the validation of phases and rules is stored as it passed, and read back so, whatever a plane and its store
have gone through. Validation knows no upper bound for the limits of a phase, though, and tables do: an accepted table
with a limit that is no signed number is refused by the store.
-/
namespace RelayRamp.Admission

open RelayRamp.Lease RelayRamp.Plane RelayRamp.Routing RelayRamp.Store RelayRamp.Time RelayRamp.Warmup

/-- What becomes of accepted input where these phases and these rules are stored. -/
structure Takes (moment : Moment) (p : Plane Backing) (phases : List WarmupPhase) (rules : List TransportRule) :
    Prop where
  replaced {given : List WarmupPhase} {table : PhaseTable} (built : PhaseTable.ofPhases given = .ok table) :
    (p.store.Fits table.phases → (replacePhases given).Stores moment p table.phases listPhases table.phases) ∧
    (¬ p.store.Fits table.phases → (replacePhases given).Refuses moment p table.phases)
  patched {stored table : PhaseTable} {number : Nat} {patch : PhasePatch}
    (built : PhaseTable.ofPhases phases = .ok stored) (changed : stored.withPatch number patch = .ok table) :
    (p.store.Fits table.phases → ∃ phase, table.get? number = some phase ∧
      (updatePhase number patch).Stores moment p phase listPhases table.phases) ∧
    (¬ p.store.Fits table.phases → (updatePhase number patch).Refuses moment p table.phases)
  /-- A new rule gets an id above those of all others, while there is one. -/
  created {raw draft : RuleDraft} {pattern : DomainPattern} (valid : raw.validate = .ok (pattern, draft))
    (unused : ∀ rule ∈ rules, rule.pattern ≠ draft.pattern) :
    (p.store.HasIds → ∃ id, (∀ rule ∈ rules, rule.id < id) ∧
      (createRule raw).Stores moment p (draft.withId id) listRules (rules ++ [draft.withId id])) ∧
    (¬ p.store.HasIds → (createRule raw).run moment p = (.error (.store Backing.exhaustedIds), p, .none))
  updated {id : Nat} {current : TransportRule} {patch : RulePatch} {draft : RuleDraft} {pattern : DomainPattern}
    (found : rules.find? (·.id = id) = some current)
    (valid : (current.patched patch).toRuleDraft.validate = .ok (pattern, draft))
    (unused : ∀ rule ∈ rules, rule.id ≠ id → rule.pattern ≠ draft.pattern) :
    (updateRule id patch).Stores moment p (draft.withId id) listRules
      (rules.map fun other => if other.id = id then draft.withId id else other)

/-- Input that passed validation is stored and read back as it passed, once the store gives a configuration: every table
of phases and every change of a phase, unless a limit is too large for the store; every new rule, while there are ids,
and every change of a rule, if no other rule has the pattern. What the store refuses changes nothing. -/
theorem accepted_input_stored {p : Plane Backing} (reachable : Reachable p)
    (configured : ∃ config, p.store.Loads config) (moment : Moment) :
    ∃ phases rules, p.store.call .loadPhases = (.ok phases, p.store) ∧
      p.store.call .listRules = (.ok rules, p.store) ∧ Takes moment p phases rules := by
  obtain ⟨phases, last, rules, holds, tabulates, table, fallback⟩ := reachable.whole
  have whole : Whole p phases last rules := ⟨configured, holds, tabulates, table, fallback⟩
  refine ⟨phases, rules, whole.loads, whole.lists, ?_, ?_, ?_, ?_⟩
  · intro given next built
    exact ⟨whole.replacePhases_stores built, replacePhases_refuses built⟩
  · intro stored next number patch built changed
    exact ⟨whole.updatePhase_stores built changed, whole.updatePhase_refuses built changed⟩
  · intro raw draft pattern valid unused
    refine ⟨fun left => ⟨last + 1, fun rule member => ?_, whole.createRule_stores left valid unused⟩,
      fun none => whole.createRule_exhausted none valid unused⟩
    exact Nat.lt_succ_of_le (table.issued rule member)
  · intro id current patch draft pattern found valid unused
    exact whole.updateRule_stores found valid unused

/-- Over tables that hold one phase and one rule: the largest number that fits becomes the limit per hour, a second rule
is stored under the canonical text of its pattern, and the first one is switched off. -/
theorem accepted_input_stored_largest :
    let empty : PlannedStore Backing := ⟨.durable .empty, []⟩
    let start (hourly : Nat) : WarmupPhase := ⟨0, "start", 7, ⟨hourly, 50, 10⟩⟩
    let relay (pattern : String) : RuleDraft := ⟨pattern, ⟨"relay"⟩, ⟨2, 0⟩, true, none⟩
    let off : RuleDraft := { relay "example.org" with isActive := false }
    let acts : List (Moment × Act) :=
      [(⟨⟨1⟩, 1⟩, .command (.replacePhases [start 20])), (⟨⟨2⟩, 2⟩, .command (.createRule (relay "example.org")))]
    let now : Moment := ⟨⟨3⟩, 3⟩
    ∃ p effects, Plane.launch empty Service.bare ⟨⟨0⟩, 0⟩ = .ok (p, effects) ∧
      let q := ((Service.opened p).run acts).plane.relieved
      (updatePhase 0 ⟨none, none, some 9223372036854775807, none, none⟩).Stores now q (start 9223372036854775807)
        listPhases [start 9223372036854775807] ∧
      (∃ id, 1 < id ∧ (createRule (relay " *.Example.ORG. ")).Stores now q ((relay "*.example.org").withId id) listRules
        [(relay "example.org").withId 1, (relay "*.example.org").withId id]) ∧
      (updateRule 1 ⟨none, none, none, none, some false, none⟩).Stores now q (off.withId 1) listRules [off.withId 1] := by
  intro empty start relay off acts now
  have runs : (Plane.launch empty Service.bare ⟨⟨0⟩, 0⟩).toOption.map (fun first =>
      let store := ((Service.opened first.1).run acts).plane.relieved.store
      decide ((store.call .loadConfig).1 = .ok (some (.fresh ⟨0⟩)) ∧ (store.call .loadPhases).1 = .ok [start 20] ∧
        (store.call .listRules).1 = .ok [(relay "example.org").withId 1] ∧
        store.Fits [start 9223372036854775807] ∧ store.HasIds)) = some true := by
    decide +kernel
  obtain ⟨⟨p, effects⟩, launched, runs⟩ := Option.map_eq_some_iff.mp runs
  obtain ⟨config, loaded, listed, fits, left⟩ := of_decide_eq_true runs
  have launched := ok_of_toOption launched
  have reachable := Reachable.served acts (.durable (t := ⟨0⟩)) launched
  obtain ⟨phases, rules, phases_eq, rules_eq, takes⟩ := accepted_input_stored reachable ⟨_, config⟩ now
  rw [phases_eq] at loaded
  rw [rules_eq] at listed
  obtain rfl : phases = [start 20] := Except.ok.inj loaded
  obtain rfl : rules = [(relay "example.org").withId 1] := Except.ok.inj listed
  refine ⟨p, effects, launched, ?_, ?_, ?_⟩
  · let stored : PhaseTable := ⟨[start 20], by decide, by decide +kernel⟩
    let table : PhaseTable := ⟨[start 9223372036854775807], by decide, by decide +kernel⟩
    have changed : stored.withPatch 0 ⟨none, none, some 9223372036854775807, none, none⟩ = .ok table :=
      table.ofPhases_self (by decide)
    obtain ⟨phase, found, stores⟩ := (takes.patched (stored.ofPhases_self (by decide)) changed).1 fits
    cases found
    exact stores
  · have canonical : (relay " *.Example.ORG. ").validate.toOption.map (·.2) = some (relay "*.example.org") := by
      decide +kernel
    obtain ⟨⟨pattern, draft⟩, valid, rfl⟩ := Option.map_eq_some_iff.mp canonical
    obtain ⟨id, above, stores⟩ := (takes.created (ok_of_toOption valid) (by decide)).1 left
    exact ⟨id, above _ (List.mem_singleton_self _), stores⟩
  · have canonical : off.validate.toOption.map (·.2) = some off := by decide +kernel
    obtain ⟨⟨pattern, draft⟩, valid, rfl⟩ := Option.map_eq_some_iff.mp canonical
    exact takes.updated rfl (ok_of_toOption valid) (by decide)

/-- Tables refuse a table of phases that was accepted: the limit per hour is one more than the largest signed number. -/
theorem accepted_limit_refused :
    let large : WarmupPhase := ⟨0, "open", 7, ⟨9223372036854775808, 100, 10⟩⟩
    ∃ p : Plane Backing, Reachable p ∧ (∃ config, p.store.Loads config) ∧
      (∃ table, PhaseTable.ofPhases [large] = .ok table) ∧
      ((replacePhases [large]).run ⟨⟨1⟩, 1⟩ p).1 =
        .error (.store ⟨.invalid, "max_per_hour too large: 9223372036854775808"⟩) := by
  intro large
  let empty : PlannedStore Backing := ⟨.durable .empty, []⟩
  have runs : (Plane.launch empty Service.bare ⟨⟨0⟩, 0⟩).toOption.map (fun first =>
      let p := ((Service.opened first.1).run []).plane.relieved
      ((p.store.call .loadConfig).1, ((replacePhases [large]).run ⟨⟨1⟩, 1⟩ p).1)) =
      some (.ok (some (.fresh ⟨0⟩)),
        .error (.store ⟨.invalid, "max_per_hour too large: 9223372036854775808"⟩)) := by
    decide +kernel
  obtain ⟨⟨p, effects⟩, launched, runs⟩ := Option.map_eq_some_iff.mp runs
  obtain ⟨config, refused⟩ := Prod.mk.inj runs
  let table : PhaseTable := ⟨[large], by decide, by decide +kernel⟩
  exact ⟨_, .served [] (.durable (t := ⟨0⟩)) (ok_of_toOption launched), ⟨_, config⟩,
    ⟨table, table.ofPhases_self (by decide)⟩, refused⟩

end RelayRamp.Admission
