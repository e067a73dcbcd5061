import RelayRamp.Proofs.Plane.Rerouting
import RelayRamp.Proofs.Plane.Rejection
import RelayRamp.Proofs.Store.Storing

/-!
# What becomes of accepted input

Over a store that gives a configuration, the phases and the rules, a snapshot can always be published. So a call whose
input was accepted ends as the store takes what it writes: what is taken is published and read back as it was accepted,
and what is refused changes nothing.
-/
namespace RelayRamp.Plane

open RelayRamp.Lease RelayRamp.Routing RelayRamp.Store RelayRamp.Time RelayRamp.Warmup

variable {α β : Type} {moment : Moment}

namespace Call

/-! ### Calls that begin by asking -/

section

variable {σ : Type} {p : Plane σ} {c : StoreCall α} {f : α → Call σ β} {a : α} {store : σ}

theorem run_eq (c : Call σ α) (moment : Moment) (p : Plane σ) : c.run moment p =
    ((c.exec moment ⟨p, .none⟩).1, (c.exec moment ⟨p, .none⟩).2.plane, (c.exec moment ⟨p, .none⟩).2.effects) := rfl

/-- What was accepted is what the call goes on with. -/
theorem run_orInvalid_bind : (orInvalid (.ok a) >>= f).run moment p = (f a).run moment p := rfl

theorem run_requireUnused_bind {rules : List TransportRule} {pattern : String} {except : Option Nat}
    {f : Unit → Call σ β} (unused : ∀ rule ∈ rules, some rule.id ≠ except → rule.pattern ≠ pattern) :
    (requireUnused rules pattern except >>= f).run moment p = (f ()).run moment p := by
  have none : ¬ (rules.any fun rule => some rule.id ≠ except && rule.pattern = pattern) = true := by simpa using unused
  rw [requireUnused, if_neg none]
  rfl

variable [ThrottleStore σ]

/-- The call goes on with the answer, over what the store has become. -/
theorem run_ask_bind (answered : ThrottleStore.call c p.store = (.ok a, store)) :
    (ask c >>= f).run moment p = (f a).run moment { p with store } := by
  rw [run_eq, exec_bind, exec_ask, answered]
  rfl

/-- A fault of the store ends the call. -/
theorem run_ask_refused {fault : StoreFault} (failed : ThrottleStore.call c p.store = (.error fault, store)) :
    (ask c >>= f).run moment p = (.error (.store fault), { p with store }, .none) := by
  rw [run_eq, exec_bind, exec_ask, failed]
  rfl

theorem run_askUnique_bind {pattern : String} (answered : ThrottleStore.call c p.store = (.ok a, store)) :
    (askUnique pattern c >>= f).run moment p = (f a).run moment { p with store } := by
  rw [run_eq, exec_bind, askUnique, exec_tryCatch, exec_ask, answered]
  rfl

/-- Any fault but a conflict is passed on. -/
theorem run_askUnique_refused {pattern : String} {fault : StoreFault}
    (failed : ThrottleStore.call c p.store = (.error fault, store)) (other : fault.kind ≠ .conflict) :
    (askUnique pattern c >>= f).run moment p = (.error (.store fault), { p with store }, .none) := by
  rw [run_eq, exec_bind, askUnique, exec_tryCatch, exec_ask, failed]
  obtain ⟨kind, detail⟩ := fault
  cases kind with
  | conflict => exact absurd rfl other
  | _ => rfl

theorem leads_ask_bind {Q : Except PlaneFault β → Plane σ → Prop}
    (answered : ThrottleStore.call c p.store = (.ok a, store)) (rest : (f a).Leads moment { p with store } Q) :
    (ask c >>= f).Leads moment p Q := by
  intro effects
  rw [exec_bind, exec_ask, answered]
  exact rest effects

end

/-- The call succeeds with the answer, and the snapshot is not degraded then; whenever it is read back, what is held is
the same. -/
def Stores (c : Call Backing α) (moment : Moment) (p : Plane Backing) (answer : α) (read : Call Backing β) (held : β) :
    Prop :=
  ∃ q effects, c.run moment p = (.ok answer, q, effects) ∧ q.snapshot.degraded = false ∧
    ∀ later, (read.run later q).1 = .ok held

/-- The call is refused by the store because a limit of the phases is too large, and nothing has changed. -/
def Refuses (c : Call Backing α) (moment : Moment) (p : Plane Backing) (phases : List WarmupPhase) : Prop :=
  ∃ phase ∈ phases, ∃ n field, phase.limits.Exceeds n field ∧
    c.run moment p = (.error (.store (tooLarge n field)), p, .none)

/-- A call stores what it leads to. -/
theorem Leads.stores {c : Call Backing α} {p : Plane Backing} {answer : α} {read : Call Backing β} {held : β}
    (leads : c.Leads moment p fun r q => r = .ok answer ∧ q.snapshot.degraded = false ∧
      ∀ later, (read.run later q).1 = .ok held) : c.Stores moment p answer read held := by
  obtain ⟨r, q, effects, ran⟩ : ∃ r q effects, c.run moment p = (r, q, effects) := ⟨_, _, _, rfl⟩
  obtain ⟨rfl, sound, reads⟩ := leads.of_run ran
  exact ⟨q, effects, ran, sound, reads⟩

end Call

/-- The store gives a configuration, these phases and these rules, which are a table with this last id, and the default
transport is valid. -/
structure Whole (p : Plane Backing) (phases : List WarmupPhase) (last : Nat) (rules : List TransportRule) : Prop where
  config : ∃ config, p.store.Loads config
  phases : p.store.HasPhases phases
  tabulates : p.store.Tabulates last rules
  table : RuleTable last rules
  fallback : p.settings.defaultTransport.validate = .ok ()

namespace Whole

variable {p : Plane Backing} {phases : List WarmupPhase} {last : Nat} {rules : List TransportRule}

theorem lists (h : Whole p phases last rules) : p.store.call .listRules = (.ok rules, p.store) :=
  Backing.call_of_vain (h.tabulates.listed h.table) (Or.inl rfl)

theorem loads (h : Whole p phases last rules) : p.store.call .loadPhases = (.ok phases, p.store) :=
  Backing.call_of_vain h.phases.loaded (Or.inl rfl)

/-- Nothing keeps the snapshot from being published. -/
theorem publishes (h : Whole p phases last rules) : publish.Leads moment p fun r q =>
    (∃ version, r = .ok version) ∧ q.store = p.store ∧ q.snapshot.degraded = false := by
  have refreshes : refresh.Leads moment p fun r q =>
      (∃ version, r = .ok version) ∧ q.store = p.store ∧ q.snapshot.degraded = false := by
    obtain ⟨config, loads⟩ := h.config
    obtain ⟨matcher, built⟩ := Matcher.build_ok h.table.validated h.fallback
    refine Call.leads_ask_bind (Backing.call_of_vain loads (Or.inl rfl)) ?_
    refine Call.leads_ask_bind h.loads (Call.leads_ask_bind h.lists (Call.leads_plane_bind ?_))
    refine Call.leads_orInvalid_bind (fun other same => ?_) fun fault failed => nomatch built.symm.trans failed
    refine (configurePool_leads other p).bind (fun _ q reached => ?_) fun _ _ impossible => nomatch impossible.1
    rw [reached.2]
    exact Call.leads_publishSnapshot ⟨⟨_, rfl⟩, rfl, rfl⟩
  exact refreshes.tryCatch (fun _ _ => id) fun _ _ impossible => nomatch impossible.1

/-- A call that publishes and then only reports stores what can be read back from the store. -/
theorem stores (h : Whole p phases last rules) {rest : Nat → Call Backing α} {answer : α} {read : Call Backing β}
    {held : β} (reports : ∀ version q, (rest version).Leads moment q fun r t => r = .ok answer ∧ t = q)
    (reads : ∀ q : Plane Backing, q.store = p.store → ∀ later, (read.run later q).1 = .ok held) :
    (publish >>= rest).Stores moment p answer read held := by
  refine Call.Leads.stores (h.publishes.bind (fun version q published => ?_) fun _ _ impossible => nomatch impossible.1)
  obtain ⟨-, store, sound⟩ := published
  refine (reports version q).mono fun r t ended => ?_
  obtain ⟨rfl, rfl⟩ := ended
  exact ⟨rfl, sound, reads _ store⟩

end Whole

/-! ### Reading back -/

theorem Whole.lists_run {p : Plane Backing} {phases : List WarmupPhase} {last : Nat} {rules : List TransportRule}
    (h : Whole p phases last rules) {q : Plane Backing} (same : q.store = p.store) (later : Moment) :
    (listRules.run later q).1 = .ok rules := by
  have answered : (ThrottleStore.call .listRules q.store).1 = .ok rules := by
    rw [same]
    exact congrArg Prod.fst h.lists
  rw [listRules, Call.run_eq, Call.exec_ask]
  exact (Call.ask_ok .listRules q).mpr answered

/-- The phases of a table are listed as they stand in it. -/
theorem Whole.loads_run {p : Plane Backing} {table : PhaseTable} {last : Nat} {rules : List TransportRule}
    (h : Whole p table.phases last rules) {q : Plane Backing} (same : q.store = p.store) (later : Moment) :
    (listPhases.run later q).1 = .ok table.phases := by
  have answered : ThrottleStore.call .loadPhases q.store = (.ok table.phases, q.store) := by
    rw [same]
    exact h.loads
  rw [listPhases, Call.run_ask_bind answered]
  exact congrArg Except.ok table.sorted

/-! ### Phases -/

theorem replacePhases_refuses {p : Plane Backing} {given : List WarmupPhase} {table : PhaseTable}
    (built : PhaseTable.ofPhases given = .ok table) (large : ¬ p.store.Fits table.phases) :
    (replacePhases given).Refuses moment p table.phases := by
  obtain ⟨phase, member, n, field, exceeds, failed⟩ := Backing.HasPhases.refused built large
  refine ⟨phase, member, n, field, exceeds, ?_⟩
  rw [replacePhases, built, Call.run_orInvalid_bind, Call.run_ask_refused failed]

namespace Whole

variable {p : Plane Backing} {phases : List WarmupPhase} {last : Nat} {rules : List TransportRule}

section

variable {given : List WarmupPhase} {table : PhaseTable}

theorem replaced (h : Whole p phases last rules) (built : PhaseTable.ofPhases given = .ok table)
    (fits : p.store.Fits table.phases) : ∃ store, p.store.call (.replacePhases table.phases) = (.ok (), store) ∧
      Whole { p with store } table.phases last rules := by
  obtain ⟨store, answered, holds, tabulates⟩ := h.phases.replaced built fits
  obtain ⟨config, loads⟩ := h.config
  have loads := loads.kept (c := .replacePhases table.phases) nofun
  rw [answered] at loads
  exact ⟨store, answered, ⟨config, loads⟩, holds, tabulates _ _ h.tabulates, h.table, h.fallback⟩

theorem replacePhases_stores (h : Whole p phases last rules) (built : PhaseTable.ofPhases given = .ok table)
    (fits : p.store.Fits table.phases) :
    (replacePhases given).Stores moment p table.phases listPhases table.phases := by
  obtain ⟨store, answered, whole⟩ := h.replaced built fits
  unfold Call.Stores
  rw [replacePhases, built, Call.run_orInvalid_bind, Call.run_ask_bind answered]
  exact whole.stores (fun _ _ _ => ⟨rfl, rfl⟩) fun _ => whole.loads_run

/-- A call that starts from the stored table goes on with it. -/
theorem storedTable_run (h : Whole p phases last rules) {stored : PhaseTable}
    (built : PhaseTable.ofPhases phases = .ok stored) (f : PhaseTable → Call Backing α) :
    (storedTable >>= f).run moment p = (f stored).run moment p := by
  rw [storedTable, bind_assoc, Call.run_ask_bind h.loads, built]
  rfl

theorem updatePhase_stores (h : Whole p phases last rules) {stored : PhaseTable}
    (built : PhaseTable.ofPhases phases = .ok stored) {number : Nat} {patch : PhasePatch}
    (patched : stored.withPatch number patch = .ok table) (fits : p.store.Fits table.phases) :
    ∃ phase, table.get? number = some phase ∧
      (updatePhase number patch).Stores moment p phase listPhases table.phases := by
  obtain ⟨phase, found⟩ := Option.isSome_iff_exists.mp (PhaseTable.withPatch_found patched)
  obtain ⟨given, remade⟩ := PhaseTable.withPatch_built patched
  obtain ⟨store, answered, whole⟩ := h.replaced remade fits
  refine ⟨phase, found, ?_⟩
  unfold Call.Stores
  rw [updatePhase, h.storedTable_run built, patched, Call.run_orInvalid_bind, Call.run_ask_bind answered, found]
  exact whole.stores (fun _ _ _ => ⟨rfl, rfl⟩) fun _ => whole.loads_run

theorem updatePhase_refuses (h : Whole p phases last rules) {stored : PhaseTable}
    (built : PhaseTable.ofPhases phases = .ok stored) {number : Nat} {patch : PhasePatch}
    (patched : stored.withPatch number patch = .ok table) (large : ¬ p.store.Fits table.phases) :
    (updatePhase number patch).Refuses moment p table.phases := by
  obtain ⟨given, remade⟩ := PhaseTable.withPatch_built patched
  obtain ⟨phase, member, n, field, exceeds, failed⟩ := Backing.HasPhases.refused remade large
  refine ⟨phase, member, n, field, exceeds, ?_⟩
  rw [updatePhase, h.storedTable_run built, patched, Call.run_orInvalid_bind, Call.run_ask_refused failed]

end

/-! ### Rules -/

/-- A call that makes another table of the rules leaves the rest. -/
theorem tabled (h : Whole p phases last rules) {c : StoreCall α} {result : Except StoreFault α} {store : Backing}
    (answered : p.store.call c = (result, store)) (configs : c.kind ≠ .saveConfig) (others : c.kind ≠ .replacePhases)
    {last' : Nat} {rules' : List TransportRule} (tabulates : store.Tabulates last' rules')
    (table : RuleTable last' rules') : Whole { p with store } phases last' rules' := by
  obtain ⟨config, loads⟩ := h.config
  have loads := loads.kept configs
  have holds := h.phases.kept others
  rw [answered] at loads holds
  exact ⟨⟨config, loads⟩, holds, tabulates, table, h.fallback⟩

theorem inserted (h : Whole p phases last rules) (left : p.store.HasIds) {draft : RuleDraft}
    (validated : draft.Validated) (unused : ∀ rule ∈ rules, rule.pattern ≠ draft.pattern) :
    ∃ store, p.store.call (.insertRule draft) = (.ok (draft.withId (last + 1)), store) ∧
      Whole { p with store } phases (last + 1) (rules ++ [draft.withId (last + 1)]) := by
  obtain ⟨store, answered, tabulates⟩ := h.tabulates.inserted h.table left unused
  exact ⟨store, answered, h.tabled answered nofun nofun tabulates (h.table.inserted validated unused)⟩

theorem updated (h : Whole p phases last rules) {rule : TransportRule} (validated : rule.toRuleDraft.Validated)
    (present : ∃ old ∈ rules, old.id = rule.id)
    (unused : ∀ other ∈ rules, other.id ≠ rule.id → other.pattern ≠ rule.pattern) :
    ∃ store, p.store.call (.updateRule rule) = (.ok true, store) ∧
      Whole { p with store } phases last (rules.map fun other => if other.id = rule.id then rule else other) := by
  obtain ⟨store, answered, tabulates⟩ := h.tabulates.updated h.table present unused
  exact ⟨store, answered, h.tabled answered nofun nofun tabulates (h.table.updated validated unused)⟩

theorem createRule_stores (h : Whole p phases last rules) (left : p.store.HasIds) {raw draft : RuleDraft}
    {pattern : DomainPattern} (valid : raw.validate = .ok (pattern, draft))
    (unused : ∀ rule ∈ rules, rule.pattern ≠ draft.pattern) :
    (createRule raw).Stores moment p (draft.withId (last + 1)) listRules (rules ++ [draft.withId (last + 1)]) := by
  obtain ⟨store, answered, whole⟩ := h.inserted left ⟨raw, pattern, valid⟩ unused
  unfold Call.Stores
  rw [createRule, valid, Call.run_orInvalid_bind, Call.run_ask_bind h.lists]
  rw [Call.run_requireUnused_bind fun rule member _ => unused rule member, Call.run_askUnique_bind answered]
  exact whole.stores (fun _ _ _ => ⟨rfl, rfl⟩) fun _ => whole.lists_run

/-- Where no id is left, the store refuses the rule, and nothing has changed. -/
theorem createRule_exhausted (h : Whole p phases last rules) (none : ¬ p.store.HasIds) {raw draft : RuleDraft}
    {pattern : DomainPattern} (valid : raw.validate = .ok (pattern, draft))
    (unused : ∀ rule ∈ rules, rule.pattern ≠ draft.pattern) :
    (createRule raw).run moment p = (.error (.store Backing.exhaustedIds), p, .none) := by
  rw [createRule, valid, Call.run_orInvalid_bind, Call.run_ask_bind h.lists,
    Call.run_requireUnused_bind fun rule member _ => unused rule member,
    Call.run_askUnique_refused (h.tabulates.exhausted h.table none draft) (by decide)]

theorem updateRule_stores (h : Whole p phases last rules) {id : Nat} {current : TransportRule}
    (found : rules.find? (·.id = id) = some current) {patch : RulePatch} {draft : RuleDraft} {pattern : DomainPattern}
    (valid : (current.patched patch).toRuleDraft.validate = .ok (pattern, draft))
    (unused : ∀ rule ∈ rules, rule.id ≠ id → rule.pattern ≠ draft.pattern) :
    (updateRule id patch).Stores moment p (draft.withId id) listRules
      (rules.map fun other => if other.id = id then draft.withId id else other) := by
  have present : ∃ old ∈ rules, old.id = id :=
    ⟨current, List.mem_of_find?_eq_some found, by simpa using List.find?_some found⟩
  have validated : (draft.withId id).toRuleDraft.Validated := ⟨_, pattern, valid⟩
  obtain ⟨store, answered, whole⟩ := h.updated validated present unused
  unfold Call.Stores
  rw [updateRule, Call.run_ask_bind h.lists]
  simp only [found]
  rw [valid, Call.run_orInvalid_bind, Call.run_requireUnused_bind fun rule member other =>
    unused rule member (by simpa using other), Call.run_askUnique_bind answered]
  exact whole.stores (fun _ _ _ => ⟨rfl, rfl⟩) fun _ => whole.lists_run

end Whole

/-! ### Ids that no rule has -/

section

variable {p : Plane Backing} {last : Nat} {rules : List TransportRule} {id : Nat}

theorem updateRule_unknown (tabulates : p.store.Tabulates last rules) (table : RuleTable last rules)
    (absent : ∀ rule ∈ rules, rule.id ≠ id) (patch : RulePatch) :
    (updateRule id patch).run moment p = (.error (.ruleNotFound id), p, .none) := by
  have none : rules.find? (·.id = id) = none := by simpa using absent
  have answered := Backing.call_of_vain (tabulates.listed table) (Or.inl rfl)
  rw [updateRule, Call.run_ask_bind answered]
  simp only [none]
  rfl

theorem deleteRule_unknown (tabulates : p.store.Tabulates last rules) (absent : ∀ rule ∈ rules, rule.id ≠ id)
    (numbers : p.store.Numbers id) : (deleteRule id).run moment p = (.error (.ruleNotFound id), p, .none) := by
  rw [deleteRule, Call.run_ask_bind (tabulates.missing absent numbers)]
  rfl

theorem deleteRule_unasked (tabulates : p.store.Tabulates last rules) (large : ¬ p.store.Numbers id) :
    (deleteRule id).run moment p = (.error (.store (tooLarge id "rule id")), p, .none) := by
  rw [deleteRule, Call.run_ask_refused (tabulates.unasked large)]

end

end RelayRamp.Plane
