import RelayRamp.Proofs.Admission.Invariants
import RelayRamp.Proofs.Plane.Rejection
import RelayRamp.Proofs.Store.RuleTable

/-!
# The rules of a store over its life

Planes come and go over one store. Whatever they do, and wherever it fails, the rules of the store remain a table: an
id that was given out once never comes again, also when its rule is gone. A matcher can be built from such a table, so
only the store itself makes rebuilding a snapshot fail.

To speak of the ids of the past, the store is observed: it keeps a record of the ids it has given out.
-/
namespace RelayRamp.Store

open RelayRamp.Routing

/-- A store with a record of the rule ids that it has given out. -/
structure RecordingStore (σ : Type) where
  inner : σ
  assigned : List Nat

namespace RecordingStore

/-- The store answers; nothing of it depends on the record. -/
def call {σ α : Type} [ThrottleStore σ] (s : RecordingStore σ) (c : StoreCall α) :
    Except StoreFault α × RecordingStore σ :=
  let (answer, inner) := ThrottleStore.call c s.inner
  (answer, ⟨inner, s.assigned ++ c.assigned answer⟩)

instance {σ : Type} [ThrottleStore σ] : ThrottleStore (RecordingStore σ) := ⟨fun c s => s.call c⟩

/-- Opens the store again; the record goes on. -/
def reopen (s : RecordingStore Backing) : Except StoreFault (RecordingStore Backing) :=
  (fun inner => { s with inner }) <$> s.inner.reopen

/-- The store holds a table of rules. The ids of the rules are on record, and nothing there is above the last id. -/
structure Keeps (s : RecordingStore Backing) (last : Nat) (rules : List TransportRule) : Prop where
  tabulates : s.inner.Tabulates last rules
  table : RuleTable last rules
  recorded : ∀ rule ∈ rules, rule.id ∈ s.assigned
  issued : ∀ id ∈ s.assigned, id ≤ last

def Orderly (s : RecordingStore Backing) : Prop := ∃ last rules, s.Keeps last rules

variable {s : RecordingStore Backing} {last : Nat} {rules : List TransportRule} {α : Type}

theorem orderly_empty {first : Backing} (fresh : first = .memory .empty ∨ first = .durable .empty) :
    Orderly ⟨first, []⟩ := by
  have tabulates : first.Tabulates 0 [] := by
    rcases fresh with rfl | rfl
    · exact ⟨rfl, rfl, rfl⟩
    · exact ⟨rfl, rfl, rfl, by decide⟩
  exact ⟨0, [], tabulates, .empty 0, nofun, nofun⟩

/-- A call that writes only valid rules keeps the table, and the ids that it gives out are above all on record. -/
theorem Keeps.call (h : s.Keeps last rules) (c : StoreCall α) (vetted : c.kind ≠ .saveCounters → c.Vetted) :
    (s.call c).2.Orderly ∧ ∀ id ∈ c.assigned (s.call c).1, last < id := by
  obtain ⟨last', rules', tabulates, effect⟩ := h.tabulates.call h.table c vetted
  obtain ⟨table, grows, fresh⟩ := h.table.effect effect
  refine ⟨⟨last', rules', tabulates, table, fun rule member => ?_, fun id member => ?_⟩, fun id member =>
    (fresh id member).1⟩
  · rcases effect.origin rule member with new | ⟨old, present, same⟩
    · exact List.mem_append_right _ new
    · exact List.mem_append_left _ (same ▸ h.recorded old present)
  · rcases List.mem_append.mp member with old | new
    · exact Nat.le_trans (h.issued id old) grows
    · exact (fresh id new).2

theorem Orderly.call (h : s.Orderly) (c : StoreCall α) (vetted : c.kind ≠ .saveCounters → c.Vetted) :
    (s.call c).2.Orderly := by
  obtain ⟨last, rules, keeps⟩ := h
  exact (keeps.call c vetted).1

/-- The id of an inserted rule is above all that were given out before, and is on record from then on. -/
theorem Orderly.insertRule (h : s.Orderly) {draft : RuleDraft} (validated : draft.Validated) {rule : TransportRule}
    (ok : (s.call (.insertRule draft)).1 = .ok rule) :
    (∀ id ∈ s.assigned, id < rule.id) ∧ rule.id ∈ (s.call (.insertRule draft)).2.assigned := by
  obtain ⟨last, rules, keeps⟩ := h
  have fresh := (keeps.call (.insertRule draft) fun _ => validated).2
  have given : rule.id ∈ (StoreCall.insertRule draft).assigned (s.call (.insertRule draft)).1 := by
    rw [ok]
    exact List.mem_singleton_self _
  constructor
  · intro id member
    exact Nat.lt_of_le_of_lt (keeps.issued id member) (fresh rule.id given)
  · exact List.mem_append_right _ given

theorem Orderly.reopened (h : s.Orderly) : s.reopen = .ok s := by
  obtain ⟨last, rules, keeps⟩ := h
  rw [reopen, keeps.tabulates.reopened]
  rfl

end RecordingStore

end RelayRamp.Store

namespace RelayRamp.Plane

open RelayRamp.Routing RelayRamp.Store RelayRamp.Time

variable {σ α β : Type} {moment : Moment}

namespace Call

/-! ### Calls that are accepted -/

/-- Wherever the call is made, it is not rejected. -/
def Accepted (c : Call σ α) (moment : Moment) : Prop := ∀ p, c.Leads moment p fun r _ => ¬ Rejected r

theorem Accepted.bind {c : Call σ α} {f : α → Call σ β} (first : c.Accepted moment)
    (rest : ∀ a, (f a).Accepted moment) : (c >>= f).Accepted moment :=
  fun p => (first p).bind (fun a q _ => rest a q) fun _ _ => id

theorem accepted_forM {g : β → Call σ Unit} (each : ∀ b, (g b).Accepted moment) :
    ∀ l : List β, (l.forM g).Accepted moment
  | [] => fun _ => leads_pure id
  | b :: rest => (each b).bind fun _ => accepted_forM each rest

theorem accepted_configurePool (matcher : Matcher) : (configurePool matcher : Call σ Unit).Accepted moment := by
  refine fun p => leads_read_bind ((accepted_forM (fun entry p => ?_) _).bind (fun _ p => ?_) p)
  · exact leads_plane_bind (leads_setPlane_bind fun _ => id)
  · exact fun _ => id

theorem accepted_publishSnapshot (next : Snapshot) : (publishSnapshot next : Call σ Nat).Accepted moment :=
  fun _ => leads_publishSnapshot id

theorem Writes.leads [ThrottleStore σ] {c : Call σ α} {s : StoreCall α} (writes : c.Writes moment s) (p : Plane σ) :
    c.Leads moment p fun r q => q = p.asked s ∧ ∀ a, r = .ok a ↔ (ThrottleStore.call s p.store).1 = .ok a := by
  intro effects
  obtain ⟨same, answered⟩ := writes ⟨p, effects⟩
  exact ⟨congrArg Session.plane same, answered⟩

end Call

/-! ### Planes over an observed store -/

/-- The store holds a table of rules, and the default transport is valid. -/
structure Orderly (p : Plane (PlannedStore (RecordingStore Backing))) : Prop where
  store : p.store.inner.Orderly
  fallback : p.settings.defaultTransport.validate = .ok ()

/-- Nothing is taken from the record. -/
def Records (p q : Plane (PlannedStore (RecordingStore Backing))) : Prop :=
  p.store.inner.assigned ⊆ q.store.inner.assigned

instance : IsPreorder (Plane (PlannedStore (RecordingStore Backing))) Records where
  refl _ := List.Subset.refl _
  trans _ _ _ := List.Subset.trans

variable {p : Plane (PlannedStore (RecordingStore Backing))}

theorem Orderly.asked (h : Orderly p) (s : StoreCall α) (vetted : s.kind ≠ .saveCounters → s.Vetted) :
    Orderly (p.asked s) :=
  ⟨PlannedStore.call_inner s h.store (h.store.call s vetted), h.fallback⟩

theorem records_asked (p : Plane (PlannedStore (RecordingStore Backing))) (s : StoreCall α) :
    Records p (p.asked s) := by
  rcases p.store.call_cases s with ⟨fault, -, same⟩ | ⟨-, passed⟩
  · exact fun id member => same.symm ▸ member
  · exact fun id member => passed.symm ▸ List.mem_append_left _ member

theorem records_permits : Call.Permits moment Records where
  asks p _ s _ := records_asked p s
  configured _ _ _ := List.Subset.refl _
  retained _ _ := List.Subset.refl _
  published _ _ := List.Subset.refl _

theorem orderly_invariant (t : Instant) : Invariant t Orderly where
  touched _ touches h := ⟨touches.store ▸ h.store, touches.settings ▸ h.fallback⟩
  asked s vetted h := h.asked s fun _ => vetted
  saved h := h.asked (.saveCounters _) fun other => absurd rfl other

theorem Orderly.leads_ask (h : Orderly p) (s : StoreCall α) (vetted : s.Vetted) :
    (ask s).Leads moment p fun r q => Orderly q ∧ ¬ Rejected r := by
  refine Call.leads_ask ⟨h.asked s fun _ => vetted, ?_⟩
  cases (ThrottleStore.call s p.store).1 with
  | ok a => exact id
  | error fault => nofun

/-- What the store lists makes a matcher. -/
theorem Orderly.leads_listRules (h : Orderly p) : (ask .listRules).Leads moment p fun r q => Orderly q ∧
    ¬ Rejected r ∧ ∀ rules, r = .ok rules → ∃ matcher, Matcher.build rules q.settings.defaultTransport = .ok matcher := by
  intro effects
  have asked : (ask .listRules).Leads moment p fun r q => Orderly q ∧ ¬ Rejected r := h.leads_ask .listRules trivial
  obtain ⟨orderly, accepted⟩ := asked effects
  refine ⟨orderly, accepted, ?_⟩
  refine Call.ends_ask (Q := fun r s => ∀ rules, r = .ok rules →
    ∃ matcher, Matcher.build rules s.plane.settings.defaultTransport = .ok matcher) fun rules ok => ?_
  have answered := (Call.ask_ok .listRules p).mp ok
  obtain ⟨last, held, keeps⟩ := h.store
  have listed : (p.store.inner.inner.call .listRules).1 = .ok held := keeps.tabulates.listed keeps.table
  rcases p.store.call_cases .listRules with ⟨fault, failed, -⟩ | ⟨answer, -⟩
  · rw [failed] at answered
    cases answered
  · have same : rules = held := Except.ok.inj (answered.symm.trans (answer.trans listed))
    exact Matcher.build_ok (same ▸ keeps.table.validated) h.fallback

/-- Rebuilding fails only with the store. -/
theorem Orderly.leads_refresh (h : Orderly p) : refresh.Leads moment p fun r _ => ¬ Rejected r := by
  refine (h.leads_ask .loadConfig trivial).bind (fun found q reached => ?_) fun _ _ => And.right
  cases found with
  | none => exact Call.leads_throw nofun
  | some config =>
    refine (reached.1.leads_ask .loadPhases trivial).bind (fun phases q reached => ?_) fun _ _ => And.right
    refine reached.1.leads_listRules.bind (fun rules q reached => ?_) fun _ _ reached => reached.2.1
    obtain ⟨orderly, -, builds⟩ := reached
    obtain ⟨matcher, built⟩ := builds rules rfl
    refine Call.leads_plane_bind (Call.leads_orInvalid_bind (fun matcher _ => ?_) fun fault failed => ?_)
    · exact (Call.accepted_configurePool matcher).bind (fun _ => Call.accepted_publishSnapshot _) q
    · rw [built] at failed
      cases failed

/-- A rule that is created gets an id above all on record. -/
theorem Orderly.leads_createRule (h : Orderly p) (draft : RuleDraft) :
    (createRule draft).Leads moment p fun r q => ∀ rule, r = .ok rule →
      (∀ id ∈ p.store.inner.assigned, id < rule.id) ∧ rule.id ∈ q.store.inner.assigned := by
  refine Call.leads_orInvalid_bind (fun validated valid => ?_) fun _ _ => nofun
  refine Call.Leads.bind (Q := fun _ q => Orderly q ∧ Records p q)
    (Call.leads_ask ⟨h.asked .listRules fun _ => trivial, records_asked p .listRules⟩) (fun rules q reached => ?_)
    fun _ _ _ => nofun
  refine (Call.idle_requireUnused _ _ _ moment q).bind (fun _ q' same => ?_) fun _ _ _ => nofun
  obtain rfl : q = q' := same
  obtain ⟨orderly, earlier⟩ := reached
  refine ((Call.askUnique_writes _ (.insertRule validated.2)).leads q).bind (fun rule t written => ?_)
    fun _ _ _ => nofun
  obtain ⟨rfl, answered⟩ := written
  have inserted : (∀ id ∈ q.store.inner.assigned, id < rule.id) ∧
      rule.id ∈ (q.asked (.insertRule validated.2)).store.inner.assigned := by
    have ok := (answered rule).mp rfl
    rcases q.store.call_cases (.insertRule validated.2) with ⟨fault, failed, -⟩ | ⟨answer, passed⟩
    · rw [failed] at ok
      cases ok
    · have new := orderly.store.insertRule ⟨draft, validated.1, valid⟩ (answer.symm.trans ok)
      exact ⟨new.1, passed.symm ▸ new.2⟩
  refine (Call.publish_keeps records_permits (q.asked (.insertRule validated.2))).bind (fun _ t later => ?_)
    fun _ _ _ => nofun
  refine (Call.idle_report _ moment t).bind (fun _ t' same => ?_) fun _ _ _ => nofun
  obtain rfl : t = t' := same
  refine Call.leads_pure fun created same => ?_
  obtain rfl := Except.ok.inj same
  exact ⟨fun id member => inserted.1 id (earlier member), later inserted.2⟩

end RelayRamp.Plane

namespace RelayRamp.Admission

open RelayRamp.Plane RelayRamp.Routing RelayRamp.Store RelayRamp.Time

/-- The time of one plane over the store. -/
structure Era where
  settings : EngineSettings
  plan : List (Option StoreFault)
  opening : Moment
  acts : List (Moment × Act)

/-- The store after an era. It is opened again, and unless a plane cannot be opened over it, the plane serves. -/
def Era.pass (store : RecordingStore Backing) (era : Era) : RecordingStore Backing :=
  match store.reopen with
  | .error _ => store
  | .ok store =>
    let planned : PlannedStore (RecordingStore Backing) := ⟨store, era.plan⟩
    match Plane.launch planned era.settings era.opening with
    | .error _ => store
    | .ok (p, _) => ((Service.opened p).run era.acts).plane.store.inner

/-- The store after one era after the other. -/
def Era.passAll (store : RecordingStore Backing) (eras : List Era) : RecordingStore Backing :=
  eras.foldl (fun store era => era.pass store) store

variable {store : RecordingStore Backing} {plan : List (Option StoreFault)} {settings : EngineSettings}
  {opening moment : Moment} {p q : Plane (PlannedStore (RecordingStore Backing))} {effects : Lease.Effects}

/-- Over a store with a table of rules a plane never leaves one without. -/
theorem served_orderly (orderly : store.Orderly)
    (launched : Plane.launch ⟨store, plan⟩ settings opening = .ok (p, effects)) (acts : List (Moment × Act)) :
    Orderly ((Service.opened p).run acts).plane := by
  refine Service.served_holds orderly_invariant launched (fun blank unloaded => ?_) acts
  obtain ⟨matcher, built, same⟩ := ok_of_bind unloaded
  obtain ⟨⟨⟩, valid, -⟩ := ok_of_bind built
  cases same
  exact ⟨orderly, valid⟩

theorem Era.pass_orderly (orderly : store.Orderly) (era : Era) : (era.pass store).Orderly := by
  unfold Era.pass
  rw [orderly.reopened]
  dsimp only
  split
  · exact orderly
  · rename_i launched
    exact (served_orderly orderly launched era.acts).store

theorem Era.passAll_orderly (orderly : store.Orderly) (eras : List Era) : (passAll store eras).Orderly := by
  induction eras generalizing store with
  | nil => exact orderly
  | cons era rest ih => exact ih (era.pass_orderly orderly)

/-- A store that was empty once is opened again and again, and planes serve over it, some of its calls failing. At every
point, also in the midst of a command, every stored rule is valid as it stands; no two have the same pattern; the store
lists them by ascending ids; and it can be opened again. A rule that is created then gets an id above all that were
ever given out. The matcher can be built, so nothing but the store makes rebuilding the snapshot fail. -/
theorem rule_table_invariant {first : Backing} (fresh : first = .memory .empty ∨ first = .durable .empty)
    (eras : List Era) (opens : (Era.passAll ⟨first, []⟩ eras).reopen = .ok store)
    (launched : Plane.launch ⟨store, plan⟩ settings opening = .ok (p, effects)) (acts : List (Moment × Act))
    (changes : Changes moment ((Service.opened p).run acts).plane q) :
    (∃ rules, (ThrottleStore.call .listRules q.store.inner).1 = .ok rules ∧
      (∀ rule ∈ rules, ∃ pattern, rule.toRuleDraft.validate = .ok (pattern, rule.toRuleDraft)) ∧
      rules.Pairwise (·.parsedPattern ≠ ·.parsedPattern) ∧ rules.Pairwise (·.id < ·.id) ∧
      (∀ rule ∈ rules, rule.id ∈ q.store.inner.assigned) ∧
      ∃ matcher, Matcher.build rules q.settings.defaultTransport = .ok matcher) ∧
    q.store.inner.reopen = .ok q.store.inner ∧
    (∀ draft now rule r done, (createRule draft).run now q = (.ok rule, r, done) →
      (∀ id ∈ q.store.inner.assigned, id < rule.id) ∧ rule.id ∈ r.store.inner.assigned) ∧
    (∀ now fault r done, refresh.run now q = (.error fault, r, done) → ∃ f, fault = .store f) := by
  have lived := Era.passAll_orderly (RecordingStore.orderly_empty fresh) eras
  obtain rfl : Era.passAll ⟨first, []⟩ eras = store := Except.ok.inj (lived.reopened.symm.trans opens)
  have orderly : Orderly q :=
    (orderly_invariant moment.wall).changes (Int.le_refl _) changes (served_orderly lived launched acts)
  refine ⟨?_, orderly.store.reopened, ?_, ?_⟩
  · obtain ⟨last, rules, keeps⟩ := orderly.store
    refine ⟨rules, keeps.tabulates.listed keeps.table, fun rule member => ?_, keeps.table.parsed_distinct,
      keeps.table.ordered, keeps.recorded, Matcher.build_ok keeps.table.validated orderly.fallback⟩
    obtain ⟨pattern, valid, -⟩ := (keeps.table.validated rule member).unchanged
    exact ⟨pattern, valid⟩
  · intro draft now rule r done ran
    exact (orderly.leads_createRule draft).of_run ran rule rfl
  · intro now fault r done ran
    have accepted := orderly.leads_refresh.of_run ran
    cases fault with
    | store f => exact ⟨f, rfl⟩
    | validation | configuration | ruleNotFound => exact absurd rfl accepted

/-- Over tables: the only rule there was is deleted, the store is opened again, and the next rule gets the next id. -/
theorem rule_table_invariant_reopened :
    let bare : EngineSettings := { EngineSettings.standard with seedPhases := false, seedRules := false }
    let draft (pattern : String) : RuleDraft := ⟨pattern, ⟨"relay"⟩, ⟨2, 0⟩, true, none⟩
    let era : Era := ⟨bare, [], ⟨⟨0⟩, 0⟩,
      [(⟨⟨1⟩, 1⟩, .command (.createRule (draft "a.example.org"))), (⟨⟨2⟩, 2⟩, .command (.deleteRule 1))]⟩
    ∃ store p effects, (Era.passAll ⟨.durable .empty, []⟩ [era]).reopen =
        .ok store ∧ store.assigned = [1] ∧
      Plane.launch (⟨store, []⟩ : PlannedStore (RecordingStore Backing)) bare ⟨⟨3⟩, 0⟩ = .ok (p, effects) ∧
      ∃ rule q done, (createRule (draft "b.example.org")).run ⟨⟨4⟩, 1⟩ ((Service.opened p).run []).plane =
          (.ok rule, q, done) ∧ ∀ id ∈ [1], id < rule.id := by
  intro bare draft era
  have runs : ((Era.passAll ⟨.durable .empty, []⟩ [era]).reopen.toOption.bind
      fun store => (Plane.launch (⟨store, []⟩ : PlannedStore (RecordingStore Backing)) bare
        ⟨⟨3⟩, 0⟩).toOption.map fun (p, _) => (store.assigned, p.store.inner.assigned,
          ((createRule (draft "b.example.org")).run ⟨⟨4⟩, 1⟩ p).1.toOption.isSome)) = some ([1], [1], true) := by
    decide +kernel
  obtain ⟨store, opens, runs⟩ := Option.bind_eq_some_iff.mp runs
  obtain ⟨⟨p, effects⟩, launched, runs⟩ := Option.map_eq_some_iff.mp runs
  simp only [Prod.mk.injEq] at runs
  obtain ⟨before, recorded, created⟩ := runs
  obtain ⟨rule, answer⟩ := Option.isSome_iff_exists.mp created
  have opens := ok_of_toOption opens
  have launched := ok_of_toOption launched
  refine ⟨store, p, effects, opens, before, launched, rule, _, _, Prod.ext (ok_of_toOption answer) rfl, ?_⟩
  have invariant := rule_table_invariant (Or.inr rfl) [era] opens launched [] (.refl : Changes ⟨⟨3⟩, 0⟩ _ _)
  have created := invariant.2.2.1 _ _ _ _ _ (Prod.ext (ok_of_toOption answer) rfl)
  exact fun id member => created.1 id (recorded.symm ▸ member)

end RelayRamp.Admission
