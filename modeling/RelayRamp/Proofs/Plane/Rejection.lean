import RelayRamp.Proofs.Plane.Commands
import RelayRamp.Proofs.Store.Rules
import RelayRamp.Proofs.Warmup.Table

/-!
# Calls that are rejected

A call of an operator can be rejected for its input, or for what it finds configured, at three places: before it
writes, by the store that it writes to, and while it publishes what it has written. At the first two nothing has
changed yet. At the third it cannot be rejected: every stored rule was valid when it was written and is valid as it
stands, so the matcher can be rebuilt. Only the store can make publishing fail.
-/
namespace RelayRamp.Store.Backing

/-- A configuration is stored. -/
def configured : Backing → Bool
  | memory store => store.config.isSome
  | durable store => store.config.isSome

theorem configured_found {s : Backing} (h : s.configured = true) {found : Option Warmup.WarmupConfig}
    (ok : (s.call .loadConfig).1 = .ok found) : found.isSome = true := by
  cases s with
  | memory store =>
    change (store.call .loadConfig).1 = .ok found at ok
    unfold MemoryStore.call at ok
    split at ok
    · cases ok
    · cases ok
      exact h
  | durable store =>
    obtain ⟨store', done, -⟩ := DurableStore.call_ok ok
    simp only [DurableStore.attempt] at done
    split at done
    · rename_i absent
      rw [configured, absent] at h
      cases h
    · obtain ⟨config, -, same⟩ := ok_of_bind done
      cases same
      rfl

end RelayRamp.Store.Backing

namespace RelayRamp.Warmup.PhaseTable

/-- The phase that was changed is in the new table. -/
theorem withPatch_found {table patched : PhaseTable} {number : Nat} {patch : PhasePatch}
    (ok : table.withPatch number patch = .ok patched) : (patched.get? number).isSome = true := by
  unfold withPatch at ok
  split at ok
  · cases ok
  · rename_i current found
    have within : number < table.phases.length := (List.getElem?_eq_some_iff.mp found).1
    have length : patched.phases.length = table.phases.length := by
      rw [ofPhases_phases ok, List.length_mergeSort, List.length_map]
    simpa [get?, length] using within

end RelayRamp.Warmup.PhaseTable

namespace RelayRamp.Plane

open RelayRamp.Routing RelayRamp.Store RelayRamp.Warmup

/-- The fault says that input or configuration is wrong, and not that the store has failed. -/
def PlaneFault.isRejection : PlaneFault → Bool
  | validation _ | configuration _ | ruleNotFound _ => true
  | store _ => false

/-- The call was rejected. -/
def Rejected {α : Type} : Except PlaneFault α → Prop
  | .ok _ => False
  | .error fault => fault.isRejection = true

/-- The calls by which an operator changes something, and what they give. -/
inductive OperatorCall : Type → Type
  | updateConfig (update : ConfigUpdate) : OperatorCall WarmupConfig
  | setPhase (number : Nat) : OperatorCall WarmupStatus
  | resetWarmup : OperatorCall WarmupStatus
  | replacePhases (phases : List WarmupPhase) : OperatorCall (List WarmupPhase)
  | updatePhase (number : Nat) (patch : PhasePatch) : OperatorCall WarmupPhase
  | createRule (draft : RuleDraft) : OperatorCall TransportRule
  | updateRule (id : Nat) (patch : RulePatch) : OperatorCall TransportRule
  | deleteRule (id : Nat) : OperatorCall Unit

def OperatorCall.call {σ α : Type} [ThrottleStore σ] : OperatorCall α → Call σ α
  | updateConfig update => Plane.updateConfig update
  | setPhase number => Plane.setPhase number
  | resetWarmup => Plane.resetWarmup
  | replacePhases phases => Plane.replacePhases phases
  | updatePhase number patch => Plane.updatePhase number patch
  | createRule draft => Plane.createRule draft
  | updateRule id patch => Plane.updateRule id patch
  | deleteRule id => Plane.deleteRule id

/-! ### Planes whose matcher can be rebuilt -/

/-- A matcher can be built from what is stored and the default transport. -/
structure Routable (p : Plane (PlannedStore Backing)) : Prop where
  rules : p.store.inner.RulesValidated
  fallback : p.settings.defaultTransport.validate = .ok ()

/-- The store holds a configuration, too. -/
structure Ready (p : Plane (PlannedStore Backing)) : Prop extends Routable p where
  configured : p.store.inner.configured = true

/-- Nothing has changed but the plan of faults, of which a part was used up. -/
def Unchanged {σ : Type} (s t : Session (PlannedStore σ)) : Prop :=
  ∃ plan, t = { s with plane := { s.plane with store := ⟨s.plane.store.inner, plan⟩ } }

variable {α β : Type} {moment : Moment}

theorem Unchanged.refl {σ : Type} (s : Session (PlannedStore σ)) : Unchanged s s := ⟨s.plane.store.plan, rfl⟩

theorem Unchanged.trans {σ : Type} {s t u : Session (PlannedStore σ)} (first : Unchanged s t) (rest : Unchanged t u) :
    Unchanged s u := by
  obtain ⟨plan, rfl⟩ := first
  obtain ⟨plan', rfl⟩ := rest
  exact ⟨plan', rfl⟩

theorem Unchanged.ready {s t : Session (PlannedStore Backing)} (unchanged : Unchanged s t) (h : Ready s.plane) :
    Ready t.plane := by
  obtain ⟨plan, rfl⟩ := unchanged
  exact ⟨⟨h.rules, h.fallback⟩, h.configured⟩

theorem Routable.asked {p : Plane (PlannedStore Backing)} (h : Routable p) (s : StoreCall α)
    (vetted : s.kind ≠ .saveCounters → s.Vetted) : Routable (p.asked s) :=
  ⟨PlannedStore.call_inner s h.rules (h.rules.asked s vetted), h.fallback⟩

theorem Unchanged.of_vain {s : Session (PlannedStore Backing)} {c : StoreCall α}
    (vain : c.Vain (ThrottleStore.call c s.plane.store).1) :
    Unchanged s { s with plane := s.plane.asked c } := by
  have same : (ThrottleStore.call c s.plane.store).2.inner = s.plane.store.inner := by
    rcases s.plane.store.call_cases c with ⟨fault, -, same⟩ | ⟨answer, passed⟩
    · exact same
    · exact passed.trans (Backing.call_vain (answer ▸ vain))
  refine ⟨(ThrottleStore.call c s.plane.store).2.plan, ?_⟩
  rw [← same]
  rfl

namespace Call

/-! ### Calls that change nothing -/

/-- The call changes nothing. -/
def Quiet (moment : Moment) (c : Call (PlannedStore Backing) α) : Prop :=
  ∀ s, Ready s.plane → c.Ends moment s fun _ t => Unchanged s t

/-- The call changes nothing when it is rejected. -/
def Clean (moment : Moment) (c : Call (PlannedStore Backing) α) : Prop :=
  ∀ s, Ready s.plane → c.Ends moment s fun r t => Rejected r → Unchanged s t

section

variable {c : Call (PlannedStore Backing) α} {f : α → Call (PlannedStore Backing) β}

theorem Quiet.clean (quiet : c.Quiet moment) : c.Clean moment :=
  fun s ready => (quiet s ready).mono fun _ _ unchanged _ => unchanged

theorem Quiet.then_clean (first : c.Quiet moment) (rest : ∀ a, (f a).Clean moment) : (c >>= f).Clean moment := by
  intro s ready
  refine (first s ready).bind (fun a t unchanged => ?_) fun _ _ unchanged _ => unchanged
  have clean := rest a t (unchanged.ready ready)
  exact clean.mono fun _ _ same rejected => unchanged.trans (same rejected)

theorem Quiet.bind (first : c.Quiet moment) (rest : ∀ a, (f a).Quiet moment) : (c >>= f).Quiet moment := by
  intro s ready
  refine (first s ready).bind (fun a t unchanged => ?_) fun _ _ unchanged => unchanged
  have quiet := rest a t (unchanged.ready ready)
  exact quiet.mono fun _ _ same => unchanged.trans same

theorem quiet_pure (a : α) : (pure a : Call (PlannedStore Backing) α).Quiet moment := fun s _ => .refl s

theorem quiet_throw (fault : PlaneFault) : (throw fault : Call (PlannedStore Backing) α).Quiet moment :=
  fun s _ => .refl s

theorem quiet_throw_bind (fault : PlaneFault) (f : α → Call (PlannedStore Backing) β) :
    (throw fault >>= f).Quiet moment := fun s _ => by
  unfold Ends
  rw [exec_bind]
  exact .refl s

theorem quiet_wallNow : (wallNow : Call (PlannedStore Backing) _).Quiet moment := fun s _ => .refl s

theorem quiet_orInvalid : ∀ r : Except ValidationFault α, (orInvalid r : Call (PlannedStore Backing) α).Quiet moment
  | .ok a => quiet_pure a
  | .error _ => quiet_throw _

theorem quiet_requireUnused (rules : List TransportRule) (pattern : String) (except : Option Nat) :
    (requireUnused rules pattern except : Call (PlannedStore Backing) Unit).Quiet moment := by
  unfold requireUnused
  split
  · exact quiet_throw _
  · exact quiet_pure _

theorem quiet_ask {s : StoreCall α} (read : s.isRead = true) :
    (ask s : Call (PlannedStore Backing) α).Quiet moment :=
  fun _ _ => ends_ask (Unchanged.of_vain fun _ _ => Or.inl read)

theorem quiet_storedTable : (storedTable : Call (PlannedStore Backing) PhaseTable).Quiet moment := by
  refine (quiet_ask rfl).bind fun phases => ?_
  split
  · exact quiet_pure _
  · exact quiet_throw _

/-- A store with a configuration is not seeded. -/
theorem quiet_loadOrSeed : (loadOrSeed : Call (PlannedStore Backing) WarmupConfig).Quiet moment := by
  refine fun s ready => Ends.bind (Q := fun r t => Unchanged s t ∧ ∀ found, r = .ok found → found.isSome = true)
    (ends_ask ⟨.of_vain fun _ _ => Or.inl rfl, fun found ok => ?_⟩) (fun found t reached => ?_) fun _ _ => And.left
  · have answered := (ask_ok .loadConfig s.plane).mp ok
    rcases s.plane.store.call_cases .loadConfig with ⟨fault, failed, -⟩ | ⟨answer, -⟩
    · rw [failed] at answered
      cases answered
    · exact Backing.configured_found ready.configured (answer.symm.trans answered)
  · obtain ⟨unchanged, some⟩ := reached
    cases found with
    | none => cases some none rfl
    | some config =>
      exact ((quiet_orInvalid _).bind fun _ => quiet_pure _) t (unchanged.ready ready) |>.mono fun _ _ =>
        unchanged.trans

theorem orInvalid_clean {r : Except ValidationFault α} (rest : ∀ a, r = .ok a → (f a).Clean moment) :
    (orInvalid r >>= f).Clean moment :=
  fun s ready => ends_orInvalid_bind (fun a ok => rest a ok s ready) fun _ _ _ => .refl s

end

/-! ### Calls that are never rejected -/

/-- From a plane whose matcher can be rebuilt the call leads to one, and it is not rejected. -/
def Sure (moment : Moment) (c : Call (PlannedStore Backing) α) : Prop :=
  ∀ p, Routable p → c.Leads moment p fun r q => Routable q ∧ ¬ Rejected r

section

variable {c : Call (PlannedStore Backing) α} {f : α → Call (PlannedStore Backing) β}

theorem Sure.bind (first : c.Sure moment) (rest : ∀ a, (f a).Sure moment) : (c >>= f).Sure moment :=
  fun p h => (first p h).bind (fun a q reached => rest a q reached.1) fun _ _ => id

theorem sure_pure (a : α) : (pure a : Call (PlannedStore Backing) α).Sure moment := fun _ h => leads_pure ⟨h, id⟩

theorem sure_wallNow : (wallNow : Call (PlannedStore Backing) _).Sure moment := fun _ h _ => ⟨h, id⟩

theorem sure_report (event : AuditEvent) : (report event : Call (PlannedStore Backing) Unit).Sure moment :=
  fun _ h _ => ⟨h, id⟩

theorem sure_ask (s : StoreCall α) (vetted : s.Vetted) : (ask s : Call (PlannedStore Backing) α).Sure moment := by
  refine fun p h => leads_ask ⟨h.asked s fun _ => vetted, ?_⟩
  cases (ThrottleStore.call s p.store).1 with
  | ok a => exact id
  | error fault => nofun

theorem sure_forM {g : β → Call (PlannedStore Backing) Unit} (each : ∀ b, (g b).Sure moment) :
    ∀ l : List β, (l.forM g).Sure moment
  | [] => sure_pure ()
  | b :: rest => (each b).bind fun _ => sure_forM each rest

theorem sure_configurePool (matcher : Matcher) :
    (configurePool matcher : Call (PlannedStore Backing) Unit).Sure moment := fun p h => by
  refine leads_read_bind ((sure_forM (fun entry p h => ?_) _).bind (fun _ p h => ?_) p h)
  · exact leads_plane_bind (leads_setPlane_bind fun _ => ⟨⟨h.rules, h.fallback⟩, id⟩)
  · exact fun _ => ⟨⟨h.rules, h.fallback⟩, id⟩

theorem sure_publishSnapshot (next : Snapshot) :
    (publishSnapshot next : Call (PlannedStore Backing) Nat).Sure moment :=
  fun _ h => leads_publishSnapshot ⟨⟨h.rules, h.fallback⟩, id⟩

/-- What the store lists makes a matcher. -/
theorem leads_listRules {p : Plane (PlannedStore Backing)} (h : Routable p) :
    (ask .listRules).Leads moment p fun r q => (Routable q ∧ ¬ Rejected r) ∧
      ∀ rules, r = .ok rules → ∃ matcher, Matcher.build rules q.settings.defaultTransport = .ok matcher := by
  refine fun effects => ⟨sure_ask .listRules trivial p h effects, ?_⟩
  refine ends_ask (Q := fun r s => ∀ rules, r = .ok rules →
    ∃ matcher, Matcher.build rules s.plane.settings.defaultTransport = .ok matcher) fun rules ok => ?_
  have answered := (ask_ok .listRules p).mp ok
  refine Matcher.build_ok (fun rule member => ?_) h.fallback
  rcases p.store.call_cases .listRules with ⟨fault, failed, -⟩ | ⟨answer, -⟩
  · rw [failed] at answered
    cases answered
  · exact h.rules.listed (answer.symm.trans answered) member

/-- The one step of rebuilding that can be rejected, that of the matcher, succeeds. -/
theorem sure_refresh : (refresh : Call (PlannedStore Backing) Nat).Sure moment := by
  refine (sure_ask .loadConfig trivial).bind fun found => ?_
  cases found with
  | none => exact fun p h => leads_throw ⟨h, nofun⟩
  | some config =>
    refine (sure_ask .loadPhases trivial).bind fun phases p h => ?_
    refine (leads_listRules h).bind (fun rules q reached => ?_) fun _ _ => And.left
    obtain ⟨⟨h, -⟩, builds⟩ := reached
    obtain ⟨matcher, built⟩ := builds rules rfl
    refine leads_plane_bind (leads_orInvalid_bind (fun matcher _ => ?_) fun fault failed => ?_)
    · exact (sure_configurePool matcher).bind (fun _ => sure_publishSnapshot _) q h
    · rw [built] at failed
      cases failed

/-- Only the store makes publishing fail; the degraded snapshot that then appears does not change the fault. -/
theorem sure_publish : (publish : Call (PlannedStore Backing) Nat).Sure moment := fun p h => by
  refine (sure_refresh p h).tryCatch (fun _ _ => id) fun fault q reached => ?_
  have degrades : (degrade fault : Call (PlannedStore Backing) Unit).Sure moment := fun _ h =>
    leads_plane_bind ((sure_publishSnapshot _).bind (fun _ => sure_report _) _ h)
  exact (degrades q reached.1).bind (fun _ _ degraded => leads_throw ⟨degraded.1, reached.2⟩) fun _ _ => id

/-- A write that takes place is published, and one that does not changes nothing. -/
theorem Writes.then_clean {s : StoreCall α} (writes : c.Writes moment s) (vetted : s.Vetted)
    (found : ∀ a, s.missed a = false → (f a).Sure moment)
    (missed : ∀ a, s.missed a = true → (f a).Quiet moment) : (c >>= f).Clean moment := by
  refine fun session ready => (writes session).bind (fun a t reached => ?_) fun fault t reached _ => ?_
  · obtain ⟨rfl, answered⟩ := reached
    cases missing : s.missed a with
    | false =>
      -- The write took place. What follows is not rejected, so nothing has to be unchanged.
      have routable := ready.asked s fun _ => vetted
      exact ((found a missing _ routable).ends session.effects).mono fun _ _ sure rejected =>
        absurd rejected sure.2
    | true =>
      have unchanged := Unchanged.of_vain (s := session) (c := s) fun b ok => by
        cases (answered b).mpr ok
        exact Or.inr missing
      exact (missed a missing _ (unchanged.ready ready)).mono fun _ _ same _ => unchanged.trans same
  · obtain ⟨rfl, answered⟩ := reached
    exact .of_vain fun b ok => nomatch (answered b).mpr ok

end

/-! ### The calls of operators -/

theorem updateConfig_clean (update : ConfigUpdate) :
    (updateConfig update : Call (PlannedStore Backing) WarmupConfig).Clean moment := by
  refine quiet_loadOrSeed.then_clean fun before => (quiet_orInvalid _).then_clean fun config => ?_
  refine (ask_writes (.saveConfig config)).then_clean trivial (fun _ _ => sure_publish.bind fun _ => ?_) fun _ => nofun
  refine (sure_report _).bind fun _ => ?_
  dsimp only
  split
  · exact (sure_report _).bind fun _ => sure_pure _
  · exact sure_pure _

theorem restart_clean (config : WarmupConfig) (table : PhaseTable) (event : AuditEvent) :
    (restart config table event : Call (PlannedStore Backing) WarmupStatus).Clean moment := by
  refine (ask_writes (.saveConfig config)).then_clean trivial (fun _ _ => ?_) fun _ => nofun
  exact sure_publish.bind fun _ => (sure_report _).bind fun _ => sure_wallNow.bind fun _ => sure_pure _

theorem setPhase_clean (number : Nat) :
    (setPhase number : Call (PlannedStore Backing) WarmupStatus).Clean moment := by
  refine quiet_loadOrSeed.then_clean fun config => quiet_storedTable.then_clean fun table => ?_
  refine quiet_wallNow.then_clean fun now => (quiet_orInvalid _).then_clean fun shifted => ?_
  exact restart_clean shifted table _

theorem resetWarmup_clean : (resetWarmup : Call (PlannedStore Backing) WarmupStatus).Clean moment := by
  refine quiet_loadOrSeed.then_clean fun config => quiet_storedTable.then_clean fun table => ?_
  exact quiet_wallNow.then_clean fun now => restart_clean (config.restarted now) table _

theorem replacePhases_clean (phases : List WarmupPhase) :
    (replacePhases phases : Call (PlannedStore Backing) (List WarmupPhase)).Clean moment := by
  refine (quiet_orInvalid _).then_clean fun table => ?_
  refine (ask_writes (.replacePhases table.phases)).then_clean trivial (fun _ _ => ?_) fun _ => nofun
  exact sure_publish.bind fun _ => (sure_report _).bind fun _ => sure_pure _

theorem updatePhase_clean (number : Nat) (patch : PhasePatch) :
    (updatePhase number patch : Call (PlannedStore Backing) WarmupPhase).Clean moment := by
  refine quiet_storedTable.then_clean fun stored => orInvalid_clean fun table patched => ?_
  refine (ask_writes (.replacePhases table.phases)).then_clean trivial (fun _ _ => ?_) fun _ => nofun
  refine sure_publish.bind fun _ => (sure_report _).bind fun _ => ?_
  -- The phase was there before the change, so it is found after it.
  obtain ⟨phase, found⟩ := Option.isSome_iff_exists.mp (PhaseTable.withPatch_found patched)
  rw [found]
  exact sure_pure phase

theorem createRule_clean (draft : RuleDraft) :
    (createRule draft : Call (PlannedStore Backing) TransportRule).Clean moment := by
  refine orInvalid_clean fun validated valid => (quiet_ask rfl).then_clean fun rules => ?_
  refine (quiet_requireUnused _ _ _).then_clean fun _ => ?_
  have vetted : (StoreCall.insertRule validated.2).Vetted := ⟨draft, validated.1, valid⟩
  refine (askUnique_writes _ (.insertRule validated.2)).then_clean vetted (fun _ _ => ?_) fun _ => nofun
  exact sure_publish.bind fun _ => (sure_report _).bind fun _ => sure_pure _

theorem updateRule_clean (id : Nat) (patch : RulePatch) :
    (updateRule id patch : Call (PlannedStore Backing) TransportRule).Clean moment := by
  refine (quiet_ask rfl).then_clean fun rules => ?_
  split
  · refine orInvalid_clean fun validated valid => (quiet_requireUnused _ _ _).then_clean fun _ => ?_
    have vetted : (StoreCall.updateRule (validated.2.withId id)).Vetted := ⟨_, validated.1, valid⟩
    refine (askUnique_writes _ (.updateRule (validated.2.withId id))).then_clean vetted (fun found taken => ?_)
      fun found missed => ?_
    · rw [StoreCall.missed] at taken
      simp only [taken]
      exact sure_publish.bind fun _ => (sure_report _).bind fun _ => sure_pure _
    · rw [StoreCall.missed] at missed
      simp only [missed]
      exact quiet_throw_bind _ _
  · exact (quiet_throw _).clean

theorem deleteRule_clean (id : Nat) : (deleteRule id : Call (PlannedStore Backing) Unit).Clean moment := by
  refine (ask_writes (.deleteRule id)).then_clean trivial (fun found taken => ?_) fun found missed => ?_
  · rw [StoreCall.missed] at taken
    simp only [taken]
    exact sure_publish.bind fun _ => sure_report _
  · rw [StoreCall.missed] at missed
    simp only [missed]
    exact quiet_throw_bind _ _

end Call

/-- A call of an operator that is rejected changes nothing. -/
theorem OperatorCall.clean (moment : Moment) :
    ∀ o : OperatorCall α, (o.call : Call (PlannedStore Backing) α).Clean moment
  | updateConfig update => Call.updateConfig_clean update
  | setPhase number => Call.setPhase_clean number
  | resetWarmup => Call.resetWarmup_clean
  | replacePhases phases => Call.replacePhases_clean phases
  | updatePhase number patch => Call.updatePhase_clean number patch
  | createRule draft => Call.createRule_clean draft
  | updateRule id patch => Call.updateRule_clean id patch
  | deleteRule id => Call.deleteRule_clean id

end RelayRamp.Plane
