import Mathlib.Logic.Relation
import Mathlib.Order.Defs.Unbundled
import RelayRamp.Plane.Control

/-!
# What a call leads to

Calls are read with assertions about their result and the plane they leave behind. Most of what a call is made of
leaves the plane alone; the rest is told by a relation between the plane before and the plane afterwards, and
calls that follow each other compose when the relation does.

A plane asks its store to write no rules but those that passed validation, and no counters but its own.
-/
namespace RelayRamp.Routing

/-- The draft is what validation makes of one. -/
def RuleDraft.Validated (draft : RuleDraft) : Prop := ∃ raw pattern, RuleDraft.validate raw = .ok (pattern, draft)

end RelayRamp.Routing

namespace RelayRamp.Store

/-- The call writes no counters, and no rule that was not validated. -/
def StoreCall.Vetted {α : Type} : StoreCall α → Prop
  | insertRule draft => draft.Validated
  | updateRule rule => rule.toRuleDraft.Validated
  | saveCounters _ => False
  | _ => True

end RelayRamp.Store

namespace RelayRamp.Plane

open RelayRamp.Lease RelayRamp.Routing RelayRamp.Store RelayRamp.Time RelayRamp.Warmup

variable {σ α β : Type}

namespace Call

/-- Makes a call in a session. -/
def exec (c : Call σ α) (moment : Moment) (s : Session σ) : Except PlaneFault α × Session σ :=
  (ReaderT.run c moment).run.run s

/-- The plane after a call. -/
def after (c : Call σ α) (moment : Moment) (p : Plane σ) : Plane σ := (c.run moment p).2.1

/-- The call goes from the first plane to the second, whatever was done before. -/
def Reaches (c : Call σ α) (moment : Moment) (p q : Plane σ) : Prop :=
  ∃ effects, (c.exec moment ⟨p, effects⟩).2.plane = q

theorem reaches_after (c : Call σ α) (moment : Moment) (p : Plane σ) :
    c.Reaches moment p (c.after moment p) := ⟨.none, rfl⟩

theorem exec_bind (c : Call σ α) (f : α → Call σ β) (moment : Moment) (s : Session σ) :
    (c >>= f).exec moment s =
      match c.exec moment s with
      | (.ok a, s') => (f a).exec moment s'
      | (.error fault, s') => (.error fault, s') := by
  rcases ran : c.exec moment s with ⟨r, s'⟩
  have ran : c moment s = (r, s') := ran
  simp only [exec, ReaderT.run, ExceptT.run, StateT.run, bind, ReaderT.bind, ExceptT.bind, ExceptT.mk,
    StateT.bind, ran]
  cases r <;> rfl

theorem exec_tryCatch (c : Call σ α) (f : PlaneFault → Call σ α) (moment : Moment) (s : Session σ) :
    (tryCatch c f).exec moment s =
      match c.exec moment s with
      | (.ok a, s') => (.ok a, s')
      | (.error fault, s') => (f fault).exec moment s' := by
  rcases ran : c.exec moment s with ⟨r, s'⟩
  have ran : c moment s = (r, s') := ran
  simp only [exec, ReaderT.run, tryCatch, tryCatchThe, MonadExceptOf.tryCatch, ExceptT.tryCatch, ExceptT.mk,
    ExceptT.run, StateT.run, bind, StateT.bind, ran]
  cases r <;> rfl

/-- The store answers, and nothing else changes. -/
theorem exec_ask [ThrottleStore σ] (c : StoreCall α) (moment : Moment) (s : Session σ) :
    (ask c).exec moment s =
      ((ThrottleStore.call c s.plane.store).1.mapError .store,
        { s with plane := { s.plane with store := (ThrottleStore.call c s.plane.store).2 } }) := by
  have got : (get : Call σ (Session σ)).exec moment s = (.ok s, s) := rfl
  simp only [ask, exec_bind, got]
  generalize ThrottleStore.call c s.plane.store = answered
  rcases answered with ⟨_ | _, _⟩ <;> rfl

theorem ask_ok [ThrottleStore σ] (c : StoreCall α) (p : Plane σ) {a : α} :
    (ThrottleStore.call c p.store).1.mapError PlaneFault.store = .ok a ↔
      (ThrottleStore.call c p.store).1 = .ok a := by
  cases (ThrottleStore.call c p.store).1 with
  | ok b =>
    change Except.ok b = Except.ok a ↔ _
    simp only [Except.ok.injEq]
  | error fault =>
    change Except.error (PlaneFault.store fault) = Except.ok a ↔ _
    simp only [reduceCtorEq]

/-! ### Assertions -/

/-- Made in the session, the call ends with a result and a session that fulfil the assertion. -/
def Ends (c : Call σ α) (moment : Moment) (s : Session σ) (Q : Except PlaneFault α → Session σ → Prop) : Prop :=
  Q (c.exec moment s).1 (c.exec moment s).2

section

variable {c : Call σ α} {f : α → Call σ β} {moment : Moment} {s : Session σ}
  {P Q : Except PlaneFault α → Session σ → Prop} {R : Except PlaneFault β → Session σ → Prop}

theorem Ends.mono (ends : c.Ends moment s Q) (weaker : ∀ r t, Q r t → P r t) : c.Ends moment s P :=
  weaker _ _ ends

theorem Ends.bind (first : c.Ends moment s Q) (ok : ∀ a t, Q (.ok a) t → (f a).Ends moment t R)
    (error : ∀ fault t, Q (.error fault) t → R (.error fault) t) : (c >>= f).Ends moment s R := by
  unfold Ends at first ⊢
  rw [exec_bind]
  generalize c.exec moment s = ran at first
  rcases ran with ⟨fault | a, t⟩
  · exact error fault t first
  · exact ok a t first

theorem Ends.tryCatch {f : PlaneFault → Call σ α} (first : c.Ends moment s Q)
    (ok : ∀ a t, Q (.ok a) t → P (.ok a) t)
    (error : ∀ fault t, Q (.error fault) t → (f fault).Ends moment t P) : (tryCatch c f).Ends moment s P := by
  unfold Ends at first ⊢
  rw [exec_tryCatch]
  generalize c.exec moment s = ran at first
  rcases ran with ⟨fault | a, t⟩
  · exact error fault t first
  · exact ok a t first

theorem ends_throw {fault : PlaneFault} (holds : Q (.error fault) s) : (throw fault : Call σ α).Ends moment s Q :=
  holds

theorem ends_ask [ThrottleStore σ] {c : StoreCall α}
    (holds : Q ((ThrottleStore.call c s.plane.store).1.mapError .store)
      { s with plane := { s.plane with store := (ThrottleStore.call c s.plane.store).2 } }) :
    (ask c).Ends moment s Q := by
  unfold Ends
  rw [exec_ask]
  exact holds

theorem ends_orInvalid_bind {r : Except ValidationFault α} (ok : ∀ a, r = .ok a → (f a).Ends moment s R)
    (error : ∀ fault, r = .error fault → R (.error (.validation fault)) s) :
    (orInvalid r >>= f).Ends moment s R := by
  unfold Ends at ok ⊢
  rw [exec_bind]
  cases r with
  | ok a => exact ok a rfl
  | error fault => exact error fault rfl

end

/-- An assertion about a call that is made by itself. -/
theorem Ends.of_run {c : Call σ α} {moment : Moment} {p q : Plane σ} {Q : Except PlaneFault α → Session σ → Prop}
    {r : Except PlaneFault α} {effects : Effects} (ends : c.Ends moment ⟨p, .none⟩ Q)
    (ran : c.run moment p = (r, q, effects)) : Q r ⟨q, effects⟩ := by
  change Q (c.run moment p).1 ⟨(c.run moment p).2.1, (c.run moment p).2.2⟩ at ends
  rwa [ran] at ends

/-- Whatever was done before, the call leads from the plane to a result and a plane that fulfil the assertion. -/
def Leads (c : Call σ α) (moment : Moment) (p : Plane σ) (Q : Except PlaneFault α → Plane σ → Prop) : Prop :=
  ∀ effects, Q (c.exec moment ⟨p, effects⟩).1 (c.exec moment ⟨p, effects⟩).2.plane

section

variable {c : Call σ α} {f : α → Call σ β} {moment : Moment} {p q : Plane σ}
  {Q Q' : Except PlaneFault α → Plane σ → Prop} {R : Except PlaneFault β → Plane σ → Prop}

theorem Leads.ends (leads : c.Leads moment p Q) (effects : Effects) :
    c.Ends moment ⟨p, effects⟩ fun r s => Q r s.plane := leads effects

theorem Leads.of_run {r : Except PlaneFault α} {effects : Effects} (leads : c.Leads moment p Q)
    (ran : c.run moment p = (r, q, effects)) : Q r q := (leads.ends .none).of_run ran

theorem Leads.reached (leads : c.Leads moment p Q) (reaches : c.Reaches moment p q) : ∃ r, Q r q := by
  obtain ⟨effects, rfl⟩ := reaches
  exact ⟨_, leads effects⟩

theorem Leads.mono (leads : c.Leads moment p Q) (weaker : ∀ r q, Q r q → Q' r q) : c.Leads moment p Q' :=
  fun effects => weaker _ _ (leads effects)

theorem Leads.bind (first : c.Leads moment p Q) (ok : ∀ a q, Q (.ok a) q → (f a).Leads moment q R)
    (error : ∀ fault q, Q (.error fault) q → R (.error fault) q) : (c >>= f).Leads moment p R := fun effects =>
  (first.ends effects).bind (R := fun r s => R r s.plane) (fun a s reached => (ok a _ reached).ends s.effects)
    fun fault _ => error fault _

theorem Leads.tryCatch {f : PlaneFault → Call σ α} (first : c.Leads moment p Q)
    (ok : ∀ a q, Q (.ok a) q → Q' (.ok a) q)
    (error : ∀ fault q, Q (.error fault) q → (f fault).Leads moment q Q') :
    (tryCatch c f).Leads moment p Q' := fun effects =>
  (first.ends effects).tryCatch (P := fun r s => Q' r s.plane) (fun a _ => ok a _)
    fun fault s reached => (error fault _ reached).ends s.effects

theorem leads_pure {a : α} (holds : Q (.ok a) p) : (pure a : Call σ α).Leads moment p Q := fun _ => holds

theorem leads_throw {fault : PlaneFault} (holds : Q (.error fault) p) :
    (throw fault : Call σ α).Leads moment p Q := fun _ => holds

theorem leads_ask [ThrottleStore σ] {s : StoreCall α}
    (holds : Q ((ThrottleStore.call s p.store).1.mapError .store)
      { p with store := (ThrottleStore.call s p.store).2 }) : (ask s).Leads moment p Q := by
  intro effects
  rw [exec_ask]
  exact holds

theorem leads_setPlane_bind {change : Plane σ → Plane σ} {f : Unit → Call σ α}
    (leads : (f ()).Leads moment (change p) Q) : (setPlane change >>= f).Leads moment p Q := fun effects => by
  rw [exec_bind]
  exact leads effects

theorem leads_plane_bind {f : Plane σ → Call σ α} (leads : (f p).Leads moment p Q) :
    (plane >>= f).Leads moment p Q := fun effects => by
  rw [exec_bind]
  exact leads effects

theorem leads_wallNow_bind {f : Instant → Call σ α} (leads : (f moment.wall).Leads moment p Q) :
    (wallNow >>= f).Leads moment p Q := fun effects => by
  rw [exec_bind]
  exact leads effects

theorem leads_read_bind {f : Moment → Call σ α} (leads : (f moment).Leads moment p Q) :
    (read >>= f).Leads moment p Q := fun effects => by
  rw [exec_bind]
  exact leads effects

theorem leads_affect_bind {effects : Effects} {f : Unit → Call σ α} (leads : (f ()).Leads moment p Q) :
    (affect effects >>= f).Leads moment p Q := fun effects' => by
  rw [exec_bind]
  exact leads _

theorem leads_orInvalid_bind {r : Except ValidationFault α} (ok : ∀ a, r = .ok a → (f a).Leads moment p R)
    (error : ∀ fault, r = .error fault → R (.error (.validation fault)) p) :
    (orInvalid r >>= f).Leads moment p R := fun effects =>
  ends_orInvalid_bind (R := fun r s => R r s.plane) (fun a same => (ok a same).ends effects) error

theorem leads_publishSnapshot {next : Snapshot} {Q : Except PlaneFault Nat → Plane σ → Prop}
    (holds : Q (.ok (p.snapshot.version + 1))
      { p with snapshot := { next with version := p.snapshot.version + 1 } }) :
    (publishSnapshot next).Leads moment p Q :=
  leads_plane_bind (leads_setPlane_bind (leads_pure holds))

end

/-! ### Calls that keep to a relation -/

/-- The call goes from every plane only to related ones. -/
def Keeps (c : Call σ α) (moment : Moment) (R : Plane σ → Plane σ → Prop) : Prop :=
  ∀ p, c.Leads moment p fun _ q => R p q

section

variable {c : Call σ α} {f : α → Call σ β} {moment : Moment} {R S : Plane σ → Plane σ → Prop}

theorem Keeps.reached (keeps : c.Keeps moment R) {p q : Plane σ} (reaches : c.Reaches moment p q) : R p q :=
  let ⟨_, related⟩ := (keeps p).reached reaches
  related

theorem Keeps.after (keeps : c.Keeps moment R) (p : Plane σ) : R p (c.after moment p) :=
  keeps.reached (c.reaches_after moment p)

theorem Keeps.mono (keeps : c.Keeps moment R) (weaker : ∀ p q, R p q → S p q) : c.Keeps moment S :=
  fun p => (keeps p).mono fun _ q => weaker p q

/-- Two calls in sequence, told by how their relations compose. -/
theorem Keeps.seq {T : Plane σ → Plane σ → Prop} (first : c.Keeps moment R)
    (rest : ∀ a, (f a).Keeps moment S) (both : ∀ p q r, R p q → S q r → T p r)
    (alone : ∀ p q, R p q → T p q) : (c >>= f).Keeps moment T := fun p =>
  (first p).bind (fun a q reached => (rest a q).mono fun _ r => both p q r reached)
    fun _ q => alone p q

theorem Keeps.bind [IsTrans (Plane σ) R] (first : c.Keeps moment R) (rest : ∀ a, (f a).Keeps moment R) :
    (c >>= f).Keeps moment R :=
  first.seq rest (fun _ _ _ => IsTrans.trans _ _ _) fun _ _ => id

theorem Keeps.tryCatch [IsTrans (Plane σ) R] {f : PlaneFault → Call σ α} (first : c.Keeps moment R)
    (rest : ∀ fault, (f fault).Keeps moment R) : (tryCatch c f).Keeps moment R := fun p =>
  (first p).tryCatch (fun _ _ => id) fun fault q reached =>
    (rest fault q).mono fun _ _ => IsTrans.trans _ _ _ reached

theorem Keeps.forM [IsPreorder (Plane σ) R] {g : β → Call σ Unit} (each : ∀ b, (g b).Keeps moment R) :
    ∀ l : List β, (l.forM g).Keeps moment R
  | [] => fun p => leads_pure (Std.Refl.refl p)
  | b :: rest => (each b).bind fun _ => Keeps.forM each rest

theorem Keeps.orInvalid_bind [Std.Refl R] {r : Except ValidationFault α}
    (rest : ∀ a, r = .ok a → (f a).Keeps moment R) : (orInvalid r >>= f).Keeps moment R := fun p =>
  leads_orInvalid_bind (fun a ok => rest a ok p) fun _ _ => Std.Refl.refl p

/-! ### Calls that leave the plane alone -/

/-- The call leaves the plane as it is. -/
def Idle (c : Call σ α) : Prop := ∀ moment, c.Keeps moment Eq

theorem Idle.keeps [Std.Refl R] (idle : c.Idle) (moment : Moment) : c.Keeps moment R :=
  (idle moment).mono fun p _ same => same ▸ Std.Refl.refl p

theorem Idle.bind (first : c.Idle) (rest : ∀ a, (f a).Idle) : (c >>= f).Idle :=
  fun moment => (first moment).bind fun a => rest a moment

theorem idle_pure (a : α) : (pure a : Call σ α).Idle := fun _ _ => leads_pure rfl

theorem idle_throw (fault : PlaneFault) : (throw fault : Call σ α).Idle := fun _ _ => leads_throw rfl

theorem idle_throw_bind (fault : PlaneFault) (f : α → Call σ β) : (throw fault >>= f).Idle :=
  fun _ _ _ => by rw [exec_bind]; rfl

theorem idle_plane : (plane : Call σ (Plane σ)).Idle := fun _ _ _ => rfl

theorem idle_wallNow : (wallNow : Call σ Instant).Idle := fun _ _ _ => rfl

theorem idle_affect (effects : Effects) : (affect effects : Call σ Unit).Idle := fun _ _ _ => rfl

theorem idle_report (event : AuditEvent) : (report event : Call σ Unit).Idle := idle_affect _

theorem idle_orInvalid : ∀ r : Except ValidationFault α, (orInvalid r : Call σ α).Idle
  | .ok a => idle_pure a
  | .error _ => idle_throw _

theorem idle_orMisconfigured : ∀ r : Except ConfigurationFault α, (orMisconfigured r : Call σ α).Idle
  | .ok a => idle_pure a
  | .error _ => idle_throw _

theorem idle_requireUnused (rules : List TransportRule) (pattern : String) (except : Option Nat) :
    (requireUnused rules pattern except : Call σ Unit).Idle := by
  unfold requireUnused
  split
  · exact idle_throw _
  · exact idle_pure _

end

/-! ### Calls that ask the store -/

section

variable [ThrottleStore σ] {moment : Moment} {R : Plane σ → Plane σ → Prop}

/-- The relation allows the store to answer calls that write no counters. -/
def Asks (R : Plane σ → Plane σ → Prop) : Prop :=
  ∀ (p : Plane σ) {α : Type} (s : StoreCall α), s.Vetted → R p { p with store := (ThrottleStore.call s p.store).2 }

theorem ask_keeps (asks : Asks R) (s : StoreCall α) (vetted : s.Vetted) : (ask s).Keeps moment R :=
  fun p => leads_ask (asks p s vetted)

/-- The end of seeding: a configuration is written. -/
def seedConfig : Call σ WarmupConfig := do
  let now ← wallNow
  ask (.saveConfig (.fresh now))
  pure (.fresh now)

/-- Seeding from the rules on. -/
def seedRules (settings : EngineSettings) : Call σ WarmupConfig := do
  if settings.seedRules then
    let rules ← ask .listRules
    if rules.isEmpty then
      Seed.rules.forM fun draft => do
        let (_, draft) ← orInvalid draft.validate
        let _ ← ask (.insertRule draft)
  seedConfig

theorem loadOrSeed_eq :
    (loadOrSeed : Call σ WarmupConfig) = (do
      match ← ask .loadConfig with
      | some config =>
        orInvalid config.validate
        pure config
      | none =>
        let settings := (← plane).settings
        if settings.seedPhases then
          if (← ask .loadPhases).isEmpty then
            ask (.replacePhases Seed.phases)
        seedRules settings) := rfl

theorem seedConfig_keeps [IsPreorder (Plane σ) R] (asks : Asks R) : seedConfig.Keeps moment R :=
  (idle_wallNow.keeps moment).bind fun now => (ask_keeps asks (.saveConfig (.fresh now)) trivial).bind
    fun _ => (idle_pure _).keeps moment

theorem seedRules_keeps [IsPreorder (Plane σ) R] (asks : Asks R) (settings : EngineSettings) :
    (seedRules settings).Keeps moment R := by
  unfold seedRules
  split
  · refine (ask_keeps asks .listRules trivial).bind fun rules => ?_
    split
    · refine (Keeps.forM (fun draft => ?_) _).bind fun _ => seedConfig_keeps asks
      refine Keeps.orInvalid_bind fun validated valid => ?_
      exact (ask_keeps asks (.insertRule validated.2) ⟨draft, validated.1, valid⟩).bind fun _ =>
        (idle_pure _).keeps moment
    · exact seedConfig_keeps asks
  · exact seedConfig_keeps asks

theorem loadOrSeed_keeps [IsPreorder (Plane σ) R] (asks : Asks R) : loadOrSeed.Keeps moment R := by
  rw [loadOrSeed_eq]
  refine (ask_keeps asks .loadConfig trivial).bind fun found => ?_
  cases found with
  | some config => exact ((idle_orInvalid _).bind fun _ => idle_pure _).keeps moment
  | none =>
    refine (idle_plane.keeps moment).bind fun p => ?_
    dsimp only
    split
    · refine (ask_keeps asks .loadPhases trivial).bind fun phases => ?_
      split
      · exact (ask_keeps asks (.replacePhases Seed.phases) trivial).bind fun _ => seedRules_keeps asks _
      · exact seedRules_keeps asks _
    · exact seedRules_keeps asks _

end

/-! ### Calls that publish -/

theorem configurePool_keeps {moment : Moment} {R : Plane σ → Plane σ → Prop} [IsPreorder (Plane σ) R]
    (configured : ∀ (p : Plane σ) name limits,
      R p { p with pool := (p.pool.configure name limits moment.tick).1 })
    (retained : ∀ (p : Plane σ) keep, R p { p with pool := p.pool.retain keep }) (matcher : Matcher) :
    (configurePool matcher).Keeps moment R := fun p => by
  refine leads_read_bind (Keeps.bind (R := R) (Keeps.forM (fun entry p => ?_) _) (fun _ p => ?_) p)
  · exact leads_plane_bind (leads_setPlane_bind fun _ => configured p entry.1 entry.2)
  · exact fun _ => retained p _

/-- The relation allows what publishing takes: the store answers, the transports get their limits and the idle ones
go, and a snapshot of the next version appears. -/
structure Permits [ThrottleStore σ] (moment : Moment) (R : Plane σ → Plane σ → Prop) : Prop where
  asks : Asks R
  configured (p : Plane σ) (name : TransportName) (limits : TransportLimits) :
    R p { p with pool := (p.pool.configure name limits moment.tick).1 }
  retained (p : Plane σ) (keep : List TransportName) : R p { p with pool := p.pool.retain keep }
  published (p : Plane σ) (next : Snapshot) :
    R p { p with snapshot := { next with version := p.snapshot.version + 1 } }

section

variable [ThrottleStore σ] {moment : Moment} {R : Plane σ → Plane σ → Prop} [IsPreorder (Plane σ) R]

theorem refresh_keeps (permits : Permits moment R) : refresh.Keeps moment R := by
  refine (ask_keeps permits.asks .loadConfig trivial).bind fun found => ?_
  split
  · refine (ask_keeps permits.asks .loadPhases trivial).bind fun phases => ?_
    refine (ask_keeps permits.asks .listRules trivial).bind fun rules => ?_
    refine (idle_plane.keeps moment).bind fun p => ((idle_orInvalid _).keeps moment).bind fun matcher => ?_
    refine (configurePool_keeps permits.configured permits.retained matcher).bind fun _ p => ?_
    exact leads_publishSnapshot (permits.published p _)
  · exact (idle_throw _).keeps moment

theorem degrade_keeps (permits : Permits moment R) (fault : PlaneFault) : (degrade fault).Keeps moment R :=
  (idle_plane.keeps moment).bind fun _ =>
    Keeps.bind (fun p => leads_publishSnapshot (permits.published p _)) fun _ => (idle_report _).keeps moment

theorem orDegrade_keeps (permits : Permits moment R) {c : Call σ α} (keeps : c.Keeps moment R) :
    (orDegrade c).Keeps moment R :=
  keeps.tryCatch fun _ => (degrade_keeps permits _).bind fun _ => (idle_throw _).keeps moment

theorem publish_keeps (permits : Permits moment R) : publish.Keeps moment R :=
  orDegrade_keeps permits (refresh_keeps permits)

theorem reload_keeps (permits : Permits moment R) : reload.Keeps moment R :=
  orDegrade_keeps permits ((loadOrSeed_keeps permits.asks).bind fun _ => refresh_keeps permits)

theorem load_keeps (permits : Permits moment R)
    (restored : ∀ (p : Plane σ) buckets, R p { p with counters := p.counters.restore buckets moment.wall }) :
    load.Keeps moment R := by
  refine Keeps.tryCatch ?_ fun _ => degrade_keeps permits _
  refine (loadOrSeed_keeps permits.asks).bind fun _ => ?_
  refine (ask_keeps permits.asks .loadCounters trivial).bind fun buckets => ?_
  refine fun p => leads_wallNow_bind (leads_setPlane_bind ?_)
  refine ((refresh_keeps permits).bind (fun _ => (idle_pure ()).keeps moment) _).mono fun _ _ => ?_
  exact IsTrans.trans _ _ _ (restored p buckets)

theorem persistCounters_keeps (permits : Permits moment R)
    (rolled : ∀ p : Plane σ, R p { p with counters := p.counters.rolled moment.wall })
    (saved : ∀ p : Plane σ,
      R p { p with store := (ThrottleStore.call (.saveCounters p.counters.buckets) p.store).2 }) :
    persistCounters.Keeps moment R := by
  refine fun p => leads_wallNow_bind (leads_setPlane_bind ?_)
  refine Leads.mono ?_ fun _ _ => IsTrans.trans _ _ _ (rolled p)
  refine leads_plane_bind ?_
  generalize ({ p with counters := p.counters.rolled moment.wall } : Plane σ) = p'
  refine (leads_ask (Q := fun _ q => R p' q) (saved p')).tryCatch (fun _ _ => id) fun fault q asked => ?_
  refine Leads.mono ?_ fun _ _ => IsTrans.trans _ _ _ asked
  refine (((idle_report _).keeps moment).bind fun _ => (idle_plane.keeps moment).bind fun q => ?_) q
  dsimp only
  split
  · exact (degrade_keeps permits fault).bind fun _ => (idle_throw _).keeps moment
  · exact (idle_throw _).keeps moment

end

end Call

end RelayRamp.Plane
