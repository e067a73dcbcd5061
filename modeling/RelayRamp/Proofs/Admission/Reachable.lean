import RelayRamp.Proofs.Admission.Recovery
import RelayRamp.Proofs.Plane.Accepted

/-!
# Planes over a store that has come back

Planes have served over a store that began empty, and any call to it may have failed; from some moment on none is made
to fail any more. Whatever happened before, the store holds a table of rules, and phases of a table or none, and gives
them when it is asked; the default transport is the valid one that the plane was opened with.
-/
namespace RelayRamp.Plane

open RelayRamp.Store RelayRamp.Warmup

/-- The plane over its store, of which no call is made to fail any more. -/
protected def relieved {σ : Type} (p : Plane (PlannedStore σ)) : Plane σ :=
  ⟨p.store.inner, p.snapshot, p.counters, p.pool, p.tallies, p.settings⟩

end RelayRamp.Plane

namespace RelayRamp.Store

open RelayRamp.Warmup

/-- The call writes no phases but those of a table. -/
def StoreCall.Tabular {α : Type} : StoreCall α → Prop
  | replacePhases phases => ∃ given table, PhaseTable.ofPhases given = .ok table ∧ table.phases = phases
  | _ => True

/-- The rules that are stored are a table. -/
def Backing.Tabled (s : Backing) : Prop := ∃ last rules, s.Tabulates last rules ∧ RuleTable last rules

theorem Backing.Tabled.call {s : Backing} (h : s.Tabled) {α : Type} (c : StoreCall α)
    (vetted : c.kind ≠ .saveCounters → c.Vetted) : (s.call c).2.Tabled := by
  obtain ⟨last, rules, tabulates, table⟩ := h
  obtain ⟨last', rules', tabulates', effect⟩ := tabulates.call table c vetted
  exact ⟨last', rules', tabulates', (table.effect effect).1⟩

/-- The phases that are stored can be read. -/
def Backing.Phased (s : Backing) : Prop := ∃ phases, s.HasPhases phases

theorem Backing.Phased.call {s : Backing} (h : s.Phased) {α : Type} {c : StoreCall α} (tabular : c.Tabular) :
    (s.call c).2.Phased := by
  obtain ⟨held, holds⟩ := h
  cases c with
  | replacePhases phases =>
    obtain ⟨given, table, built, rfl⟩ := tabular
    by_cases fits : s.Fits table.phases
    · obtain ⟨t, answered, taken, -⟩ := holds.replaced built fits
      rw [answered]
      exact ⟨_, taken⟩
    · obtain ⟨-, -, n, field, -, failed⟩ := Backing.HasPhases.refused built fits
      rw [failed]
      exact ⟨held, holds⟩
  | _ => exact ⟨held, holds.kept nofun⟩

end RelayRamp.Store

namespace RelayRamp.Plane

open RelayRamp.Store RelayRamp.Time RelayRamp.Warmup

/-- Stored phases stay readable. -/
def Legibly (p q : Plane (PlannedStore Backing)) : Prop := p.store.inner.Phased → q.store.inner.Phased

instance : IsPreorder (Plane (PlannedStore Backing)) Legibly where
  refl _ := id
  trans _ _ _ first rest phased := rest (first phased)

theorem legibly_suits : Suits StoreCall.Tabular Legibly where
  spares spares phased := spares.inner ▸ phased
  asks _ c tabular phased := PlannedStore.call_inner c phased (phased.call tabular)
  tables built := ⟨_, _, built, rfl⟩
  others c _ other := by
    cases c with
    | replacePhases => exact absurd rfl other
    | _ => trivial

/-- The seed has the phases of a table. -/
theorem seed_tabular : (StoreCall.replacePhases Seed.phases).Tabular := by
  let table : PhaseTable := ⟨Seed.phases, by decide, by decide +kernel⟩
  exact ⟨Seed.phases, table, table.ofPhases_self (by decide), rfl⟩

end RelayRamp.Plane

namespace RelayRamp.Admission

open RelayRamp.Lease RelayRamp.Plane RelayRamp.Routing RelayRamp.Store RelayRamp.Time RelayRamp.Warmup

/-- What every command keeps to, a service keeps to. -/
theorem Service.run_suits {sort : {α : Type} → StoreCall α → Prop}
    {R : Plane (PlannedStore Backing) → Plane (PlannedStore Backing) → Prop}
    [IsPreorder (Plane (PlannedStore Backing)) R] (suits : Suits sort R) (configs : ∀ config, sort (.saveConfig config))
    (seed : sort (.replacePhases Seed.phases)) (s : Service (PlannedStore Backing)) (acts : List (Moment × Act)) :
    R s.plane (s.run acts).plane := by
  induction acts generalizing s with
  | nil => exact Std.Refl.refl _
  | cons entry rest ih =>
    refine IsTrans.trans _ _ _ ?_ (ih (s.step entry.1 entry.2))
    by_cases commands : ∃ command, entry.2 = .command command
    · obtain ⟨command, same⟩ := commands
      rw [same]
      exact suits.command configs seed entry.1 s.plane command
    · have touches := s.step_touches entry.1 fun command same => commands ⟨command, same⟩
      exact suits.spares ⟨congrArg PlannedStore.inner touches.store, touches.settings⟩

section

variable {t : Instant} {store : Backing} {plan : List (Option StoreFault)} {settings : EngineSettings}
  {opening : Moment} {p : Plane (PlannedStore Backing)} {effects : Effects}

theorem served_phased (phased : store.Phased)
    (launched : Plane.launch ⟨store, plan⟩ settings opening = .ok (p, effects)) (acts : List (Moment × Act)) :
    ((Service.opened p).run acts).plane.store.inner.Phased := by
  obtain ⟨blank, unloaded, rfl⟩ := of_launch launched
  obtain ⟨same, -, -⟩ := of_unloaded unloaded
  refine Service.run_suits legibly_suits (fun _ => trivial) seed_tabular (Service.opened _) acts ?_
  refine legibly_suits.load (fun _ => trivial) seed_tabular blank ?_
  rw [same]
  exact phased

theorem Tended.phased (tended : Tended t store) : store.Phased := by
  induction tended with
  | memory => exact ⟨[], rfl, rfl⟩
  | durable => exact ⟨[], rfl, nofun⟩
  | served _ launched _ ih => exact served_phased ih launched _

theorem WrittenBy.tabled (written : WrittenBy t store) : store.Tabled := by
  induction written with
  | memory => exact ⟨0, [], ⟨rfl, rfl, rfl⟩, .empty 0⟩
  | durable => exact ⟨0, [], ⟨rfl, rfl, rfl, by decide⟩, .empty 0⟩
  | asked c vetted _ ih => exact ih.call c fun _ => vetted
  | saved _ _ _ ih => exact ih.call (.saveCounters _) fun other => absurd rfl other

theorem tabled_invariant (t : Instant) : Invariant t fun p : Plane (PlannedStore Backing) => p.store.inner.Tabled where
  touched _ touches tabled := touches.store ▸ tabled
  asked c vetted tabled := PlannedStore.call_inner c tabled (tabled.call c fun _ => vetted)
  saved tabled := PlannedStore.call_inner _ tabled (tabled.call (.saveCounters _) fun other => absurd rfl other)

/-- Throughout a service the rules of the store are a table. -/
theorem WrittenBy.served_tabled (written : WrittenBy t store)
    (launched : Plane.launch ⟨store, plan⟩ settings opening = .ok (p, effects)) (acts : List (Moment × Act)) :
    ((Service.opened p).run acts).plane.store.inner.Tabled := by
  refine Service.served_holds tabled_invariant launched (fun blank unloaded => ?_) acts
  rw [(of_unloaded unloaded).1]
  exact written.tabled

end

/-- The plane has been opened and has served over a store that began empty and that planes alone have written. Any calls
to the store may have failed, those of the opening included; from now on none is made to fail. -/
inductive Reachable : Plane Backing → Prop
  | served {t : Instant} {store : Backing} {plan : List (Option StoreFault)} {settings : EngineSettings}
      {opening : Moment} {p : Plane (PlannedStore Backing)} {effects : Effects} (acts : List (Moment × Act)) :
      Tended t store → Plane.launch ⟨store, plan⟩ settings opening = .ok (p, effects) →
      Reachable ((Service.opened p).run acts).plane.relieved

/-- All but the configuration is there and can be read. -/
theorem Reachable.whole {p : Plane Backing} (reachable : Reachable p) :
    ∃ phases last rules, p.store.HasPhases phases ∧ p.store.Tabulates last rules ∧ RuleTable last rules ∧
      p.settings.defaultTransport.validate = .ok () := by
  cases reachable with
  | served acts tended launched =>
    obtain ⟨phases, holds⟩ := served_phased tended.phased launched acts
    obtain ⟨last, rules, tabulates, table⟩ := tended.written.served_tabled launched acts
    exact ⟨phases, last, rules, holds, tabulates, table, (tended.written.routable launched acts).fallback⟩

end RelayRamp.Admission
