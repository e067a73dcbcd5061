import RelayRamp.Proofs.Admission.Invariants
import RelayRamp.Proofs.Plane.Rejection

/-!
# Rejected calls change nothing

Whatever a service has done, its store holds no rules but validated ones, and its default transport is the valid one
that it was opened with. So the matcher can always be rebuilt, and a call of an operator that is rejected has changed
nothing at all.
-/
namespace RelayRamp.Admission

open RelayRamp.Plane RelayRamp.Routing RelayRamp.Store RelayRamp.Time

variable {t : Instant} {store : Backing} {plan : List (Option StoreFault)} {settings : EngineSettings}
  {opening : Moment} {p : Plane (PlannedStore Backing)} {effects : Lease.Effects}

theorem WrittenBy.rulesValidated (written : WrittenBy t store) : store.RulesValidated := by
  induction written with
  | memory => exact fun rule member => nomatch member
  | durable => exact fun row member => nomatch member
  | asked c vetted _ ih => exact ih.asked c fun _ => vetted
  | saved _ _ _ ih => exact ih.asked (.saveCounters _) fun other => absurd rfl other

theorem routable_invariant (t : Instant) : Invariant t Routable where
  touched _ touches h := ⟨touches.store ▸ h.rules, touches.settings ▸ h.fallback⟩
  asked s vetted h := h.asked s fun _ => vetted
  saved h := h.asked (.saveCounters _) fun other => absurd rfl other

/-- In every state of a service the matcher can be rebuilt. -/
theorem WrittenBy.routable (written : WrittenBy t store)
    (launched : Plane.launch ⟨store, plan⟩ settings opening = .ok (p, effects)) (acts : List (Moment × Act)) :
    Routable ((Service.opened p).run acts).plane := by
  refine Service.served_holds routable_invariant launched (fun blank unloaded => ?_) acts
  obtain ⟨matcher, built, same⟩ := ok_of_bind unloaded
  obtain ⟨⟨⟩, valid, -⟩ := ok_of_bind built
  cases same
  exact ⟨written.rulesValidated, valid⟩

namespace Service

/-- A call of an operator that is rejected leaves the store, the snapshot, the leases and the counters as they were,
and reports nothing. -/
theorem rejected_call_changes_nothing (written : WrittenBy t store)
    (launched : Plane.launch ⟨store, plan⟩ settings opening = .ok (p, effects)) (acts : List (Moment × Act))
    (configured : ((opened p).run acts).plane.store.inner.configured = true) {α : Type} (o : OperatorCall α)
    {moment : Moment} {fault : PlaneFault} {q : Plane (PlannedStore Backing)} {done : Lease.Effects}
    (ran : o.call.run moment ((opened p).run acts).plane = (.error fault, q, done))
    (rejected : fault.isRejection = true) :
    let before := ((opened p).run acts).plane
    q = { before with store := ⟨before.store.inner, q.store.plan⟩ } ∧ done = .none := by
  intro before
  have ready : Ready before := ⟨written.routable launched acts, configured⟩
  obtain ⟨plan', same⟩ := (o.clean moment ⟨before, .none⟩ ready).of_run ran rejected
  cases same
  exact ⟨rfl, rfl⟩

/-- A second rule is rejected whose pattern is the first one's in another spelling. -/
theorem rejected_call_changes_nothing_duplicate :
    let empty : PlannedStore Backing := ⟨.durable .empty, []⟩
    let settings : EngineSettings := { EngineSettings.standard with seedPhases := false, seedRules := false }
    let draft (pattern : String) : RuleDraft := ⟨pattern, ⟨"relay"⟩, ⟨2, 0⟩, true, none⟩
    let acts : List (Moment × Act) := [(⟨⟨1⟩, 1⟩, .command (.createRule (draft "*.example.org")))]
    ∃ p effects, Plane.launch empty settings ⟨⟨0⟩, 0⟩ = .ok (p, effects) ∧
      let before := ((opened p).run acts).plane
      before.store.inner.configured = true ∧
      ∃ q done, (OperatorCall.createRule (draft " *.Example.ORG. ")).call.run ⟨⟨2⟩, 2⟩ before =
          (.error (.validation (.duplicatePattern "*.example.org")), q, done) ∧
        q = { before with store := ⟨before.store.inner, q.store.plan⟩ } ∧ done = .none := by
  intro empty settings draft acts
  let call : OperatorCall TransportRule := .createRule (draft " *.Example.ORG. ")
  have runs : (Plane.launch empty settings ⟨⟨0⟩, 0⟩).toOption.map (fun first =>
      let before := ((opened first.1).run acts).plane
      (before.store.inner.configured, match (call.call.run ⟨⟨2⟩, 2⟩ before).1 with
        | .ok _ => none
        | .error fault => some fault)) =
      some (true, some (.validation (.duplicatePattern "*.example.org"))) := by
    decide +kernel
  obtain ⟨⟨p, effects⟩, launched, runs⟩ := Option.map_eq_some_iff.mp runs
  obtain ⟨configured, answer⟩ := Prod.mk.inj runs
  obtain ⟨r, q, done, ran⟩ : ∃ r q done, call.call.run ⟨⟨2⟩, 2⟩ ((opened p).run acts).plane = (r, q, done) :=
    ⟨_, _, _, rfl⟩
  rw [ran] at answer
  have launched := ok_of_toOption launched
  cases r with
  | ok rule => cases answer
  | error fault =>
    obtain rfl := Option.some.inj answer
    exact ⟨p, effects, launched, configured, q, done, ran,
      rejected_call_changes_nothing (WrittenBy.durable (t := ⟨0⟩)) launched acts configured call ran rfl⟩

end Service

end RelayRamp.Admission
