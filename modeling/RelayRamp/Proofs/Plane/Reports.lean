import RelayRamp.Lease.Acquisition
import RelayRamp.Plane.Maintenance
import RelayRamp.Proofs.Plane.Commands

/-!
# What calls report

Calls report what operators and maintenance did, leases that were released or recovered by them, and the loss of the
store. None of them reports that an attempt was held or rejected: only attempts do.
-/
namespace RelayRamp

/-- The event tells that an attempt was not admitted. -/
def AuditEvent.isRefusal (event : AuditEvent) : Bool := event.kind = .admissionHeld || event.kind = .admissionRejected

end RelayRamp

namespace RelayRamp.Lease

open RelayRamp.Routing

namespace Effects

/-- The attempts that were not admitted, as they are reported. -/
def refusals (effects : Effects) : List AuditEvent := effects.events.filter (·.isRefusal)

@[simp] theorem refusals_none : none.refusals = [] := rfl

@[simp] theorem refusals_serve (generation : Nat) (turns : List Turn) : (serve generation turns).refusals = [] := rfl

@[simp] theorem refusals_and (a b : Effects) : (a.and b).refusals = a.refusals ++ b.refusals := List.filter_append _ _

end Effects

namespace Pool

@[simp] theorem refusals_configure (p : Pool) (transport : TransportName) (limits : TransportLimits) (now : Nat) :
    (p.configure transport limits now).2.refusals = [] := by
  unfold configure
  cases p.find? transport with
  | none => rfl
  | some g => exact Effects.refusals_serve _ _

@[simp] theorem refusals_release (p : Pool) (transport : TransportName) (lease now : Nat) :
    (p.release transport lease now).2.1.refusals = [] := by
  unfold release
  cases p.find? transport with
  | none => rfl
  | some g =>
    simp only [Option.bind_eq_bind, Option.bind_some]
    cases g.slot.release lease now with
    | none => rfl
    | some freed => exact Effects.refusals_serve _ _

@[simp] theorem refusals_reclaim (p : Pool) (maxHold now : Nat) : (p.reclaim maxHold now).2.1.refusals = [] := by
  refine List.filter_eq_nil_iff.mpr fun event member => ?_
  obtain ⟨ticket, -, rfl⟩ := List.mem_map.mp member
  exact Bool.false_ne_true

end Pool

namespace Acquisition

@[simp] theorem refusals_leave (p : Pool) (key : WaitKey) (now : Nat) : (leave p key now).2.refusals = [] := by
  unfold leave
  cases p.slot? key.generation with
  | none => rfl
  | some slot => exact Effects.refusals_serve _ _

@[simp] theorem refusals_resume (p : Pool) (now : Nat) (a : Acquisition) : (a.resume p now).2.1.refusals = [] := by
  have queued (p : Pool) (ticket : Admission.LeaseTicket) (key : WaitKey) (deadline : Nat) :
      (resumeQueued p now ticket key deadline).2.1.refusals = [] := by
    unfold resumeQueued
    dsimp only
    split
    · rfl
    · split
      · rfl
      · split
        · rfl
        · exact refusals_leave _ _ _
  cases a with
  | requested transport timeout =>
    simp only [resume]
    split
    · exact queued _ _ _ _
    · rfl
  | queued ticket key deadline => exact queued _ _ _ _
  | pacing | granted | failed => rfl

@[simp] theorem refusals_cancel (p : Pool) (now : Nat) (a : Acquisition) : (a.cancel p now).2.refusals = [] := by
  cases a with
  | queued => exact refusals_leave _ _ _
  | pacing | granted => exact Pool.refusals_release _ _ _ _
  | requested | failed => rfl

end Acquisition

end RelayRamp.Lease

namespace RelayRamp.Plane

open RelayRamp.Lease RelayRamp.Routing RelayRamp.Store RelayRamp.Time RelayRamp.Warmup

variable {σ α β : Type}

namespace Call

/-- The call reports of no attempt. -/
def Silent (c : Call σ α) : Prop :=
  ∀ moment session, (c.exec moment session).2.effects.refusals = session.effects.refusals

section

variable {c : Call σ α} {f : α → Call σ β}

theorem Silent.run (silent : c.Silent) (moment : Moment) (p : Plane σ) : (c.run moment p).2.2.refusals = [] :=
  silent moment ⟨p, .none⟩

theorem Silent.bind (first : c.Silent) (rest : ∀ a, (f a).Silent) : (c >>= f).Silent := fun moment session => by
  rw [exec_bind]
  have before := first moment session
  generalize c.exec moment session = ran at before
  rcases ran with ⟨fault | a, between⟩
  · exact before
  · exact (rest a moment between).trans before

theorem Silent.tryCatch {f : PlaneFault → Call σ α} (first : c.Silent) (rest : ∀ fault, (f fault).Silent) :
    (tryCatch c f).Silent := fun moment session => by
  rw [exec_tryCatch]
  have before := first moment session
  generalize c.exec moment session = ran at before
  rcases ran with ⟨fault | a, between⟩
  · exact (rest fault moment between).trans before
  · exact before

theorem Silent.forM {g : β → Call σ Unit} (each : ∀ b, (g b).Silent) : ∀ l : List β, (l.forM g).Silent
  | [] => fun _ _ => rfl
  | b :: rest => (each b).bind fun _ => Silent.forM each rest

end

theorem silent_pure (a : α) : (pure a : Call σ α).Silent := fun _ _ => rfl

theorem silent_throw (fault : PlaneFault) : (throw fault : Call σ α).Silent := fun _ _ => rfl

theorem silent_plane : (plane : Call σ (Plane σ)).Silent := fun _ _ => rfl

theorem silent_setPlane (change : Plane σ → Plane σ) : (setPlane change).Silent := fun _ _ => rfl

theorem silent_read : (read : Call σ Moment).Silent := fun _ _ => rfl

theorem silent_wallNow : (wallNow : Call σ Instant).Silent := fun _ _ => rfl

theorem silent_affect {effects : Effects} (none : effects.refusals = []) : (affect effects : Call σ Unit).Silent :=
  fun _ session => by
    change (session.effects.and effects).refusals = _
    rw [Effects.refusals_and, none, List.append_nil]

theorem silent_report {event : AuditEvent} (other : event.isRefusal = false) : (report event : Call σ Unit).Silent := by
  refine silent_affect (List.filter_eq_nil_iff.mpr fun reported member => ?_)
  rw [List.mem_singleton.mp member, other]
  exact Bool.false_ne_true

theorem silent_orInvalid : ∀ r : Except ValidationFault α, (orInvalid r : Call σ α).Silent
  | .ok a => silent_pure a
  | .error _ => silent_throw _

theorem silent_orMisconfigured : ∀ r : Except ConfigurationFault α, (orMisconfigured r : Call σ α).Silent
  | .ok a => silent_pure a
  | .error _ => silent_throw _

theorem silent_requireUnused (rules : List TransportRule) (pattern : String) (except : Option Nat) :
    (requireUnused rules pattern except : Call σ Unit).Silent := by
  unfold requireUnused
  split
  · exact silent_throw _
  · exact silent_pure _

theorem silent_publishSnapshot (next : Snapshot) : (publishSnapshot next : Call σ Nat).Silent :=
  silent_plane.bind fun _ => (silent_setPlane _).bind fun _ => silent_pure _

theorem silent_configurePool (matcher : Matcher) : (configurePool matcher : Call σ Unit).Silent := by
  refine silent_read.bind fun moment => Silent.bind (Silent.forM (fun entry => ?_) _) fun _ => silent_setPlane _
  refine silent_plane.bind fun p => (silent_setPlane _).bind fun _ => ?_
  exact silent_affect (Pool.refusals_configure _ _ _ _)

theorem silent_degrade (fault : PlaneFault) : (degrade fault : Call σ Unit).Silent :=
  silent_plane.bind fun _ => (silent_publishSnapshot _).bind fun _ => silent_report rfl

theorem Silent.orDegrade {c : Call σ α} (silent : c.Silent) : (orDegrade c).Silent :=
  silent.tryCatch fun _ => (silent_degrade _).bind fun _ => silent_throw _

theorem silent_releaseLease (transport : TransportName) (lease : Nat) :
    (releaseLease transport lease : Call σ ReleaseOutcome).Silent := by
  refine silent_plane.bind fun _ => silent_read.bind fun _ => (silent_setPlane _).bind fun _ => ?_
  exact (silent_affect (Pool.refusals_release _ _ _ _)).bind fun _ => silent_pure _

theorem silent_reclaimLeases : (reclaimLeases : Call σ (List Admission.LeaseTicket)).Silent := by
  refine silent_plane.bind fun _ => silent_read.bind fun _ => (silent_setPlane _).bind fun _ => ?_
  exact (silent_affect (Pool.refusals_reclaim _ _ _)).bind fun _ => silent_pure _

theorem silent_warmupStatus : (warmupStatus : Call σ WarmupStatus).Silent :=
  silent_plane.bind fun _ => (silent_orMisconfigured _).bind fun _ => silent_wallNow.bind fun _ => silent_pure _

section

variable [ThrottleStore σ]

theorem silent_ask (s : StoreCall α) : (ask s : Call σ α).Silent := fun _ _ => by rw [exec_ask]

theorem silent_askUnique (pattern : String) (s : StoreCall α) : (askUnique pattern s : Call σ α).Silent := by
  refine (silent_ask s).tryCatch fun fault => ?_
  split
  · exact silent_throw _
  · exact silent_throw _

theorem silent_loadOrSeed : (loadOrSeed : Call σ WarmupConfig).Silent := by
  have config : (seedConfig : Call σ WarmupConfig).Silent :=
    silent_wallNow.bind fun _ => (silent_ask _).bind fun _ => silent_pure _
  have rules (settings : EngineSettings) : (seedRules settings : Call σ WarmupConfig).Silent := by
    unfold seedRules
    split
    · refine (silent_ask _).bind fun _ => ?_
      split
      · refine Silent.bind (Silent.forM (fun draft => ?_) _) fun _ => config
        exact (silent_orInvalid _).bind fun _ => (silent_ask _).bind fun _ => silent_pure _
      · exact config
    · exact config
  rw [loadOrSeed_eq]
  refine (silent_ask _).bind fun found => ?_
  cases found with
  | some stored => exact (silent_orInvalid _).bind fun _ => silent_pure _
  | none =>
    refine silent_plane.bind fun p => ?_
    dsimp only
    split
    · refine (silent_ask _).bind fun _ => ?_
      split
      · exact (silent_ask _).bind fun _ => rules _
      · exact rules _
    · exact rules _

theorem silent_refresh : (refresh : Call σ Nat).Silent := by
  refine (silent_ask _).bind fun found => ?_
  split
  · refine (silent_ask _).bind fun _ => (silent_ask _).bind fun _ => silent_plane.bind fun _ => ?_
    refine (silent_orInvalid _).bind fun matcher => ?_
    exact (silent_configurePool matcher).bind fun _ => silent_publishSnapshot _
  · exact silent_throw _

theorem silent_publish : (publish : Call σ Nat).Silent := silent_refresh.orDegrade

theorem silent_reload : (reload : Call σ Nat).Silent := (silent_loadOrSeed.bind fun _ => silent_refresh).orDegrade

theorem silent_load : (load : Call σ Unit).Silent := by
  refine Silent.tryCatch ?_ fun _ => silent_degrade _
  refine silent_loadOrSeed.bind fun _ => (silent_ask _).bind fun _ => ?_
  refine silent_wallNow.bind fun _ => (silent_setPlane _).bind fun _ => ?_
  exact silent_refresh.bind fun _ => silent_pure _

theorem silent_persistCounters : (persistCounters : Call σ Unit).Silent := by
  refine silent_wallNow.bind fun _ => (silent_setPlane _).bind fun _ => silent_plane.bind fun _ => ?_
  refine (silent_ask _).tryCatch fun fault => (silent_report rfl).bind fun _ => silent_plane.bind fun _ => ?_
  dsimp only
  split
  · exact (silent_degrade _).bind fun _ => silent_throw _
  · exact silent_throw _

theorem silent_storedTable : (storedTable : Call σ PhaseTable).Silent := by
  refine (silent_ask _).bind fun phases => ?_
  split
  · exact silent_pure _
  · exact silent_throw _

theorem silent_updateConfig (update : ConfigUpdate) : (updateConfig update : Call σ WarmupConfig).Silent := by
  refine silent_loadOrSeed.bind fun before => (silent_orInvalid _).bind fun config => (silent_ask _).bind fun _ => ?_
  refine silent_publish.bind fun _ => (silent_report rfl).bind fun _ => ?_
  dsimp only
  split
  · refine Silent.bind (silent_report ?_) fun _ => silent_pure _
    split
    · rfl
    · rfl
  · exact silent_pure _

theorem silent_restart (config : WarmupConfig) (table : PhaseTable) {event : AuditEvent}
    (other : event.isRefusal = false) : (restart config table event : Call σ WarmupStatus).Silent := by
  refine (silent_ask _).bind fun _ => silent_publish.bind fun _ => ?_
  exact (silent_report other).bind fun _ => silent_wallNow.bind fun _ => silent_pure _

theorem silent_setPhase (number : Nat) : (setPhase number : Call σ WarmupStatus).Silent := by
  refine silent_loadOrSeed.bind fun _ => silent_storedTable.bind fun _ => ?_
  exact silent_wallNow.bind fun _ => (silent_orInvalid _).bind fun _ => silent_restart _ _ rfl

theorem silent_resetWarmup : (resetWarmup : Call σ WarmupStatus).Silent :=
  silent_loadOrSeed.bind fun _ => silent_storedTable.bind fun _ => silent_wallNow.bind fun _ => silent_restart _ _ rfl

theorem silent_replacePhases (phases : List WarmupPhase) :
    (replacePhases phases : Call σ (List WarmupPhase)).Silent := by
  refine (silent_orInvalid _).bind fun _ => (silent_ask _).bind fun _ => ?_
  exact silent_publish.bind fun _ => (silent_report rfl).bind fun _ => silent_pure _

theorem silent_updatePhase (number : Nat) (patch : PhasePatch) : (updatePhase number patch : Call σ WarmupPhase).Silent := by
  refine silent_storedTable.bind fun _ => (silent_orInvalid _).bind fun _ => (silent_ask _).bind fun _ => ?_
  refine silent_publish.bind fun _ => (silent_report rfl).bind fun _ => ?_
  split
  · exact silent_pure _
  · exact silent_throw _

theorem silent_createRule (draft : RuleDraft) : (createRule draft : Call σ TransportRule).Silent := by
  refine (silent_orInvalid _).bind fun _ => (silent_ask _).bind fun _ => ?_
  refine (silent_requireUnused _ _ _).bind fun _ => (silent_askUnique _ _).bind fun _ => ?_
  exact silent_publish.bind fun _ => (silent_report rfl).bind fun _ => silent_pure _

theorem silent_updateRule (id : Nat) (patch : RulePatch) : (updateRule id patch : Call σ TransportRule).Silent := by
  refine (silent_ask _).bind fun rules => ?_
  split
  · refine (silent_orInvalid _).bind fun _ => (silent_requireUnused _ _ _).bind fun _ =>
      (silent_askUnique _ _).bind fun found => ?_
    dsimp only
    split
    · exact (silent_throw _).bind fun _ => silent_publish.bind fun _ => (silent_report rfl).bind fun _ => silent_pure _
    · exact silent_publish.bind fun _ => (silent_report rfl).bind fun _ => silent_pure _
  · exact silent_throw _

theorem silent_deleteRule (id : Nat) : (deleteRule id : Call σ Unit).Silent := by
  refine (silent_ask _).bind fun found => ?_
  dsimp only
  split
  · exact (silent_throw _).bind fun _ => silent_publish.bind fun _ => silent_report rfl
  · exact silent_publish.bind fun _ => silent_report rfl

end

end Call

section

variable [ThrottleStore σ]

/-- What a command does beyond its result and the plane afterwards. -/
def Command.effects (moment : Moment) (p : Plane σ) (command : Command) : Effects := (command.call.2.run moment p).2.2

theorem Command.silent (command : Command) : (command.call : (α : Type) × Call σ α).2.Silent := by
  cases command with
  | getConfig => exact Call.silent_loadOrSeed
  | updateConfig update => exact Call.silent_updateConfig update
  | warmupStatus => exact Call.silent_warmupStatus
  | setPhase number => exact Call.silent_setPhase number
  | resetWarmup => exact Call.silent_resetWarmup
  | listPhases | transportMap | serviceBlock => exact (Call.silent_ask _).bind fun _ => Call.silent_pure _
  | replacePhases phases => exact Call.silent_replacePhases phases
  | updatePhase number patch => exact Call.silent_updatePhase number patch
  | listRules => exact Call.silent_ask _
  | createRule draft => exact Call.silent_createRule draft
  | updateRule id patch => exact Call.silent_updateRule id patch
  | deleteRule id => exact Call.silent_deleteRule id
  | releaseLease transport lease => exact Call.silent_releaseLease transport lease
  | reclaimLeases => exact Call.silent_reclaimLeases
  | persistCounters => exact Call.silent_persistCounters
  | reload => exact Call.silent_reload

end

end RelayRamp.Plane
