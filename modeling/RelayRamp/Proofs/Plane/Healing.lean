import RelayRamp.Proofs.Plane.Rejection
import RelayRamp.Proofs.Plane.Validity
import RelayRamp.Proofs.Plane.Watch

/-!
# A tick that heals

Nothing but the store makes a degraded plane stay so. Where only planes have written, the stored configuration is valid
and so are the stored rules and the drafts of the seed: if no call to the store fails, loading or seeding ends with a
configuration, the matcher is built, and the snapshot is published and not degraded. The counters are written then.
-/
namespace RelayRamp.Store.Backing

theorem configured_eq (s : Backing) : s.configured = s.stored?.isSome := by
  cases s with
  | memory | durable => exact (Option.isSome_map ..).symm

theorem Loads.configured {s : Backing} {config : Warmup.WarmupConfig} (loads : s.Loads config) :
    s.configured = true := by
  have read := loadConfig_read loads
  obtain ⟨e, stored, -⟩ := Option.map_eq_some_iff.mp read
  rw [configured_eq, stored]
  rfl

theorem Saves.configured {s t : Backing} {config : Warmup.WarmupConfig} (saved : s.Saves config t) :
    t.configured = true := by
  cases s with
  | memory store =>
    rw [saved.memory]
    rfl
  | durable store =>
    cases saved
    rfl

end RelayRamp.Store.Backing

namespace RelayRamp.Plane

open RelayRamp.Lease RelayRamp.Routing RelayRamp.Store RelayRamp.Time RelayRamp.Warmup

variable {σ α : Type} {moment : Moment}

/-- A matcher can be built from what is stored, and what can be read as the configuration is valid. -/
structure Mendable (p : Plane (PlannedStore Backing)) : Prop extends Routable p where
  valid : p.store.inner.Valid

namespace Call

/-! ### Calls that do not ask the store -/

section

variable {P : Plane σ → Prop} {Q : α → Plane σ → Prop}

theorem watched_publishSnapshot (next : Snapshot) {Q : Nat → Plane σ → Prop}
    (holds : ∀ p, P p → Q (p.snapshot.version + 1)
      { p with snapshot := { next with version := p.snapshot.version + 1 } }) :
    Watched moment P (publishSnapshot next) (publishSnapshot next) Q := by
  refine watched_plane_bind fun p n => ?_
  refine Watched.bind (Q := fun _ q => Q (p.snapshot.version + 1) q)
    (watched_setPlane (fun _ _ => rfl) ?_) fun _ => watched_pure fun _ => id
  rintro q ⟨begun, rfl⟩
  exact holds q begun

theorem watched_configurePool (matcher : Matcher) :
    Watched moment (fun _ : Plane σ => True) (configurePool matcher) (configurePool matcher) fun _ _ => True := by
  refine watched_read_bind (Watched.bind (Q := fun _ _ => True) (watched_forM _ fun entry _ => ?_) fun _ => ?_)
  · refine watched_plane_bind fun p n => ?_
    exact Watched.bind (Q := fun _ _ => True) (watched_setPlane (fun _ _ => rfl) fun _ _ => trivial) fun _ =>
      watched_affect _
  · exact watched_setPlane (fun _ _ => rfl) fun _ _ => trivial

theorem watched_degrade (fault : PlaneFault) :
    Watched moment (fun _ : Plane σ => True) (degrade fault) (degrade fault) fun _ _ => True := by
  refine watched_plane_bind fun p n => ?_
  exact Watched.bind (Q := fun _ _ => True) (watched_publishSnapshot _ fun _ _ => trivial) fun _ => watched_affect _

theorem watched_orDegrade {c : Call (WatchedStore σ) α} {d : Call σ α} (watched : Watched moment P c d Q) :
    Watched moment P (orDegrade c) (orDegrade d) Q :=
  watched.tryCatch fun fault => (watched_degrade fault).hopeless.bind fun _ => watched_throw fault fun _ => id

/-- Counters are written unless the store fails; the snapshot stays. -/
theorem watched_persistCounters [ThrottleStore σ] {S : Snapshot → Prop} :
    Watched moment (fun p : Plane σ => S p.snapshot) persistCounters persistCounters fun _ q => S q.snapshot := by
  refine watched_wallNow_bind (Watched.bind (Q := fun _ q => S q.snapshot)
    (watched_setPlane (fun _ _ => rfl) fun _ => id) fun _ => watched_plane_bind fun p n => ?_)
  refine Watched.tryCatch (watched_ask _ fun _ _ begun _ => begun.1) fun fault => ?_
  refine (watched_affect _).bind fun _ => watched_plane_bind fun q m => ?_
  -- The handler is made only where the store has failed.
  refine Watched.mono (P := fun _ => False) ?_ (fun _ => And.left) fun _ _ => id
  refine watched_ite (fun _ => ?_) fun _ => watched_throw fault fun _ => id
  exact (watched_degrade fault).hopeless.bind fun _ => watched_throw fault fun _ => id

end

/-! ### Loading, rebuilding, reloading -/

theorem watched_planned {s : StoreCall α} {P : Plane (PlannedStore Backing) → Prop}
    {Q : α → Plane (PlannedStore Backing) → Prop}
    (answered : ∀ p a, P p → (p.store.inner.call s).1 = .ok a →
      (p.asked s).store.inner = (p.store.inner.call s).2 → Q a (p.asked s)) :
    Watched moment P (ask s) (ask s) Q := by
  refine watched_ask s fun p a begun ok => ?_
  rcases p.store.call_cases s with ⟨fault, failed, -⟩ | ⟨answer, passed⟩
  · exact nomatch failed.symm.trans ok
  · exact answered p a begun (answer.symm.trans ok) passed

/-- What is asked for and not refused leaves a plane whose matcher can be rebuilt. -/
theorem watched_routable {s : StoreCall α} (vetted : s.Vetted) :
    Watched moment Routable (ask s) (ask s) fun _ => Routable :=
  watched_ask s fun _ _ begun _ => begun.asked s fun _ => vetted

theorem watched_seedConfig : Watched moment Routable seedConfig seedConfig fun _ => Ready := by
  refine watched_wallNow_bind (Watched.bind (Q := fun _ => Ready) (watched_planned fun p a begun answer inner => ?_)
    fun _ => watched_pure fun _ => id)
  refine ⟨begun.asked (.saveConfig _) fun _ => trivial, ?_⟩
  rw [inner]
  exact Backing.Saves.configured (Prod.ext answer rfl)

/-- Every draft of the seed is valid, so only the store can refuse it. -/
theorem watched_seedRules (settings : EngineSettings) :
    Watched moment Routable (seedRules settings) (seedRules settings) fun _ => Ready := by
  refine watched_ite (fun _ => ?_) fun _ => watched_seedConfig
  refine (watched_routable (s := .listRules) trivial).bind fun rules => ?_
  refine watched_ite (fun _ => Watched.bind (watched_forM _ fun draft member => ?_) fun _ => watched_seedConfig)
    fun _ => watched_seedConfig
  obtain ⟨pattern, valid⟩ := Seed.rules_validated member
  rw [valid]
  refine Watched.bind (Q := fun validated q => validated = (pattern, draft) ∧ Routable q)
    (watched_orInvalid fun _ begun => ⟨_, rfl, rfl, begun⟩) fun validated => ?_
  refine Watched.bind (Q := fun _ => Routable) (watched_ask _ ?_) fun _ => watched_pure fun _ => id
  rintro p rule ⟨rfl, begun⟩ -
  exact begun.asked (.insertRule draft) fun _ => ⟨draft, pattern, valid⟩

/-- A configuration is found or written. -/
theorem watched_loadOrSeed : Watched moment Mendable loadOrSeed loadOrSeed fun _ => Ready := by
  rw [loadOrSeed_eq, loadOrSeed_eq]
  refine Watched.bind (Q := fun found q => Routable q ∧ ∀ config, found = some config →
    config.validate = .ok () ∧ q.store.inner.configured = true) (watched_planned fun p found begun answer inner => ?_)
    fun found => ?_
  · refine ⟨begun.asked .loadConfig fun _ => trivial, ?_⟩
    rintro config rfl
    have same : (p.store.inner.call .loadConfig).2 = p.store.inner := Backing.call_vain fun _ _ => Or.inl rfl
    rw [inner, same]
    exact ⟨begun.valid.loaded answer, Backing.Loads.configured answer⟩
  · cases found with
    | some config =>
      refine Watched.bind (Q := fun _ => Ready) (watched_orInvalid fun q begun => ?_) fun _ => watched_pure fun _ => id
      obtain ⟨valid, configured⟩ := begun.2 config rfl
      exact ⟨(), valid, begun.1, configured⟩
    | none =>
      refine watched_plane_bind fun p n => ?_
      refine Watched.mono (P := Routable) ?_ (fun _ begun => begun.1.1) fun _ _ => id
      refine watched_ite (fun _ => ?_) fun _ => watched_seedRules _
      refine (watched_routable (s := .loadPhases) trivial).bind fun phases => ?_
      refine watched_ite (fun _ => ?_) fun _ => watched_seedRules _
      exact (watched_routable (s := .replacePhases Seed.phases) trivial).bind fun _ => watched_seedRules _

/-- Once a configuration is stored, the snapshot is rebuilt. -/
theorem watched_refresh : Watched moment Ready refresh refresh fun _ q => q.snapshot.degraded = false := by
  refine Watched.bind (Q := fun found q => found.isSome = true ∧ Routable q)
    (watched_planned fun p found begun answer _ => ⟨Backing.configured_found begun.configured answer,
      begun.asked .loadConfig fun _ => trivial⟩) fun found => ?_
  cases found with
  | none => exact watched_throw _ fun _ begun => nomatch begun.1
  | some config =>
    refine Watched.mono (P := Routable) ?_ (fun _ => And.right) fun _ _ => id
    refine (watched_routable (s := .loadPhases) trivial).bind fun phases => ?_
    refine Watched.bind (Q := fun rules q => ∃ matcher,
      Matcher.build rules q.settings.defaultTransport = .ok matcher) (watched_planned fun p rules begun answer _ =>
        Matcher.build_ok (fun rule member => begun.rules.listed answer member) begun.fallback) fun rules => ?_
    refine watched_plane_bind fun p n => Watched.bind (Q := fun _ _ => True) (watched_orInvalid ?_) fun matcher =>
      (watched_configurePool matcher).bind fun _ => watched_publishSnapshot _ fun _ _ => rfl
    rintro q ⟨⟨matcher, built⟩, rfl⟩
    exact ⟨matcher, built, trivial⟩

theorem watched_reload : Watched moment Mendable reload reload fun _ q => q.snapshot.degraded = false :=
  watched_orDegrade (watched_loadOrSeed.bind fun _ => watched_refresh)

/-- Unless the store fails, a tick ends well, and the snapshot is not degraded then. -/
theorem watched_persistTick :
    Watched moment Mendable Maintenance.persistTick Maintenance.persistTick fun _ q => q.snapshot.degraded = false := by
  refine watched_plane_bind fun p n => ?_
  have persists : Watched moment (fun q : Plane (PlannedStore Backing) => q.snapshot.degraded = false) persistCounters
      persistCounters fun _ q => q.snapshot.degraded = false :=
    watched_persistCounters (S := fun snapshot => snapshot.degraded = false)
  refine watched_ite (fun _ => ?_) fun sound => ?_
  · exact (watched_reload.mono (fun _ begun => begun.1) fun _ _ => id).bind fun _ => persists
  · refine persists.mono ?_ fun _ _ => id
    rintro q ⟨-, rfl⟩
    exact Bool.eq_false_iff.mpr sound

/-- What is told of a call under watch, of the call itself. -/
theorem Watched.unhindered {P : Plane σ → Prop} {Q : α → Plane σ → Prop} {c : Call (WatchedStore σ) α} {d : Call σ α}
    (watched : Watched moment P c d Q) {p : Plane σ} (begun : P p) (healthy : c.Unhindered moment p) :
    ∃ a q effects, d.run moment p = (.ok a, q, effects) ∧ Q a q := by
  obtain ⟨same, -, succeeds⟩ := watched p 0 .none
  obtain ⟨a, ok, holds⟩ := succeeds begun healthy
  rw [ok] at same
  refine ⟨a, _, (c.exec moment ⟨p.watched 0, .none⟩).2.effects, ?_, holds⟩
  change ((d.exec moment ⟨p, .none⟩).1, (d.exec moment ⟨p, .none⟩).2.plane, (d.exec moment ⟨p, .none⟩).2.effects) = _
  rw [same]

end Call

end RelayRamp.Plane
