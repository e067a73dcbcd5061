import RelayRamp.Proofs.Lease.Setup
import RelayRamp.Proofs.Plane.Coherence

/-!
# Publishing and the pool

The pool follows the snapshot: whoever publishes a rebuilt one has given the transports of its matcher their limits, and
has swept the pool, just before. A call that fails on the way there has not touched the pool, and publishing a degraded
copy does not either.
-/
namespace RelayRamp.Plane

open RelayRamp.Lease RelayRamp.Routing RelayRamp.Store RelayRamp.Warmup

variable {σ : Type}

/-- Neither the snapshot nor the pool changes. -/
structure Rests (p q : Plane σ) : Prop where
  snapshot : q.snapshot = p.snapshot
  pool : q.pool = p.pool

/-- The snapshot is degraded, and the pool as it was. -/
structure Dimmed (p q : Plane σ) : Prop where
  degraded : q.snapshot.degraded = true
  pool : q.pool = p.pool

/-- A rebuilt snapshot was published, after the pool was rerouted by its matcher. -/
structure Rerouted (moment : Moment) (p q : Plane σ) : Prop where
  refreshed : q.snapshot.degraded = false
  version : q.snapshot.version = p.snapshot.version + 1
  complete : q.snapshot.matcher.Complete
  pool : q.pool = p.pool.reroute q.snapshot.matcher.transports moment.tick

/-- The snapshot was rebuilt; a call that failed has changed neither it nor the pool. -/
def Reroutes {α : Type} (moment : Moment) (p : Plane σ) (answer : Except PlaneFault α) (q : Plane σ) : Prop :=
  match answer with
  | .ok _ => Rerouted moment p q
  | .error _ => Rests p q

/-- The snapshot does not change, nor how any transport is set up. -/
structure Kept (p q : Plane σ) : Prop where
  snapshot : q.snapshot = p.snapshot
  steady : p.pool.Steady q.pool

/-- What a command does to the snapshot and the pool. -/
inductive Steers (moment : Moment) (p q : Plane σ) : Prop
  | kept (kept : Kept p q)
  | dimmed (dimmed : Dimmed p q)
  | rerouted (rerouted : Rerouted moment p q)

/-- Unless the snapshot is degraded, whatever its matcher lists is in the pool. -/
def Served (p : Plane σ) : Prop :=
  p.snapshot.degraded = false → p.snapshot.matcher.Complete ∧
    ∀ name, p.snapshot.matcher.transports.Lists name → (p.pool.find? name).isSome = true

variable {moment : Moment} {p q r : Plane σ} {α : Type}

theorem Snapshot.table_error {s : Snapshot} {fault : ConfigurationFault} (unusable : s.table = .error fault) :
    ∃ message, fault = .inconsistentPhaseTable message := by
  unfold Snapshot.table at unusable
  cases phases : s.phases with
  | ok table =>
    rw [phases] at unusable
    cases unusable
  | error cause =>
    rw [phases] at unusable
    cases unusable
    exact ⟨_, rfl⟩

theorem Rests.trans (first : Rests p q) (rest : Rests q r) : Rests p r :=
  ⟨rest.snapshot.trans first.snapshot, rest.pool.trans first.pool⟩

instance : IsPreorder (Plane σ) Rests where
  refl _ := ⟨rfl, rfl⟩
  trans _ _ _ := Rests.trans

theorem kept_same (p : Plane σ) : Kept p p := ⟨rfl, Std.Refl.refl p.pool⟩

theorem Rests.steers (rests : Rests p q) : Steers moment p q :=
  .kept ⟨rests.snapshot, Pool.steady_same rests.pool⟩

theorem Rests.dimmed (rests : Rests p q) (dimmed : Dimmed q r) : Dimmed p r :=
  ⟨dimmed.degraded, dimmed.pool.trans rests.pool⟩

theorem Rests.rerouted (rests : Rests p q) (rerouted : Rerouted moment q r) : Rerouted moment p r where
  refreshed := rerouted.refreshed
  version := by rw [rerouted.version, rests.snapshot]
  complete := rerouted.complete
  pool := by rw [rerouted.pool, rests.pool]

theorem Rests.reroutes {answer : Except PlaneFault α} (rests : Rests p q) (reroutes : Reroutes moment q answer r) :
    Reroutes moment p answer r := by
  cases answer with
  | ok _ => exact rests.rerouted reroutes
  | error _ => exact rests.trans reroutes

/-! ### What the calls do -/

/-- Giving limits to the transports of a roster always succeeds. -/
theorem configureEach_leads (roster : Roster TransportLimits) (p : Plane σ) :
    (roster.forM fun (name, limits) => do
      let (pool, effects) := (← plane).pool.configure name limits moment.tick
      setPlane ({ · with pool })
      affect effects : Call σ Unit).Leads moment p fun answer q =>
        answer = .ok () ∧ q = { p with pool := p.pool.configureAll roster moment.tick } := by
  induction roster generalizing p with
  | nil => exact Call.leads_pure ⟨rfl, rfl⟩
  | cons entry rest ih =>
    refine Call.Leads.bind
      (Q := fun answer q => answer = .ok () ∧
        q = { p with pool := (p.pool.configure entry.1 entry.2 moment.tick).1 })
      (Call.leads_plane_bind (Call.leads_setPlane_bind fun _ => ⟨rfl, rfl⟩)) (fun _ q reached => ?_)
      fun _ _ impossible => nomatch impossible.1
    cases reached.2
    exact ih _

theorem configurePool_leads (matcher : Matcher) (p : Plane σ) :
    (configurePool matcher).Leads moment p fun answer q =>
      answer = .ok () ∧ q = { p with pool := p.pool.reroute matcher.transports moment.tick } := by
  refine Call.leads_read_bind ((configureEach_leads matcher.transports p).bind (fun _ q reached => ?_)
    fun _ _ impossible => nomatch impossible.1)
  cases reached.2
  exact fun _ => ⟨rfl, rfl⟩

theorem degrade_dims (fault : PlaneFault) (p : Plane σ) :
    (degrade fault).Leads moment p fun _ q => Dimmed p q :=
  Call.leads_plane_bind (Call.Leads.bind (Q := fun _ q => Dimmed p q) (Call.leads_publishSnapshot ⟨rfl, rfl⟩)
    (fun _ _ dimmed => (Call.idle_report _ _ _).mono fun _ _ same => same ▸ dimmed) fun _ _ => id)

/-- A call that rebuilds the snapshot, or else degrades it. -/
theorem orDegrade_steers {c : Call σ α} (rebuilds : c.Leads moment p (Reroutes moment p)) :
    (orDegrade c).Leads moment p fun _ q => Dimmed p q ∨ Rerouted moment p q := by
  refine rebuilds.tryCatch (fun _ _ => Or.inr) fun fault q rests => ?_
  refine (degrade_dims fault q).bind (fun _ r dimmed => ?_) fun _ _ dimmed => Or.inl (rests.dimmed dimmed)
  exact Call.leads_throw (Or.inl (rests.dimmed dimmed))

variable [ThrottleStore σ]

theorem asked_rests {β : Type} (p : Plane σ) (s : StoreCall β) : Rests p (p.asked s) := ⟨rfl, rfl⟩

theorem asks_rests : Call.Asks (Rests : Plane σ → Plane σ → Prop) := fun p _ s _ => asked_rests p s

/-- Either the pool is rerouted and then the snapshot published, or neither. -/
theorem refresh_reroutes (p : Plane σ) : (refresh : Call σ Nat).Leads moment p (Reroutes moment p) := by
  refine (Call.ask_keeps asks_rests .loadConfig trivial p).bind (fun found q₁ one => ?_) fun _ _ => id
  split
  · refine (Call.ask_keeps asks_rests .loadPhases trivial q₁).bind (fun phases q₂ two => ?_) fun _ _ => one.trans
    refine (Call.ask_keeps asks_rests .listRules trivial q₂).bind (fun rules q₃ three => ?_)
      fun _ _ three => (one.trans two).trans three
    have rests : Rests p q₃ := (one.trans two).trans three
    -- Up to the matcher anything may fail, and nothing has been touched; after it nothing fails.
    refine Call.leads_plane_bind (Call.leads_orInvalid_bind (fun matcher built => ?_) fun _ _ => rests)
    refine (configurePool_leads matcher q₃).bind (fun _ q₄ reached => ?_) fun _ _ impossible => nomatch impossible.1
    cases reached.2
    exact Call.leads_publishSnapshot (rests.rerouted ⟨rfl, rfl, Matcher.build_complete built, rfl⟩)
  · exact Call.leads_throw one

theorem publish_steers (reaches : publish.Reaches moment p q) : Dimmed p q ∨ Rerouted moment p q :=
  let ⟨_, steered⟩ := (orDegrade_steers (refresh_reroutes p)).reached reaches
  steered

theorem reload_steers (reaches : reload.Reaches moment p q) : Dimmed p q ∨ Rerouted moment p q := by
  have reseeds : (do let _ ← loadOrSeed; refresh : Call σ Nat).Leads moment p (Reroutes moment p) :=
    (Call.loadOrSeed_keeps asks_rests p).bind
      (fun _ q rests => (refresh_reroutes q).mono fun _ _ => rests.reroutes) fun _ _ => id
  obtain ⟨_, steered⟩ := (orDegrade_steers reseeds).reached reaches
  exact steered

/-- Loading reroutes the pool of a blank plane and publishes the first snapshot, or it degrades the one before any. -/
theorem load_steers (reaches : load.Reaches moment p q) : Dimmed p q ∨ Rerouted moment p q := by
  have leads : (load : Call σ Unit).Leads moment p fun _ q => Dimmed p q ∨ Rerouted moment p q := by
    refine Call.Leads.tryCatch (Q := Reroutes moment p) ?_ (fun _ _ => Or.inr) fun fault q rests =>
      (degrade_dims fault q).mono fun _ _ dimmed => Or.inl (rests.dimmed dimmed)
    refine (Call.loadOrSeed_keeps asks_rests p).bind (fun _ q one => ?_) fun _ _ => id
    refine (Call.ask_keeps asks_rests .loadCounters trivial q).bind (fun buckets r two => ?_) fun _ _ => one.trans
    refine Call.leads_wallNow_bind (Call.leads_setPlane_bind ?_)
    have rests : Rests p { r with counters := r.counters.restore buckets moment.wall } :=
      (one.trans two).trans ⟨rfl, rfl⟩
    exact (refresh_reroutes _).bind (fun _ _ rerouted => Call.leads_pure (rests.rerouted rerouted))
      fun _ _ => rests.trans
  obtain ⟨_, steered⟩ := leads.reached reaches
  exact steered

/-! ### What commands do -/

theorem Reads.rests (reads : Reads moment p q) : Rests p q := by
  induction reads with
  | none => exact ⟨rfl, rfl⟩
  | asked s _ _ ih => exact ih.trans (asked_rests _ s)
  | seeded _ reaches ih => exact ih.trans ((Call.loadOrSeed_keeps asks_rests).reached reaches)

theorem Performs.steers (performs : Performs moment p q) : Steers moment p q := by
  cases performs with
  | read reads => exact reads.rests.steers
  | refused s _ _ reads => exact (reads.rests.trans (asked_rests _ s)).steers
  | published s _ reads reaches =>
    have rests := reads.rests.trans (asked_rests _ s)
    rcases publish_steers reaches with dimmed | rerouted
    · exact .dimmed (rests.dimmed dimmed)
    · exact .rerouted (rests.rerouted rerouted)

theorem persistCounters_steers (reaches : persistCounters.Reaches moment p q) : Steers moment p q := by
  have leads : (persistCounters : Call σ Unit).Leads moment p fun _ q => Steers moment p q := by
    refine Call.leads_wallNow_bind (Call.leads_setPlane_bind (Call.leads_plane_bind ?_))
    have one : Rests p { p with counters := p.counters.rolled moment.wall } := ⟨rfl, rfl⟩
    refine Call.Leads.tryCatch (Q := fun _ q => Rests p q) (Call.leads_ask (one.trans ⟨rfl, rfl⟩))
      (fun _ _ rests => rests.steers) fun fault q rests => ?_
    refine Call.leads_affect_bind (Call.leads_plane_bind ?_)
    dsimp only
    split
    · refine (degrade_dims fault q).bind (fun _ _ dimmed => ?_) fun _ _ dimmed => .dimmed (rests.dimmed dimmed)
      exact Call.leads_throw (.dimmed (rests.dimmed dimmed))
    · exact Call.leads_throw rests.steers
  obtain ⟨_, steered⟩ := leads.reached reaches
  exact steered

/-- A command leaves the snapshot and how the transports are set up, or degrades the snapshot and leaves the pool, or
reroutes the pool and publishes. -/
theorem Command.steers (moment : Moment) (p : Plane σ) (command : Command) :
    Steers moment p (command.perform moment p) := by
  rcases command.perform_cases moment p with performs | ⟨-, reaches⟩ | ⟨-, reaches⟩ |
    ⟨transport, lease, -, released⟩ | ⟨-, reclaimed⟩
  · exact performs.steers
  · exact (reload_steers reaches).elim .dimmed .rerouted
  · exact persistCounters_steers reaches
  · rw [released]
    exact .kept ⟨rfl, Pool.steady_release p.pool transport lease moment.tick⟩
  · rw [reclaimed]
    exact .kept ⟨rfl, Pool.steady_reclaim p.pool p.settings.maxDelivery moment.tick⟩

end RelayRamp.Plane
