import RelayRamp.Proofs.Admission.OperatorFaults
import RelayRamp.Proofs.Admission.Restart
import RelayRamp.Proofs.Admission.Transports
import RelayRamp.Proofs.Lease.Succession
import RelayRamp.Proofs.Plane.Healing

/-!
# Recovery from an outage

Calls to the store may fail in any number and at any time, from the opening of a plane on. A tick during which none
fails makes up for all of them: a degraded plane is reloaded, so that its snapshot shows what the store holds and its
pool is set up by the matcher, and the counters are written. Nothing else is lost: leases are kept.
-/
namespace RelayRamp.Plane

open RelayRamp.Store

variable {σ : Type} [ThrottleStore σ] {moment : Moment}

/-- A tick that ends well has reloaded a degraded plane, and then written the counters. -/
theorem persistTick_leads (p : Plane σ) : (Maintenance.persistTick : Call σ Unit).Leads moment p fun r q =>
    r = .ok () → ∃ mid, (mid = p ∧ p.snapshot.degraded = false ∨ reload.Reaches moment p mid) ∧
      (ThrottleStore.call (.saveCounters (mid.counters.rolled moment.wall).buckets) mid.store).1 = .ok () ∧
      q = ({ mid with counters := mid.counters.rolled moment.wall } : Plane σ).asked
        (.saveCounters (mid.counters.rolled moment.wall).buckets) := by
  refine Call.leads_plane_bind ?_
  dsimp only
  split
  · refine Call.Leads.bind (Q := fun _ mid => reload.Reaches moment p mid) (fun effects => ⟨effects, rfl⟩)
      (fun _ mid reaches => (persistCounters_leads mid).mono fun r q saved ok => ?_) fun _ _ _ => nofun
    exact ⟨mid, Or.inr reaches, saved ok⟩
  · rename_i sound
    exact (persistCounters_leads p).mono fun r q saved ok =>
      ⟨p, Or.inl ⟨rfl, Bool.eq_false_iff.mpr sound⟩, saved ok⟩

end RelayRamp.Plane

namespace RelayRamp.Admission

open RelayRamp.Lease RelayRamp.Plane RelayRamp.Routing RelayRamp.Store RelayRamp.Time RelayRamp.Warmup

/-! ### What holds of a service between ticks -/

namespace Service

section

variable {σ : Type} [ThrottleStore σ] {valid : σ → Prop} {contents : σ → Contents} (h : Faithful valid contents)

include h

theorem step_coherent {s : Service σ} (coherent : Coherent valid contents s.plane) (moment : Moment) (act : Act) :
    Coherent valid contents (s.step moment act).plane := by
  by_cases commands : ∃ command, act = .command command
  · obtain ⟨command, rfl⟩ := commands
    exact (command.publication h coherent moment).coherent coherent
  · have other (command : Command) (same : act = .command command) : False := commands ⟨command, same⟩
    have touches := s.step_touches moment other
    have kept := s.step_kept moment other
    refine ⟨touches.store ▸ coherent.valid, fun sound => ?_⟩
    rw [kept.snapshot] at sound
    rw [kept.snapshot, touches.store, touches.settings]
    exact coherent.shows sound

/-- Throughout a service a snapshot that is not degraded shows what is stored. -/
theorem run_coherent {store : σ} (sound : valid store) {settings : EngineSettings} {opening : Moment} {p : Plane σ}
    {effects : Effects} (launched : Plane.launch store settings opening = .ok (p, effects))
    (acts : List (Moment × Act)) : Coherent valid contents ((opened p).run acts).plane := by
  induction acts using List.reverseRecOn with
  | nil =>
    obtain ⟨blank, unloaded, rfl⟩ := of_launch launched
    obtain ⟨rfl, -, degraded⟩ := of_unloaded unloaded
    have nothing : Coherent valid contents blank := ⟨sound, fun refreshed => nomatch degraded.symm.trans refreshed⟩
    have published := load_publishes h sound (load.reaches_after opening blank)
    exact Publication.coherent nothing (published.elim .degraded .refreshed)
  | append_singleton acts last ih =>
    rw [run_append]
    exact step_coherent h ih last.1 last.2

end

/-- Throughout a service the stored configuration is valid. -/
theorem run_valid {s : Service (PlannedStore Backing)} (valid : s.plane.store.inner.Valid)
    (acts : List (Moment × Act)) : (s.run acts).plane.store.inner.Valid := by
  induction acts generalizing s with
  | nil => exact valid
  | cons entry rest ih =>
    refine ih (s := s.step entry.1 entry.2) ?_
    by_cases commands : ∃ command, entry.2 = .command command
    · obtain ⟨command, same⟩ := commands
      rw [same]
      exact command.valid valid entry.1
    · rw [(s.step_touches entry.1 fun command same => commands ⟨command, same⟩).store]
      exact valid

end Service

/-- The store began empty, and since then planes alone have served over it, one after another and none past the
instant; any of their calls may have failed. -/
inductive Tended (t : Instant) : Backing → Prop
  | memory : Tended t (.memory .empty)
  | durable : Tended t (.durable .empty)
  | served {store : Backing} {plan : List (Option StoreFault)} {settings : EngineSettings} {opening : Moment}
      {p : Plane (PlannedStore Backing)} {effects : Effects} {acts : List (Moment × Act)} :
      Tended t store → Plane.launch ⟨store, plan⟩ settings opening = .ok (p, effects) →
      (∀ wall ∈ Service.walls opening.wall acts, wall ≤ t) →
      Tended t ((Service.opened p).run acts).plane.store.inner

section

variable {t : Instant} {store : Backing} {plan : List (Option StoreFault)} {settings : EngineSettings}
  {opening : Moment} {p : Plane (PlannedStore Backing)} {effects : Effects}

theorem served_valid (valid : store.Valid) (launched : Plane.launch ⟨store, plan⟩ settings opening = .ok (p, effects))
    (acts : List (Moment × Act)) : ((Service.opened p).run acts).plane.store.inner.Valid := by
  obtain ⟨blank, unloaded, rfl⟩ := of_launch launched
  obtain ⟨same, -, -⟩ := of_unloaded unloaded
  refine Service.run_valid (load_valid ?_) acts
  rw [same]
  exact valid

theorem Tended.written (tended : Tended t store) : WrittenBy t store := by
  induction tended with
  | memory => exact .memory
  | durable => exact .durable
  | served _ launched before ih => exact ih.served launched before

theorem Tended.valid (tended : Tended t store) : store.Valid := by
  induction tended with
  | memory | durable => exact fun _ _ stored => nomatch stored
  | served _ launched _ ih => exact served_valid ih launched _

theorem Tended.mendable (tended : Tended t store)
    (launched : Plane.launch ⟨store, plan⟩ settings opening = .ok (p, effects)) (acts : List (Moment × Act)) :
    Mendable ((Service.opened p).run acts).plane :=
  ⟨tended.written.routable launched acts, served_valid tended.valid launched acts⟩

end

/-! ### What a tick leads to -/

/-- The second plane is in order: its snapshot is not degraded and shows what is stored, and its pool has the transports
of the matcher with their limits. A slot that is taken in the first plane is taken by the same lease or waiter in the
second. -/
structure Mended (p q : Plane (PlannedStore Backing)) : Prop where
  sound : q.snapshot.degraded = false
  shows : q.snapshot.Shows q.store.inner.contents q.settings.defaultTransport
  listed : ∀ name limits, q.snapshot.matcher.transports.get? name = some limits →
    ∃ g, q.pool.find? name = some g ∧ g.slot.capacity = limits.concurrency ∧ g.slot.rateDelay = limits.rateDelay
  leases : ∀ name g, p.pool.find? name = some g → g.slot.leases ≠ [] ∨ g.slot.handed ≠ [] →
    ∃ g', q.pool.find? name = some g' ∧ g'.number = g.number ∧ g.slot.Honours g'.slot

/-- The plane is in order, and the stored buckets are those of its counters for the hour and the day of the instant. -/
structure Healed (now : Instant) (p q : Plane (PlannedStore Backing)) : Prop extends Mended p q where
  stored : ∃ held, q.store.inner.Holds now held ∧ ∀ b, b ∈ held ↔ b ∈ q.counters.buckets
  current : ∀ kind, (q.counters.window kind).start = kind.start now

namespace Service

variable {store : Backing} {plan : List (Option StoreFault)} {settings : EngineSettings} {opening last : Moment}
  {p mid : Plane (PlannedStore Backing)} {effects : Effects}

theorem found_of_setup {pool : Pool} {name : TransportName} {limits : TransportLimits} {generation : Nat}
    (set : pool.setup? name = some ⟨generation, limits.concurrency, limits.rateDelay⟩) :
    ∃ g, pool.find? name = some g ∧ g.slot.capacity = limits.concurrency ∧ g.slot.rateDelay = limits.rateDelay := by
  obtain ⟨g, found, setup⟩ := Option.map_eq_some_iff.mp set
  exact ⟨g, found, congrArg Setup.capacity setup, congrArg Setup.rateDelay setup⟩

/-- Unless its snapshot is degraded, a plane that serves is in order. -/
theorem mended_already (launched : Plane.launch ⟨store, plan⟩ settings opening = .ok (p, effects))
    (acts : List (Moment × Act)) (sound : ((opened p).run acts).plane.snapshot.degraded = false) :
    Mended ((opened p).run acts).plane ((opened p).run acts).plane where
  sound := sound
  shows := (run_coherent (PlannedStore.faithful Backing.faithful) trivial launched acts).shows sound
  listed name limits present := by
    obtain ⟨before, after, -, -, -, swept, setups⟩ := (run_aligned launched acts).swept sound
    obtain ⟨generation, set⟩ := swept.listed name limits present
    exact found_of_setup ((setups name).trans set)
  leases name g found _ := ⟨g, found, rfl, Std.Refl.refl _⟩

/-- Slots with a lease or a claim are taken. -/
theorem run_taken (launched : Plane.launch ⟨store, plan⟩ settings opening = .ok (p, effects))
    (acts : List (Moment × Act)) {name : TransportName} {g : Generation}
    (found : ((opened p).run acts).plane.pool.find? name = some g)
    (used : g.slot.leases ≠ [] ∨ g.slot.handed ≠ []) : g.slot.occupied ≠ 0 := by
  obtain ⟨moves, holder, mirrors⟩ := run_mirrors launched acts
  have slot := Pool.slot?_of_find? (run_aligned launched acts).numbered found
  rw [← mirrors.pool] at slot
  have balance := ((Traffic.run_sound moves).slots _ _ slot).balance
  rcases used with leased | handed
  · have some_lease := List.length_pos_iff.mpr leased
    omega
  · have some_claim := List.length_pos_iff.mpr handed
    omega

/-- A plane that was reloaded and is not degraded is in order. -/
theorem mended_reloaded (launched : Plane.launch ⟨store, plan⟩ settings opening = .ok (p, effects))
    (acts : List (Moment × Act)) (reaches : reload.Reaches last ((opened p).run acts).plane mid)
    (sound : mid.snapshot.degraded = false) : Mended ((opened p).run acts).plane mid := by
  have h := PlannedStore.faithful Backing.faithful
  have numbered := (run_aligned launched acts).numbered
  have rerouted : Rerouted last ((opened p).run acts).plane mid :=
    (reload_steers reaches).resolve_left fun dimmed => nomatch dimmed.degraded.symm.trans sound
  have shows : mid.snapshot.Shows mid.store.inner.contents mid.settings.defaultTransport := by
    rcases reload_publishes h (run_coherent h trivial launched acts).valid reaches with degraded | refreshed
    · rw [degraded.snapshot] at sound
      cases sound
    · exact refreshed.shows
  refine ⟨sound, shows, fun name limits present => ?_, fun name g found used => ?_⟩
  · obtain ⟨generation, set⟩ :=
      (Pool.reroute_swept numbered rerouted.complete.nodup last.tick).2.listed name limits present
    rw [← rerouted.pool] at set
    exact found_of_setup set
  · rw [rerouted.pool]
    exact Pool.reroute_honours numbered found (run_taken launched acts found used) _ _

/-- To write the counters changes neither the snapshot nor the pool, and what was stored of windows that had begun
gives way to the buckets that are written. -/
theorem Mended.saved {s : Plane (PlannedStore Backing)} (mended : Mended s mid)
    (written : WrittenBy last.wall mid.store.inner) (begun : mid.counters.Begun last.wall)
    (answer : (ThrottleStore.call (.saveCounters (mid.counters.rolled last.wall).buckets) mid.store).1 = .ok ()) :
    Healed last.wall s (({ mid with counters := mid.counters.rolled last.wall } : Plane (PlannedStore Backing)).asked
      (.saveCounters (mid.counters.rolled last.wall).buckets)) := by
  have begun' := begun.advances (Int.le_refl _) (Counters.Advances.rolled mid.counters last.wall)
  rcases mid.store.call_cases (.saveCounters (mid.counters.rolled last.wall).buckets) with ⟨fault, failed, -⟩ |
    ⟨passed, inner⟩
  · exact nomatch failed.symm.trans answer
  · have answer := passed.symm.trans answer
    obtain ⟨held, holds⟩ := written.holds
    rcases holds.saveCounters (mid.counters.rolled last.wall).buckets_kinds begun'.buckets with
      ⟨fault, failed, -⟩ | ⟨-, after, kept, put⟩
    · exact nomatch failed.symm.trans answer
    · have same := Backing.faithful.answer (.saveCounters (mid.counters.rolled last.wall).buckets) trivial answer
      refine ⟨⟨mended.sound, ?_, mended.listed, mended.leases⟩, ⟨after, ?_, ?_⟩, begun.rolled_start⟩
      · change mid.snapshot.Shows (ThrottleStore.call _ mid.store).2.inner.contents mid.settings.defaultTransport
        rw [inner]
        exact same.symm ▸ mended.shows
      · change (ThrottleStore.call _ mid.store).2.inner.Holds last.wall after
        rw [inner]
        exact kept
      · exact Counters.mem_saved put begun.rolled_start holds.begun

/-- One tick without a failure heals any outage. Over a store that was empty once and that planes alone have written, a
plane is opened and serves; any calls to the store may fail, also those of the opening. After the first tick during which
none fails, and that is not earlier than what was done before, the snapshot is not degraded and shows what the store
holds, every transport of the matcher is in the pool with its limits, every lease is kept, and what is stored of the
hour and the day is what the counters give. -/
theorem tick_heals (tended : Tended last.wall store)
    (launched : Plane.launch ⟨store, plan⟩ settings opening = .ok (p, effects)) (acts : List (Moment × Act))
    (before : ∀ wall ∈ walls opening.wall acts, wall ≤ last.wall)
    (healthy : Call.Unhindered Maintenance.persistTick last ((opened p).run acts).plane) :
    ∃ q effects', Maintenance.persistTick.run last ((opened p).run acts).plane = (.ok (), q, effects') ∧
      Healed last.wall ((opened p).run acts).plane q := by
  obtain ⟨⟨⟩, q, effects', ran, sound⟩ :=
    Call.watched_persistTick.unhindered (tended.mendable launched acts) healthy
  obtain ⟨mid, way, answer, rfl⟩ := (persistTick_leads _).of_run ran rfl
  refine ⟨_, effects', ran, ?_⟩
  obtain ⟨written, begun⟩ := tended.written.serving launched before
  rcases way with ⟨rfl, already⟩ | reaches
  · exact Mended.saved (mended_already launched acts already) written begun answer
  · obtain ⟨written, begun⟩ := (written_invariant last.wall).changes (Int.le_refl _)
      ((Call.reload_keeps changes_permits).reached reaches) ⟨written, begun⟩
    exact Mended.saved (mended_reloaded launched acts reaches sound) written begun answer

/-- Over tables: a rule is written, but the store fails before it is published, and the hour ends in which an item was
sent. The tick brings its transport into the pool, keeps the lease of the other one and writes the buckets. -/
theorem tick_heals_unpublished :
    let bulk : TransportName := ⟨"bulk"⟩
    let slow : TransportName := ⟨"slow"⟩
    let store : PlannedStore Backing := ⟨.durable .empty, .replicate 22 none ++ [some ⟨.io, "offline"⟩]⟩
    let acts : List (Moment × Act) :=
      [(⟨⟨1⟩, 1⟩, .command (.replacePhases [⟨0, "start", 7, ⟨20, 50, 10⟩⟩])),
        (⟨⟨2⟩, 2⟩, .command (.updateConfig ⟨some true, none⟩)),
        (⟨⟨3⟩, 3⟩, .command (.createRule ⟨"example.org", bulk, ⟨1, 3⟩, true, none⟩)),
        (⟨⟨4⟩, 4⟩, .submit (.single "someone@example.org")),
        (⟨⟨5⟩, 5⟩, .command (.createRule ⟨"example.net", slow, ⟨2, 0⟩, true, none⟩))]
    let hour : Moment := ⟨⟨3600000000000⟩, 3600000⟩
    ∃ p effects, Plane.launch store bare ⟨⟨0⟩, 0⟩ = .ok (p, effects) ∧
      let s := ((opened p).run acts).plane
      s.snapshot.degraded = true ∧ s.pool.find? slow = none ∧
      ∃ q effects, Maintenance.persistTick.run hour s = (.ok (), q, effects) ∧ q.snapshot.degraded = false ∧
        (∃ g, q.pool.find? slow = some g ∧ g.slot.capacity = 2) ∧
        (∃ g, q.pool.find? bulk = some g ∧ g.slot.leases = [(1, 4)]) ∧
        ∃ held, q.store.inner.Holds hour.wall held ∧ ⟨.hour, hour.wall.stamp, 0⟩ ∈ held ∧ ⟨.day, ⟨⟨0⟩, 0⟩, 1⟩ ∈ held := by
  intro bulk slow store acts hour
  have runs : (Plane.launch store bare ⟨⟨0⟩, 0⟩).toOption.map (fun first =>
      let s := ((opened first.1).run acts).plane
      let q := (Maintenance.persistTick.run hour s).2.1
      decide (s.snapshot.degraded = true ∧ s.pool.find? slow = none ∧
        (s.pool.find? bulk).map (·.slot.leases) = some [(1, 4)] ∧
        (Maintenance.persistTick.after hour (s.watched 0)).store.failures = 0 ∧
        q.snapshot.matcher.transports.get? slow = some ⟨2, 0⟩ ∧
        q.counters.buckets = [⟨.hour, hour.wall.stamp, 0⟩, ⟨.day, ⟨⟨0⟩, 0⟩, 1⟩])) = some true := by
    decide +kernel
  obtain ⟨⟨p, effects⟩, launched, runs⟩ := Option.map_eq_some_iff.mp runs
  obtain ⟨degraded, unknown, leased, healthy, listed, counted⟩ := of_decide_eq_true runs
  have launched := ok_of_toOption launched
  have before : ∀ wall ∈ walls ⟨0⟩ acts, wall ≤ hour.wall := by decide +kernel
  obtain ⟨q, effects', ran, healed⟩ := tick_heals .durable launched acts before healthy
  rw [ran] at listed counted
  refine ⟨p, effects, launched, degraded, unknown, q, effects', ran, healed.sound, ?_, ?_, ?_⟩
  · obtain ⟨g, found, capacity, -⟩ := healed.listed slow ⟨2, 0⟩ listed
    exact ⟨g, found, capacity⟩
  · obtain ⟨g, found, leases⟩ := Option.map_eq_some_iff.mp leased
    obtain ⟨g', found', -, honours⟩ := healed.leases bulk g found (Or.inl (by simp [leases]))
    exact ⟨g', found', honours.leases.trans leases⟩
  · obtain ⟨held, holds, own⟩ := healed.stored
    exact ⟨held, holds, (own _).mpr (by simp [counted]), (own _).mpr (by simp [counted])⟩

end Service

end RelayRamp.Admission
