import RelayRamp.Proofs.Admission.Invariants

/-!
# Stored counters never fall behind

A plane that took over the buckets of its store when it was opened stays level with them: whatever the store holds of
a window, the counters of the plane have it too, or their window is a later one. So writing the counters never lowers
the count of a window that still lasts, whichever calls to the store fail in between.

A plane that could not read the buckets when it was opened starts from zero, and does not read them later on. Once its
store is back, it writes what it counted since, and the volume that was stored for the window is lost.
-/
namespace RelayRamp.Plane

open RelayRamp.Admission RelayRamp.Store RelayRamp.Time

variable {σ : Type} [ThrottleStore σ] {moment : Moment} {p q : Plane σ}

/-- The counters were moved to the instant and written. -/
structure Persisted (moment : Moment) (p q : Plane σ) : Prop where
  counters : q.counters = p.counters.rolled moment.wall
  answer : (ThrottleStore.call (.saveCounters q.counters.buckets) p.store).1 = .ok ()
  store : q.store = (ThrottleStore.call (.saveCounters q.counters.buckets) p.store).2

/-- Counters that are written are moved to the instant first; nothing else changes. -/
theorem persistCounters_leads (p : Plane σ) : (persistCounters : Call σ Unit).Leads moment p fun r q => r = .ok () →
    (ThrottleStore.call (.saveCounters (p.counters.rolled moment.wall).buckets) p.store).1 = .ok () ∧
      q = ({ p with counters := p.counters.rolled moment.wall } : Plane σ).asked
        (.saveCounters (p.counters.rolled moment.wall).buckets) := by
  refine Call.leads_wallNow_bind (Call.leads_setPlane_bind (Call.leads_plane_bind ?_))
  refine Call.Leads.tryCatch (Q := fun r q => r = .ok () → _ ∧ q = _) (Call.leads_ask fun answered => ?_)
    (fun _ _ => id) fun fault q _ => Call.leads_affect_bind (Call.leads_plane_bind ?_)
  · exact ⟨(Call.ask_ok (.saveCounters (p.counters.rolled moment.wall).buckets) p).mp answered, rfl⟩
  · -- The handler ends with the fault, whether it degrades the snapshot or not.
    dsimp only
    split
    · exact Call.Leads.bind (Q := fun _ _ => True) (fun _ => trivial) (fun _ _ _ => Call.leads_throw nofun)
        fun _ _ _ => nofun
    · exact Call.leads_throw nofun

theorem persistCounters_ok {effects : Lease.Effects} (ran : persistCounters.run moment p = (.ok (), q, effects)) :
    Persisted moment p q := by
  obtain ⟨answer, rfl⟩ := (persistCounters_leads p).of_run ran rfl
  exact ⟨rfl, answer, rfl⟩

/-- When counters that cover the stored buckets are written, a bucket of a current window is replaced by that of the
counters. -/
theorem Persisted.keeps {moment : Moment} {p q : Plane (PlannedStore Backing)}
    {held : List CounterBucket} (h : Persisted moment p q) (holds : p.store.inner.Holds moment.wall held)
    (begun : p.counters.Begun moment.wall) (covers : p.counters.Covers held) {b : CounterBucket}
    (member : b ∈ p.store.inner.buckets) (current : b.isCurrent moment.wall = true) :
    ∃ b' ∈ q.store.inner.buckets, b'.kind = b.kind ∧ b'.windowStart = b.windowStart ∧ b.count ≤ b'.count := by
  have stored := holds.mem_of_buckets member
  have advanced : p.counters.Advances moment.wall q.counters := h.counters ▸ .rolled _ _
  have start : (q.counters.window b.kind).start = b.kind.start moment.wall := by
    rw [h.counters]
    exact begun.rolled_start b.kind
  have same : b.windowStart.instant = (q.counters.window b.kind).start :=
    ((holds.begun b stored).isCurrent_iff.mp current).trans start.symm
  have stamp : (q.counters.window b.kind).start.stamp = b.windowStart := by
    obtain ⟨w, -, began⟩ := holds.begun b stored
    rw [← same, began]
    rfl
  have least := ((covers.advances advanced) b stored).2 same
  let b' : CounterBucket := ⟨b.kind, (q.counters.window b.kind).start.stamp, (q.counters.window b.kind).count⟩
  have new : b' ∈ q.counters.buckets := Counters.mem_buckets.mpr ⟨rfl, rfl⟩
  refine ⟨b', ?_, rfl, stamp, least⟩
  have answer := h.answer
  rw [h.store]
  rcases p.store.call_cases (.saveCounters q.counters.buckets) with ⟨fault, failed, -⟩ | ⟨passed, left⟩
  · rw [failed] at answer
    cases answer
  · rw [left]
    rw [passed] at answer
    rcases holds.saveCounters q.counters.buckets_kinds (begun.advances (Int.le_refl _) advanced).buckets with
      ⟨fault, failed, -⟩ | ⟨-, after, written, put⟩
    · cases answer.symm.trans failed
    · exact holds.saved_readable answer written new ((put b').mpr (Or.inl new)) member stamp

/-- A plane that is not degraded when it is opened has taken over the counters of its store. Opening writes none. -/
theorem launch_restores {S : σ → Prop}
    (kept : ∀ {s : σ} {α : Type} (c : StoreCall α), c.Vetted → S s → S (ThrottleStore.call c s).2)
    {store : σ} (sound : S store) {settings : EngineSettings} {effects : Lease.Effects}
    (launched : Plane.launch store settings moment = .ok (p, effects)) :
    S p.store ∧ (p.snapshot.degraded = false → ∃ s buckets, S s ∧
      (ThrottleStore.call .loadCounters s).1 = .ok buckets ∧
      p.counters = (Counters.fresh moment.wall).restore buckets moment.wall) := by
  obtain ⟨blank, unloaded, rfl⟩ := of_launch launched
  have start : blank.store = store ∧ blank.counters = .fresh moment.wall := by
    obtain ⟨matcher, -, same⟩ := ok_of_bind unloaded
    cases same
    exact ⟨rfl, rfl⟩
  let R (p q : Plane σ) : Prop := (S p.store → S q.store) ∧ q.counters = p.counters
  have preorder : IsPreorder (Plane σ) R :=
    { refl := fun _ => ⟨id, rfl⟩
      trans := fun _ _ _ first rest => ⟨rest.1 ∘ first.1, rest.2.trans first.2⟩ }
  have permits : Call.Permits moment R :=
    { asks := fun _ _ s vetted => ⟨kept s vetted, rfl⟩
      configured := fun _ _ _ => ⟨id, rfl⟩
      retained := fun _ _ => ⟨id, rfl⟩
      published := fun _ _ => ⟨id, rfl⟩ }
  let Q (q : Plane σ) : Prop := ∃ s buckets, S s ∧ (ThrottleStore.call .loadCounters s).1 = .ok buckets ∧
    q.counters = blank.counters.restore buckets moment.wall
  have leads : (load : Call σ Unit).Leads moment blank fun _ q =>
      S q.store ∧ (q.snapshot.degraded = false → Q q) := by
    rw [← start.1] at sound
    refine Call.Leads.tryCatch (Q := fun r q => S q.store ∧ (r = .ok () → Q q)) ?_
      (fun _ _ reached => ⟨reached.1, fun _ => reached.2 rfl⟩) fun fault q reached => ?_
    · refine (Call.loadOrSeed_keeps permits.asks blank).bind (fun config q₁ one => ?_) fun _ _ one =>
        ⟨one.1 sound, nofun⟩
      refine Call.Leads.bind (Q := fun r q₂ => S q₂.store ∧ q₂.counters = q₁.counters ∧
          ∀ buckets, r = .ok buckets → (ThrottleStore.call .loadCounters q₁.store).1 = .ok buckets)
        (Call.leads_ask ⟨kept _ trivial (one.1 sound), rfl, fun buckets => (Call.ask_ok _ q₁).mp⟩)
        (fun buckets q₂ two => ?_) fun _ _ two => ⟨two.1, nofun⟩
      refine Call.leads_wallNow_bind (Call.leads_setPlane_bind ?_)
      have restored : Q { q₂ with counters := q₂.counters.restore buckets moment.wall } :=
        ⟨_, buckets, one.1 sound, two.2.2 buckets rfl, by rw [two.2.1, one.2]⟩
      refine (Call.refresh_keeps permits _).bind (fun _ q₃ three => Call.leads_pure ⟨three.1 two.1, fun _ => ?_⟩)
        fun _ _ three => ⟨three.1 two.1, nofun⟩
      obtain ⟨s, buckets, held, answered, counters⟩ := restored
      exact ⟨s, buckets, held, answered, three.2.trans counters⟩
    · exact (degrade_leads reached.1 fault).mono fun _ q degraded =>
        ⟨degraded.valid, fun sound => by rw [degraded.snapshot] at sound; cases sound⟩
  obtain ⟨_, reached⟩ := leads.reached (load.reaches_after moment blank)
  simp only [Q, start.2] at reached
  exact reached

end RelayRamp.Plane

namespace RelayRamp.Admission

open RelayRamp.Plane RelayRamp.Store RelayRamp.Time

theorem vetted_other {α : Type} {c : StoreCall α} (vetted : c.Vetted) : c.kind ≠ .saveCounters := by
  cases c with
  | saveCounters => cases vetted
  | _ => nofun

/-- Asked for what is not the counters, a store holds the same buckets. -/
theorem holds_asked {t : Instant} {held : List CounterBucket} {s : PlannedStore Backing} {α : Type} (c : StoreCall α)
    (vetted : c.Vetted) (holds : s.inner.Holds t held) : (ThrottleStore.call c s).2.inner.Holds t held :=
  PlannedStore.call_inner (P := (Backing.Holds t · held)) c holds (holds.other (vetted_other vetted))

/-- Such a store holds buckets of windows that had begun. -/
theorem WrittenBy.holds {t : Instant} {store : Backing} (written : WrittenBy t store) :
    ∃ held, store.Holds t held := by
  induction written with
  | memory => exact ⟨[], .memory rfl .nil nofun⟩
  | durable => exact ⟨[], .durable rfl nofun⟩
  | asked c vetted _ ih =>
    obtain ⟨held, holds⟩ := ih
    exact ⟨held, holds.other (vetted_other vetted)⟩
  | saved kinds begun _ ih =>
    obtain ⟨held, holds⟩ := ih
    rcases holds.saveCounters kinds begun with ⟨fault, -, kept⟩ | ⟨-, after, written, -⟩
    · exact ⟨held, kept⟩
    · exact ⟨after, written⟩

/-- The counters of the plane cover what its store holds. -/
def Banked (t : Instant) (p : Plane (PlannedStore Backing)) : Prop :=
  ∃ held, p.store.inner.Holds t held ∧ p.counters.Begun t ∧ p.counters.Covers held

theorem banked_invariant (t : Instant) : Invariant t (Banked t) where
  touched le touches := by
    rintro ⟨held, holds, begun, covers⟩
    rw [Banked, touches.store]
    exact ⟨held, holds, begun.advances le touches.counters, covers.advances touches.counters⟩
  asked {p α} c vetted := by
    rintro ⟨held, holds, begun, covers⟩
    exact ⟨held, holds_asked c vetted holds, begun, covers⟩
  saved {p} := by
    rintro ⟨held, holds, begun, covers⟩
    rcases p.store.call_cases (.saveCounters p.counters.buckets) with ⟨fault, -, same⟩ | ⟨-, passed⟩
    · exact ⟨held, same.symm ▸ holds, begun, covers⟩
    · rcases holds.saveCounters p.counters.buckets_kinds begun.buckets with
        ⟨fault, -, kept⟩ | ⟨-, after, written, put⟩
      · exact ⟨held, passed.symm ▸ kept, begun, covers⟩
      · exact ⟨after, passed.symm ▸ written, begun, covers.saved put⟩

namespace Service

/-- What is stored of a window that lasts does not get smaller. A plane is opened over a store that other planes wrote
before, and it takes over the stored counters then. While wall time does not pass the instant of the last call, and
whichever calls to the store fail: when the counters are written, each stored bucket whose window is current is kept or
replaced by one of the same window that has counted no less. -/
theorem persisted_never_lowered {store : Backing} {plan : List (Option StoreFault)} {settings : EngineSettings}
    {moment : Moment} {p q : Plane (PlannedStore Backing)} {effects effects' : Lease.Effects}
    (written : WrittenBy moment.wall store)
    (launched : Plane.launch ⟨store, plan⟩ settings moment = .ok (p, effects))
    (restored : ∃ buckets, (store.call .loadCounters).1 = .ok buckets ∧
      p.counters = (Counters.fresh moment.wall).restore buckets moment.wall)
    (acts : List (Moment × Act)) {last : Moment} (before : ∀ wall ∈ walls moment.wall acts, wall ≤ last.wall)
    (persisted : persistCounters.run last ((opened p).run acts).plane = (.ok (), q, effects')) :
    ∀ b ∈ ((opened p).run acts).plane.store.inner.buckets, b.isCurrent last.wall = true →
      ∃ b' ∈ q.store.inner.buckets, b'.kind = b.kind ∧ b'.windowStart = b.windowStart ∧ b.count ≤ b'.count := by
  obtain ⟨first, later⟩ := List.forall_mem_cons.mp before
  obtain ⟨held, holds⟩ := written.holds
  obtain ⟨buckets, answer, counters⟩ := restored
  obtain rfl := holds.loaded answer
  obtain ⟨holds, -⟩ := launch_restores (S := fun s => s.inner.Holds moment.wall buckets) holds_asked holds
    launched
  -- From here on the counters cover what the store holds.
  have start : Banked last.wall p := by
    rw [Banked, counters]
    refine ⟨buckets, holds.mono first, ?_, Counters.restore_covers holds.begun⟩
    exact (Counters.Begun.fresh (Int.le_refl _)).advances (Int.le_refl _) (.restore _ _) |>.mono first
  obtain ⟨held, holds, begun, covers⟩ := run_holds (s := opened p) (banked_invariant _) acts
    (fun entry member => later _ (List.mem_map_of_mem member)) start
  exact fun b member current => (persistCounters_ok persisted).keeps holds begun covers member current

/-- Settings without seed data. -/
def bare : EngineSettings := { EngineSettings.standard with seedPhases := false, seedRules := false }

/-- Throttling is set up and switched on, seven items are sent and the counters are written. -/
def firstHour : List (Moment × Act) :=
  [(⟨⟨1⟩, 1⟩, .command (.replacePhases [⟨0, "start", 7, ⟨20, 50, 10⟩⟩])),
    (⟨⟨2⟩, 2⟩, .command (.updateConfig ⟨some true, none⟩)),
    (⟨⟨3⟩, 3⟩, .submit ⟨"someone@example.org", 7, none, none⟩), (⟨⟨4⟩, 4⟩, .command .persistCounters)]

/-- In the hour in which an earlier plane sent seven items, one that was opened after it fails to write its counters,
recovers and sends two more. -/
theorem persisted_never_lowered_outage :
    let empty : PlannedStore Backing := ⟨.memory .empty, []⟩
    let plan : List (Option StoreFault) := List.replicate 5 none ++ [some ⟨.io, "offline"⟩]
    let acts : List (Moment × Act) :=
      [(⟨⟨11⟩, 1⟩, .command .persistCounters), (⟨⟨12⟩, 2⟩, .command .reload),
        (⟨⟨13⟩, 3⟩, .submit ⟨"someone@example.org", 2, none, none⟩)]
    let sent : CounterBucket := ⟨.hour, ⟨⟨0⟩, 0⟩, 7⟩
    ∃ p effects, Plane.launch empty bare ⟨⟨0⟩, 0⟩ = .ok (p, effects) ∧
      let store := ((opened p).run firstHour).plane.store.inner
      ∃ q effects, Plane.launch (⟨store, plan⟩ : PlannedStore Backing) bare ⟨⟨10⟩, 0⟩ = .ok (q, effects) ∧
        let r := ((opened q).run acts).plane
        sent ∈ r.store.inner.buckets ∧
        ∃ b ∈ (persistCounters.run ⟨⟨14⟩, 4⟩ r).2.1.store.inner.buckets,
          b.kind = sent.kind ∧ b.windowStart = sent.windowStart ∧ sent.count ≤ b.count := by
  intro empty plan acts sent
  have runs : ((Plane.launch empty bare ⟨⟨0⟩, 0⟩).toOption.bind fun first =>
      let store := ((opened first.1).run firstHour).plane.store.inner
      (Plane.launch (⟨store, plan⟩ : PlannedStore Backing) bare ⟨⟨10⟩, 0⟩).toOption.map fun second =>
        let r := ((opened second.1).run acts).plane
        ((store.call .loadCounters).1.toOption, second.1.counters, r.store.inner.buckets,
          (persistCounters.run ⟨⟨14⟩, 4⟩ r).1.toOption)) =
      some (some [⟨.day, ⟨⟨0⟩, 0⟩, 7⟩, sent], ⟨⟨⟨0⟩, 7⟩, ⟨⟨0⟩, 7⟩⟩, [⟨.day, ⟨⟨0⟩, 0⟩, 7⟩, sent], some ()) := by
    decide +kernel
  obtain ⟨⟨p, effects⟩, launched, runs⟩ := Option.bind_eq_some_iff.mp runs
  obtain ⟨⟨q, effects'⟩, relaunched, runs⟩ := Option.map_eq_some_iff.mp runs
  simp only [Prod.mk.injEq] at runs
  obtain ⟨loads, counters, stored, answer⟩ := runs
  have launched := ok_of_toOption launched
  have relaunched := ok_of_toOption relaunched
  have persisted : persistCounters.run ⟨⟨14⟩, 4⟩ ((opened q).run acts).plane = (.ok (), _, _) :=
    Prod.ext (ok_of_toOption answer) rfl
  have restored : q.counters = (Counters.fresh ⟨10⟩).restore [⟨.day, ⟨⟨0⟩, 0⟩, 7⟩, sent] ⟨10⟩ :=
    counters.trans (by decide +kernel)
  exact ⟨p, effects, launched, q, effects', relaunched, by simp [stored],
    persisted_never_lowered (WrittenBy.memory.served launched (by decide +kernel)) relaunched
      ⟨_, ok_of_toOption loads, restored⟩ acts (by decide +kernel) persisted sent (by simp [stored])
      (by decide +kernel)⟩

/-- A plane that cannot read the counters when it is opened does not read them when it recovers either: the first write
after that lowers what is stored of the current windows. -/
theorem lowered_after_failed_opening :
    let empty : PlannedStore Backing := ⟨.memory .empty, []⟩
    let plan : List (Option StoreFault) := [none, some ⟨.io, "offline"⟩]
    let sent (kind : WindowKind) (count : Nat) : CounterBucket := ⟨kind, ⟨⟨0⟩, 0⟩, count⟩
    ∃ p effects, Plane.launch empty bare ⟨⟨0⟩, 0⟩ = .ok (p, effects) ∧
      let store := ((opened p).run firstHour).plane.store.inner
      ∃ q effects, Plane.launch (⟨store, plan⟩ : PlannedStore Backing) bare ⟨⟨10⟩, 0⟩ = .ok (q, effects) ∧
        let r := ((opened q).run [(⟨⟨11⟩, 1⟩, .command .reload)]).plane
        let s := (persistCounters.run ⟨⟨12⟩, 2⟩ r).2.1
        r.snapshot.degraded = false ∧ (persistCounters.run ⟨⟨12⟩, 2⟩ r).1 = .ok () ∧
        r.store.inner.buckets = [sent .day 7, sent .hour 7] ∧
        (∀ b ∈ r.store.inner.buckets, b.isCurrent ⟨12⟩ = true) ∧
        s.store.inner.buckets = [sent .day 0, sent .hour 0] := by
  intro empty plan sent
  have runs : ((Plane.launch empty bare ⟨⟨0⟩, 0⟩).toOption.bind fun first =>
      let store := ((opened first.1).run firstHour).plane.store.inner
      (Plane.launch (⟨store, plan⟩ : PlannedStore Backing) bare ⟨⟨10⟩, 0⟩).toOption.map fun second =>
        let r := ((opened second.1).run [(⟨⟨11⟩, 1⟩, .command .reload)]).plane
        let persisted := persistCounters.run ⟨⟨12⟩, 2⟩ r
        (r.snapshot.degraded, persisted.1.toOption, r.store.inner.buckets, persisted.2.1.store.inner.buckets)) =
      some (false, some (), [sent .day 7, sent .hour 7], [sent .day 0, sent .hour 0]) := by
    decide +kernel
  obtain ⟨⟨p, effects⟩, launched, runs⟩ := Option.bind_eq_some_iff.mp runs
  obtain ⟨⟨q, effects'⟩, relaunched, runs⟩ := Option.map_eq_some_iff.mp runs
  simp only [Prod.mk.injEq] at runs
  obtain ⟨refreshed, answer, before, after⟩ := runs
  have current : ∀ b ∈ [sent .day 7, sent .hour 7], b.isCurrent ⟨12⟩ = true := by decide +kernel
  exact ⟨p, effects, ok_of_toOption launched, q, effects', ok_of_toOption relaunched, refreshed,
    ok_of_toOption answer, before, before ▸ current, after⟩

end Service

end RelayRamp.Admission
