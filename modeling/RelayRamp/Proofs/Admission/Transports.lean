import RelayRamp.Proofs.Admission.Outcome
import RelayRamp.Proofs.Admission.Persistence
import RelayRamp.Proofs.Plane.Rerouting

/-!
# Routing and the pool agree

Under a snapshot that is not degraded the pool has every transport of the matcher, set up with the limits that the
matcher lists; what else is in it was busy at the last sweep, and that was when the snapshot was published. So an
attempt always finds its transport in the pool: one that is rejected for an unknown transport has asked by name for one
that its matcher does not list.
-/
namespace RelayRamp.Admission

open RelayRamp.Lease RelayRamp.Plane RelayRamp.Routing RelayRamp.Store RelayRamp.Time RelayRamp.Warmup

variable {σ : Type}

/-! ### Routes -/

/-- A request that can be routed goes to a listed transport. -/
theorem AdmissionRequest.route_lists {request : AdmissionRequest} {m : Matcher} (complete : m.Complete) {route : Route}
    (routed : request.route m = .ok route) : m.transports.Lists route.transport := by
  unfold AdmissionRequest.route at routed
  split at routed
  · split at routed
    · cases routed
    · unfold Matcher.byName at routed
      split at routed
      · rename_i listed
        cases routed
        exact Option.isSome_iff_exists.mpr ⟨_, listed⟩
      · cases routed
  · unfold Matcher.resolveRecipient at routed
    split at routed
    · cases routed
      exact complete.route _
    · cases routed

/-- A transport is unknown only to a request that names it. -/
theorem AdmissionRequest.route_unknown {request : AdmissionRequest} {m : Matcher} {name : String}
    (unknown : request.route m = .error (.unknownTransport name)) :
    ∃ transport, request.transport = some transport ∧ transport.text = name ∧ m.transports.get? transport = none := by
  unfold AdmissionRequest.route at unknown
  split at unknown
  · rename_i transport named
    split at unknown
    · cases unknown
    · unfold Matcher.byName at unknown
      split at unknown
      · cases unknown
      · rename_i unlisted
        cases unknown
        exact ⟨transport, named, rfl, unlisted⟩
  · unfold Matcher.resolveRecipient at unknown
    split at unknown
    · cases unknown
    · cases unknown

/-! ### Attempts -/

namespace Attempt

variable {p q : Plane σ} {moment : Moment} {lease : Option LeaseTicket}

/-- From the lease on an attempt is rejected only if the pool does not know its transport. -/
theorem proceed_rejected {course : Course} {acquisition : Acquisition} {fault : ConfigurationFault}
    (rejected : (proceed p course acquisition moment).2.2 = .decided ⟨.rejected fault, lease⟩) :
    (acquisition.resume p.pool moment.tick).2.2.unknown? ≠ none := by
  rcases resumed : acquisition.resume p.pool moment.tick with ⟨pool, effects, next⟩
  simp only [proceed, resumed] at rejected
  cases next with
  | granted ticket instant =>
    rcases committed : p.counters.commit (course.config.limits course.table moment.wall) course.amount moment.wall with
      ⟨counters, reading | refusal⟩
    · simp only [commit, committed] at rejected
      cases rejected
    · simp only [commit, committed] at rejected
      cases rejected
  | failed fault =>
    cases fault with
    | timedOut name => cases rejected
    | unknownTransport name => exact Option.some_ne_none name
  | _ => cases rejected

/-- A request is rejected for an unknown transport only if it names one that the matcher does not list. -/
theorem begin_unknown (served : Served p) {request : AdmissionRequest} {name : String}
    (rejected : (begin p request moment).2.2 = .decided ⟨.rejected (.unknownTransport name), lease⟩) :
    ∃ transport, request.transport = some transport ∧ transport.text = name ∧
      p.snapshot.matcher.transports.get? transport = none := by
  have way := screened p request moment
  generalize begin p request moment = result at way rejected
  cases way with
  | unroutable _ _ unroutable =>
    cases rejected
    exact AdmissionRequest.route_unknown unroutable
  | unusable _ _ _ unusable =>
    obtain ⟨message, rfl⟩ := Snapshot.table_error unusable
    cases rejected
  | passed timeout refreshed _ routed =>
    obtain ⟨complete, known⟩ := served refreshed
    refine absurd (Acquisition.resume_unknown? rfl _ _ fun transport timeout same => ?_) (proceed_rejected rejected)
    cases same
    exact known _ (AdmissionRequest.route_lists complete routed)
  | _ => cases rejected

theorem Proceeds.kept {course : Course} {acquisition : Acquisition} {a : Attempt}
    (proceeds : Proceeds p course acquisition moment q a) : Kept p q := by
  have steady := Pool.steady_resume p.pool acquisition moment.tick
  cases proceeds with
  | waits resumed | failed resumed | admitted resumed =>
    rw [resumed] at steady
    exact ⟨rfl, steady⟩
  | @lost pool _ ticket _ _ resumed =>
    rw [resumed] at steady
    exact ⟨rfl, IsTrans.trans _ _ _ steady (pool.steady_release ticket.transport ticket.leaseId moment.tick)⟩

theorem resume_kept (p : Plane σ) (moment : Moment) (a : Attempt) : Kept p (a.resume p moment).1 := by
  cases a with
  | requested request =>
    have begun := begins p request moment
    simp only [resume]
    generalize (begin p request moment).1 = q at begun
    generalize (begin p request moment).2.2 = b at begun
    cases begun with
    | decided => exact ⟨rfl, Std.Refl.refl p.pool⟩
    | proceeded _ _ _ proceeds => exact proceeds.kept
  | acquiring course acquisition => exact (proceeds p course acquisition moment).kept
  | decided => exact kept_same p

theorem cancel_kept (p : Plane σ) (moment : Moment) (a : Attempt) : Kept p (a.cancel p moment).1 := by
  cases a with
  | requested => exact kept_same p
  | acquiring _ acquisition => exact ⟨rfl, p.pool.steady_cancel acquisition moment.tick⟩
  | decided admission =>
    obtain ⟨verdict, _ | ticket⟩ := admission
    · exact kept_same p
    · exact ⟨rfl, p.pool.steady_release ticket.transport ticket.leaseId moment.tick⟩

end Attempt

/-! ### Services -/

namespace Service

variable [ThrottleStore σ] {p : Plane σ} {acts before after : List (Moment × Act)} {moment : Moment} {act : Act}

/-- Attempts neither publish nor change how a transport is set up. -/
theorem step_kept (s : Service σ) (moment : Moment) (other : ∀ command, act ≠ .command command) :
    Kept s.plane (s.step moment act).plane := by
  have stepped := s.steps moment act
  generalize s.step moment act = t at stepped
  cases stepped with
  | submitted | resumed => exact Attempt.resume_kept _ _ _
  | cancelled => exact Attempt.cancel_kept _ _ _
  | detached | idle => exact kept_same _
  | commanded command => exact absurd rfl (other command)

/-- The pool was last swept at the end of the first part of a run, by a command or when the plane was opened. Since then
nothing was published. -/
structure LastSwept (p : Plane σ) (before after : List (Moment × Act)) : Prop where
  swept : before = [] ∨ ∃ earlier moment command, before = earlier ++ [(moment, .command command)] ∧
    Rerouted moment ((opened p).run earlier).plane ((opened p).run before).plane
  since : ∀ mid rest, after = mid ++ rest →
    ((opened p).run (before ++ mid)).plane.snapshot = ((opened p).run (before ++ after)).plane.snapshot

theorem LastSwept.more (h : LastSwept p before after)
    (kept : ((opened p).run (before ++ after ++ [(moment, act)])).plane.snapshot =
      ((opened p).run (before ++ after)).plane.snapshot) : LastSwept p before (after ++ [(moment, act)]) where
  swept := h.swept
  since mid rest same := by
    rw [← List.append_assoc, kept]
    rcases split_snoc same with rfl | ⟨rest', same⟩
    · rw [← List.append_assoc, kept]
    · exact h.since mid rest' same

/-- The pool is numbered, and unless the snapshot is degraded its transports are set up as the last sweep left them. -/
structure Aligned (p : Plane σ) (acts : List (Moment × Act)) : Prop where
  numbered : ((opened p).run acts).plane.pool.Numbered
  swept : ((opened p).run acts).plane.snapshot.degraded = false →
    ∃ before after, acts = before ++ after ∧ LastSwept p before after ∧
      let matcher := ((opened p).run acts).plane.snapshot.matcher
      let q := ((opened p).run before).plane
      matcher.Complete ∧ q.pool.Swept matcher.transports ∧
        ∀ name, ((opened p).run acts).plane.pool.setup? name = q.pool.setup? name

theorem Aligned.served (h : Aligned p acts) : Served ((opened p).run acts).plane := by
  intro refreshed
  obtain ⟨before, after, -, -, complete, swept, same⟩ := h.swept refreshed
  refine ⟨complete, fun name lists => ?_⟩
  obtain ⟨limits, listed⟩ := Option.isSome_iff_exists.mp lists
  obtain ⟨generation, set⟩ := swept.listed name limits listed
  obtain ⟨g, found, -⟩ := Option.map_eq_some_iff.mp ((same name).trans set)
  exact Option.isSome_iff_exists.mpr ⟨g, found⟩

theorem Aligned.dimmed {q : Plane σ} (numbered : q.pool.Numbered) (dimmed : Dimmed q ((opened p).run acts).plane) :
    Aligned p acts where
  numbered := by
    rw [dimmed.pool]
    exact numbered
  swept refreshed := absurd (dimmed.degraded.symm.trans refreshed) nofun

/-- A sweep sets the pool up anew, so nothing before it matters. -/
theorem Aligned.rerouted {q : Plane σ} (numbered : q.pool.Numbered)
    (rerouted : Rerouted moment q ((opened p).run acts).plane)
    (last : acts = [] ∨ ∃ earlier moment command, acts = earlier ++ [(moment, .command command)] ∧
      Rerouted moment ((opened p).run earlier).plane ((opened p).run acts).plane) : Aligned p acts := by
  obtain ⟨numbered, swept⟩ := Pool.reroute_swept numbered rerouted.complete.nodup moment.tick
  rw [← rerouted.pool] at numbered swept
  refine ⟨numbered, fun _ => ⟨acts, [], (List.append_nil _).symm, ⟨last, fun mid rest same => ?_⟩, rerouted.complete,
    swept, fun _ => rfl⟩⟩
  obtain ⟨rfl, rfl⟩ := List.append_eq_nil_iff.mp same.symm
  rfl

theorem Aligned.kept (h : Aligned p acts)
    (kept : Kept ((opened p).run acts).plane ((opened p).run (acts ++ [(moment, act)])).plane) :
    Aligned p (acts ++ [(moment, act)]) := by
  obtain ⟨numbered, same⟩ := kept.steady h.numbered
  refine ⟨numbered, fun refreshed => ?_⟩
  rw [kept.snapshot] at refreshed
  obtain ⟨before, after, rfl, last, complete, swept, setups⟩ := h.swept refreshed
  refine ⟨before, after ++ [(moment, act)], List.append_assoc .., last.more kept.snapshot, ?_⟩
  rw [kept.snapshot]
  exact ⟨complete, swept, fun name => (same name).trans (setups name)⟩

theorem opened_aligned {store : σ} {settings : EngineSettings} {effects : Effects}
    (launched : Plane.launch store settings moment = .ok (p, effects)) : Aligned p [] := by
  obtain ⟨blank, unloaded, rfl⟩ := of_launch launched
  have empty : blank.pool = .empty := by
    obtain ⟨matcher, -, same⟩ := ok_of_bind unloaded
    cases same
    rfl
  have numbered : blank.pool.Numbered := by
    rw [empty]
    exact ⟨List.nodup_nil, List.nodup_nil, nofun⟩
  rcases load_steers (load.reaches_after moment blank) with dimmed | rerouted
  · exact .dimmed numbered dimmed
  · exact .rerouted numbered rerouted (Or.inl rfl)

theorem Aligned.step (h : Aligned p acts) (moment : Moment) (act : Act) : Aligned p (acts ++ [(moment, act)]) := by
  have next : ((opened p).run (acts ++ [(moment, act)])) = ((opened p).run acts).step moment act := run_append ..
  by_cases commands : ∃ command, act = .command command
  · obtain ⟨command, rfl⟩ := commands
    have steers := command.steers moment ((opened p).run acts).plane
    have same : ((opened p).run (acts ++ [(moment, .command command)])).plane =
        command.perform moment ((opened p).run acts).plane := congrArg Service.plane next
    rw [← same] at steers
    cases steers with
    | kept kept => exact h.kept kept
    | dimmed dimmed => exact .dimmed h.numbered dimmed
    | rerouted rerouted => exact .rerouted h.numbered rerouted (Or.inr ⟨acts, moment, command, rfl, rerouted⟩)
  · refine h.kept ?_
    rw [next]
    exact step_kept _ moment fun command same => commands ⟨command, same⟩

section

variable {store : σ} {settings : EngineSettings} {opening : Moment} {effects : Effects} {roster : Roster TransportLimits}

theorem run_aligned (launched : Plane.launch store settings opening = .ok (p, effects))
    (acts : List (Moment × Act)) : Aligned p acts := by
  induction acts using List.reverseRecOn with
  | nil => exact opened_aligned launched
  | append_singleton acts last ih => exact ih.step last.1 last.2

theorem run_mirrors (launched : Plane.launch store settings opening = .ok (p, effects))
    (acts : List (Moment × Act)) : ∃ moves holder, ((opened p).run acts).Mirrors moves holder := by
  induction acts using List.reverseRecOn with
  | nil =>
    obtain ⟨moves, traced⟩ := launched_traced launched
    exact ⟨moves, _, traced.mirrors⟩
  | append_singleton acts last ih =>
    obtain ⟨moves, holder, mirrors⟩ := ih
    obtain ⟨rest, holder', -, mirrors', -⟩ := simulates mirrors (run_sound p acts) last.1 last.2
    rw [run_append]
    exact ⟨_, holder', mirrors'⟩

/-- An attempt that waits is not told that its transport is unknown. -/
theorem waiting_known (launched : Plane.launch store settings opening = .ok (p, effects))
    (acts : List (Moment × Act)) {n : Nat} {submission : Submission} {course : Course} {acquisition : Acquisition}
    (present : ((opened p).run acts).attempts n = some submission)
    (acquiring : submission.attempt = .acquiring course acquisition) (q : Pool) (now : Nat) :
    (acquisition.resume q now).2.2.unknown? = none := by
  obtain ⟨moves, holder, mirrors⟩ := run_mirrors launched acts
  rcases mirrors.shown n submission present with ⟨verdict, done⟩ | ⟨call, a, -, -, shows⟩
  · cases acquiring.symm.trans done
  · rw [acquiring] at shows
    cases shows with
    | queued | pacing => exact Acquisition.resume_unknown? rfl q now nofun

/-- A rejection for an unknown transport names one that the request asked for and the matcher does not list. -/
theorem decided_unknown (launched : Plane.launch store settings opening = .ok (p, effects))
    (acts : List (Moment × Act)) {d : Decision} (member : d ∈ ((opened p).run acts).decisions) {name : String}
    (rejected : d.admission.verdict = .rejected (.unknownTransport name)) :
    ∃ transport, d.request.transport = some transport ∧ transport.text = name ∧
      d.snapshot.matcher.transports.get? transport = none := by
  induction acts using List.reverseRecOn with
  | nil => cases member
  | append_singleton acts last ih =>
    obtain ⟨moment, act⟩ := last
    have served := (run_aligned launched acts).served
    have sound := run_sound p acts
    have known := @waiting_known _ _ _ _ _ _ _ launched acts
    rw [run_append] at member
    change d ∈ (((opened p).run acts).step moment act).decisions at member
    generalize (opened p).run acts = s at ih served sound known member
    have stepped := s.steps moment act
    generalize s.step moment act = t at stepped member
    cases stepped with
    | submitted request =>
      rcases List.mem_append.mp member with old | new
      · exact ih old
      · obtain ⟨-, done⟩ := mem_decided new
        obtain ⟨asked, published, -⟩ := decided_for new
        rw [asked, published]
        have unknown : (Attempt.begin s.plane request moment).2.2 =
            .decided ⟨.rejected (.unknownTransport name), d.admission.lease⟩ := by
          rw [← rejected]
          exact done
        exact Attempt.begin_unknown served unknown
    | @resumed n submission present unfinished =>
      rcases List.mem_append.mp member with old | new
      · exact ih old
      · obtain ⟨-, done⟩ := mem_decided new
        rcases sound.reached n submission present with ⟨course, acquisition, acquiring, -⟩ | ⟨admission, finished⟩
        · -- The pool knew the transport when the attempt began, whatever the matcher has become since.
          have ended : (Attempt.proceed s.plane course acquisition moment).2.2 = .decided d.admission := by
            change (submission.attempt.resume s.plane moment).2.2 = _ at done
            rw [acquiring] at done
            exact done
          rcases same : d.admission with ⟨verdict, lease⟩
          rw [same] at ended rejected
          cases rejected
          exact absurd (known present acquiring _ _) (Attempt.proceed_rejected ended)
        · rw [finished] at unfinished
          cases unfinished
    | _ => exact ih member

/-- What is left in the pool beside the transports of the matcher was busy when the pool was swept. -/
theorem unlisted_busy (launched : Plane.launch store settings opening = .ok (p, effects))
    (swept : ((opened p).run before).plane.pool.Swept roster) {name : TransportName} {g : Generation}
    (unlisted : roster.get? name = none) (found : ((opened p).run before).plane.pool.find? name = some g) :
    g.slot.leases ≠ [] ∨ g.slot.handed ≠ [] ∨ g.slot.waiters ≠ [] := by
  obtain ⟨moves, holder, mirrors⟩ := run_mirrors launched before
  have sound := Traffic.run_sound moves
  have slot := Pool.slot?_of_find? (run_aligned launched before).numbered found
  rw [← mirrors.pool] at slot
  exact (sound.slots _ _ slot).busy (swept.unlisted name g unlisted found)

/-- Routing and the pool agree, in every state of a service. Unless the snapshot is degraded, the pool has each transport
of the matcher, the default one included, with the listed bound as its capacity and with the listed spacing; any other
transport in the pool had leases, unclaimed hand-offs or waiters when the pool was swept last; and whatever a request
is routed to, the pool knows. An attempt is rejected for an unknown transport only if its request names one that the
matcher of its snapshot does not list, and one that waits is never told so. -/
theorem pool_follows_matcher (launched : Plane.launch store settings opening = .ok (p, effects))
    (acts : List (Moment × Act)) :
    let s := (opened p).run acts
    let matcher := s.plane.snapshot.matcher
    (s.plane.snapshot.degraded = false →
      matcher.transports.Lists matcher.fallback ∧
      (∀ name limits, matcher.transports.get? name = some limits → ∃ g, s.plane.pool.find? name = some g ∧
        g.slot.capacity = limits.concurrency ∧ g.slot.rateDelay = limits.rateDelay) ∧
      (∃ before after, acts = before ++ after ∧ LastSwept p before after ∧
        ∀ name g, s.plane.pool.find? name = some g → matcher.transports.get? name = none →
          ∃ g', ((opened p).run before).plane.pool.find? name = some g' ∧ g'.number = g.number ∧
            (g'.slot.leases ≠ [] ∨ g'.slot.handed ≠ [] ∨ g'.slot.waiters ≠ [])) ∧
      ∀ request route, AdmissionRequest.route request matcher = .ok route → ∀ timeout now name,
        ((Acquisition.requested route.transport timeout).resume s.plane.pool now).2.2 ≠
          .failed (.unknownTransport name)) ∧
    (∀ d ∈ s.decisions, ∀ name, d.admission.verdict = .rejected (.unknownTransport name) →
      ∃ transport, d.request.transport = some transport ∧ transport.text = name ∧
        d.snapshot.matcher.transports.get? transport = none) ∧
    ∀ n submission course acquisition, s.attempts n = some submission →
      submission.attempt = .acquiring course acquisition → ∀ now name,
        (acquisition.resume s.plane.pool now).2.2 ≠ .failed (.unknownTransport name) := by
  intro s matcher
  have told {a : Acquisition} (known : a.unknown? = none) (name : String) : a ≠ .failed (.unknownTransport name) := by
    rintro rfl
    cases known
  refine ⟨fun refreshed => ?_, fun d member name => decided_unknown launched acts member,
    fun n submission course acquisition present acquiring now => told (waiting_known launched acts present acquiring _ _)⟩
  have aligned := run_aligned launched acts
  obtain ⟨complete, known⟩ := aligned.served refreshed
  obtain ⟨before, after, same, last, -, swept, setups⟩ := aligned.swept refreshed
  refine ⟨complete.fallback, fun name limits listed => ?_, ⟨before, after, same, last, fun name g found unlisted => ?_⟩,
    fun request route routed timeout now => told (Acquisition.resume_unknown? rfl _ _ fun transport timeout same => ?_)⟩
  · obtain ⟨generation, set⟩ := swept.listed name limits listed
    obtain ⟨g, found, setup⟩ := Option.map_eq_some_iff.mp ((setups name).trans set)
    exact ⟨g, found, congrArg Setup.capacity setup, congrArg Setup.rateDelay setup⟩
  · have setup := setups name
    rw [Pool.setup?, found] at setup
    obtain ⟨g', found', same⟩ := Option.map_eq_some_iff.mp setup.symm
    exact ⟨g', found', congrArg Setup.generation same, unlisted_busy launched swept unlisted found'⟩
  · cases same
    exact known _ (AdmissionRequest.route_lists complete routed)

/-- A rule is deleted while a lease of its transport is out, so the transport stays in the pool; a request that names it
is rejected all the same. -/
theorem pool_follows_matcher_deleted :
    let empty : PlannedStore Backing := ⟨.memory .empty, []⟩
    let bulk : TransportName := ⟨"bulk"⟩
    let acts : List (Moment × Act) :=
      [(⟨⟨1⟩, 1⟩, .command (.replacePhases [⟨0, "start", 7, ⟨20, 50, 10⟩⟩])),
        (⟨⟨2⟩, 2⟩, .command (.updateConfig ⟨some true, none⟩)),
        (⟨⟨3⟩, 3⟩, .command (.createRule ⟨"example.org", bulk, ⟨1, 3⟩, true, none⟩)),
        (⟨⟨4⟩, 4⟩, .submit (.single "someone@example.org")), (⟨⟨5⟩, 5⟩, .command (.deleteRule 1)),
        (⟨⟨6⟩, 6⟩, .submit ⟨"someone@example.org", 1, some bulk, none⟩)]
    ∃ p effects, Plane.launch empty bare ⟨⟨0⟩, 0⟩ = .ok (p, effects) ∧
      let s := (opened p).run acts
      s.plane.snapshot.degraded = false ∧ s.plane.snapshot.matcher.transports.get? bulk = none ∧
      (∃ before after g, acts = before ++ after ∧ ((opened p).run before).plane.pool.find? bulk = some g ∧
        (g.slot.leases ≠ [] ∨ g.slot.handed ≠ [] ∨ g.slot.waiters ≠ [])) ∧
      ∃ d ∈ s.decisions, d.admission.verdict = .rejected (.unknownTransport "bulk") ∧
        d.snapshot.matcher.transports.get? bulk = none := by
  intro empty bulk acts
  have runs : (Plane.launch empty bare ⟨⟨0⟩, 0⟩).toOption.map (fun first =>
      let s := (opened first.1).run acts
      (s.plane.snapshot.degraded, s.plane.snapshot.matcher.transports.get? bulk, (s.plane.pool.find? bulk).isSome,
        s.decisions.getLast?.map (·.admission.verdict))) =
      some (false, none, true, some (.rejected (.unknownTransport "bulk"))) := by
    decide +kernel
  obtain ⟨⟨p, effects⟩, launched, runs⟩ := Option.map_eq_some_iff.mp runs
  simp only [Prod.mk.injEq] at runs
  obtain ⟨refreshed, unlisted, left, rejected⟩ := runs
  have launched := ok_of_toOption launched
  obtain ⟨aligned, unknown, -⟩ := pool_follows_matcher launched acts
  refine ⟨p, effects, launched, refreshed, unlisted, ?_, ?_⟩
  · obtain ⟨-, -, ⟨before, after, same, -, busy⟩, -⟩ := aligned refreshed
    obtain ⟨g, found⟩ := Option.isSome_iff_exists.mp left
    obtain ⟨g', found', -, used⟩ := busy bulk g found unlisted
    exact ⟨before, after, g', same, found', used⟩
  · obtain ⟨d, last, rejected⟩ := Option.map_eq_some_iff.mp rejected
    have member := List.mem_of_getLast? last
    obtain ⟨⟨_⟩, -, rfl, absent⟩ := unknown d member "bulk" rejected
    exact ⟨d, member, rejected, absent⟩

end

end Service

end RelayRamp.Admission
