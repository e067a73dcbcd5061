import RelayRamp.Proofs.Admission.Mirror
import RelayRamp.Proofs.Admission.Persistence
import RelayRamp.Proofs.Warmup.Table

/-!
# When the burst limit is checked

A batch is compared with the burst limit once, when its attempt begins. The windows are checked again when it commits,
by the limits of that instant; the burst limit is not. So a batch that was admitted with a lease was within the burst
limit of the instant at which it was submitted, and while it waited the limit may have become smaller.
-/
namespace RelayRamp.Admission

open RelayRamp.Lease RelayRamp.Plane RelayRamp.Routing RelayRamp.Store RelayRamp.Time RelayRamp.Warmup

variable {σ : Type}

/-- What gets as far as the lease is within the burst limit of the instant. -/
theorem Attempt.begin_burst (p : Plane σ) (request : AdmissionRequest) (moment : Moment) :
    (begin p request moment).2.2.Unleased ∨ ∃ table, p.snapshot.table = .ok table ∧
      request.batchSize ≤ (p.snapshot.config.limits table moment.wall).burst := by
  have way := screened p request moment
  generalize begin p request moment = result at way
  cases way with
  | passed _ _ _ _ usable _ small => exact Or.inr ⟨_, usable, small⟩
  | _ => exact Or.inl ⟨_, rfl⟩

namespace Service

variable [ThrottleStore σ] {p : Plane σ} {acts : List (Moment × Act)} {n : Nat} {request : AdmissionRequest}
  {snapshot : Snapshot}

/-- The attempt was submitted in the run, when its batch was within the burst limit. -/
def SubmittedWithin (p : Plane σ) (acts : List (Moment × Act)) (n : Nat) (request : AdmissionRequest)
    (snapshot : Snapshot) : Prop :=
  ∃ before start after table, acts = before ++ (start, .submit request) :: after ∧
    ((opened p).run before).next = n ∧ ((opened p).run before).plane.snapshot = snapshot ∧
    snapshot.table = .ok table ∧ request.batchSize ≤ (snapshot.config.limits table start.wall).burst

theorem SubmittedWithin.more (h : SubmittedWithin p acts n request snapshot) (rest : List (Moment × Act)) :
    SubmittedWithin p (acts ++ rest) n request snapshot := by
  obtain ⟨before, start, after, table, rfl, others⟩ := h
  exact ⟨before, start, after ++ rest, table, by rw [List.append_assoc]; rfl, others⟩

/-- Whatever has a lease or waits for one was submitted within the burst limit. -/
structure BurstChecked (p : Plane σ) (acts : List (Moment × Act)) (s : Service σ) : Prop where
  kept : ∀ n submission, s.attempts n = some submission →
    submission.attempt.Unleased ∨ SubmittedWithin p acts n submission.request submission.snapshot
  decided : ∀ d ∈ s.decisions, d.admission.lease = none ∨ SubmittedWithin p acts d.number d.request d.snapshot

theorem BurstChecked.more {s : Service σ} (h : BurstChecked p acts s) (rest : List (Moment × Act)) :
    BurstChecked p (acts ++ rest) s :=
  ⟨fun n submission present => (h.kept n submission present).imp_right (·.more rest),
    fun d member => (h.decided d member).imp_right (·.more rest)⟩

theorem BurstChecked.turn {s : Service σ} (h : BurstChecked p acts s) {moment : Moment} {submission : Submission}
    (within : (submission.attempt.resume s.plane moment).2.2.Unleased ∨
      SubmittedWithin p acts n submission.request submission.snapshot) (next : Nat) :
    BurstChecked p acts { s.turn moment n submission with next } := by
  refine ⟨fun m kept present => ?_, fun d member => ?_⟩
  · simp only [turn_present] at present
    split at present
    · rename_i same
      cases present
      exact same ▸ within
    · exact h.kept m kept present
  · simp only [turn_decisions] at member
    rcases List.mem_append.mp member with old | new
    · exact h.decided d old
    · obtain ⟨number, done⟩ := mem_decided new
      obtain ⟨request, snapshot, -⟩ := decided_for new
      rw [number, request, snapshot]
      exact within.imp_left fun ⟨verdict, unleased⟩ =>
        congrArg Admission.lease (Attempt.decided.inj (done.symm.trans unleased))

theorem BurstChecked.forget {s : Service σ} (h : BurstChecked p acts s) (q : Plane σ) (n : Nat) :
    BurstChecked p acts (s.keep q n none) := by
  refine ⟨fun m submission present => ?_, h.decided⟩
  by_cases same : m = n
  · subst same
    rw [keep_here] at present
    cases present
  · rw [keep_others s q n none m same] at present
    exact h.kept m submission present

theorem opened_burstChecked (p : Plane σ) : BurstChecked p [] (opened p) where
  kept _ _ present := nomatch present
  decided _ member := nomatch member

theorem run_burstChecked (p : Plane σ) (acts : List (Moment × Act)) : BurstChecked p acts ((opened p).run acts) := by
  induction acts using List.reverseRecOn with
  | nil => exact opened_burstChecked p
  | append_singleton acts last ih =>
    obtain ⟨moment, act⟩ := last
    rw [run_append]
    change BurstChecked p _ (((opened p).run acts).step moment act)
    have earlier := ih.more [(moment, act)]
    have stepped := ((opened p).run acts).steps moment act
    generalize ((opened p).run acts).step moment act = t at stepped
    cases stepped with
    | submitted request =>
      refine earlier.turn ?_ _
      refine (Attempt.begin_burst ((opened p).run acts).plane request moment).imp_right fun ⟨table, usable, small⟩ => ?_
      exact ⟨acts, moment, [], table, rfl, rfl, rfl, usable, small⟩
    | resumed present unfinished =>
      -- No limit of this moment is compared with: all that is known of the batch is from its submission.
      refine earlier.turn ((earlier.kept _ _ present).imp_left fun ⟨verdict, done⟩ => ?_) _
      rw [done] at unfinished
      cases unfinished
    | cancelled => exact earlier.forget _ _
    | detached => exact earlier.forget _ _
    | commanded => exact ⟨earlier.kept, earlier.decided⟩
    | idle => exact earlier

/-- The burst limit of the instant of submission bounds every batch that is admitted with a lease; that of the commit does
only if it has not become smaller. The attempt was submitted at some instant under the snapshot of its decision, and
its commit, which counts the batch in the windows, may come any time later. -/
theorem burst_bounds_submission {d : Decision} {ticket : LeaseTicket} (member : d ∈ ((opened p).run acts).decisions)
    (lease : d.admission.lease = some ticket) :
    ∃ table, d.snapshot.table = .ok table ∧
      let burst (now : Instant) := (d.snapshot.config.limits table now).burst
      (∃ before start after, acts = before ++ (start, .submit d.request) :: after ∧
        ((opened p).run before).next = d.number ∧ ((opened p).run before).plane.snapshot = d.snapshot ∧
        d.request.batchSize ≤ burst start.wall ∧
        (d.request.batchSize ≤ burst d.moment.wall ∨ burst d.moment.wall < burst start.wall)) ∧
      ∃ earlier act later, acts = earlier ++ (d.moment, act) :: later ∧
        let s := (opened p).run earlier
        (s.step d.moment act).decisions = s.decisions ++ [d] ∧
        (s.step d.moment act).plane.counters =
          (s.plane.counters.rolled d.moment.wall).plus d.request.batchSize := by
  obtain ⟨before, start, after, table, same, next, published, usable, small⟩ :=
    ((run_burstChecked p acts).decided d member).resolve_left (by rw [lease]; exact nofun)
  refine ⟨table, usable, ⟨before, start, after, same, next, published, small, ?_⟩, ?_⟩
  · exact (Nat.lt_or_ge _ _).symm.imp_left (Nat.le_trans small)
  · obtain ⟨earlier, act, later, split, record⟩ := decided_by_act p acts member
    refine ⟨earlier, act, later, split, record, ?_⟩
    cases step_counts (run_sound p earlier) d.moment act with
    | nothing decided record' unleased counters =>
      have here : decided = [d] := List.append_cancel_left (record'.symm.trans record)
      rw [unleased d (by simp [here])] at lease
      cases lease
    | admitted d' record' lease' present follows fits counters =>
      cases List.append_cancel_left (record'.symm.trans record)
      rw [counters, follows.amount]

/-! ### A limit that becomes smaller -/

/-- Batches of ten for a day, then of three. -/
def narrowing : PhaseTable :=
  ⟨[⟨0, "wide", 1, ⟨100, 100, 10⟩⟩, ⟨1, "narrow", 7, ⟨100, 100, 3⟩⟩], by decide, by decide⟩

def narrowingConfig : WarmupConfig := { WarmupConfig.fresh ⟨0⟩ with enabled := true }

def narrowingStore : MemoryStore :=
  { MemoryStore.empty with config := narrowingConfig, phases := narrowing.phases }

/-- The plane that is opened over the store. -/
def narrowingPlane : Plane MemoryStore :=
  let fallback := DefaultTransport.standard
  { store := narrowingStore
    snapshot := ⟨1, narrowingConfig, .ok narrowing, ⟨[], [(fallback.name, fallback.limits)], fallback.name⟩, false⟩
    counters := .fresh ⟨0⟩
    pool := (Pool.empty.configure fallback.name fallback.limits 0).1
    tallies := .zero
    settings := bare }

theorem launch_narrowing : Plane.launch narrowingStore bare ⟨⟨0⟩, 0⟩ = .ok (narrowingPlane, .none) := by
  have launched : Plane.launch narrowingStore bare ⟨⟨0⟩, 0⟩ =
      .ok ({ narrowingPlane with
        snapshot := { narrowingPlane.snapshot with
          phases := (PhaseTable.ofPhases narrowing.phases).mapError .invalid } }, .none) := by
    with_unfolding_all rfl
  rw [PhaseTable.ofPhases_self (by decide)] at launched
  exact launched

/-- A single item goes, and a batch of ten waits for the lease until the moment. -/
def waiting (moment : Moment) : List (Moment × Act) :=
  [(⟨⟨1⟩, 1⟩, .submit (.single "someone@example.org")),
    (⟨⟨2⟩, 2⟩, .submit ⟨"someone@example.org", 10, none, none⟩), (moment, .resume 1)]

/-- Two seconds later the batch is within the limit. -/
theorem burst_bounds_submission_prompt :
    let moment : Moment := ⟨⟨2000000000⟩, 2000⟩
    ∃ p effects, Plane.launch narrowingStore bare ⟨⟨0⟩, 0⟩ = .ok (p, effects) ∧
      ∃ d ∈ ((opened p).run (waiting moment)).decisions, d.request.batchSize = 10 ∧ d.moment = moment ∧
        d.admission.lease = some ⟨⟨"default"⟩, 2⟩ ∧ ∃ table, d.snapshot.table = .ok table ∧
          ∃ start, 10 ≤ (d.snapshot.config.limits table start).burst := by
  intro moment
  refine ⟨narrowingPlane, .none, launch_narrowing, ?_⟩
  have found : ∃ d ∈ ((opened narrowingPlane).run (waiting moment)).decisions, d.request.batchSize = 10 ∧
      d.moment = moment ∧ d.admission.lease = some ⟨⟨"default"⟩, 2⟩ := by
    decide +kernel
  obtain ⟨d, member, ten, present, lease⟩ := found
  obtain ⟨table, usable, ⟨_, start, _, _, _, _, small, _⟩, -⟩ := burst_bounds_submission member lease
  exact ⟨d, member, ten, present, lease, table, usable, start.wall, ten ▸ small⟩

/-- A day later it is admitted under a limit of three. -/
theorem burst_passed_by_waiting :
    let moment : Moment := ⟨⟨86400000000000⟩, 86400000⟩
    ∃ p effects, Plane.launch narrowingStore bare ⟨⟨0⟩, 0⟩ = .ok (p, effects) ∧
      ∃ d ∈ ((opened p).run (waiting moment)).decisions, d.request.batchSize = 10 ∧ d.moment = moment ∧
        d.admission.lease = some ⟨⟨"default"⟩, 2⟩ ∧ ∃ table, d.snapshot.table = .ok table ∧
          (d.snapshot.config.limits table moment.wall).burst = 3 := by
  intro moment
  refine ⟨narrowingPlane, .none, launch_narrowing, ?_⟩
  have found : ∃ d ∈ ((opened narrowingPlane).run (waiting moment)).decisions, d.request.batchSize = 10 ∧
      d.moment = moment ∧ d.admission.lease = some ⟨⟨"default"⟩, 2⟩ ∧
        d.snapshot.table.toOption.map (fun table => (d.snapshot.config.limits table moment.wall).burst) = some 3 := by
    decide +kernel
  obtain ⟨d, member, ten, present, lease, limit⟩ := found
  obtain ⟨table, usable, limit⟩ := Option.map_eq_some_iff.mp limit
  exact ⟨d, member, ten, present, lease, table, ok_of_toOption usable, limit⟩

end Service

end RelayRamp.Admission
