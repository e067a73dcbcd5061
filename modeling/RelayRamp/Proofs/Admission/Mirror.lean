import RelayRamp.Proofs.Admission.Records
import RelayRamp.Proofs.Lease.History
import RelayRamp.Proofs.Plane.Coherence

/-!
# The traffic of a service

What a service does to its pool is traffic on that pool: each act is some moves at its instant. The acquisition of
an attempt is kept there under the id of its lease; it waits while the attempt waits, and it was granted the lease
with which the attempt was admitted. So what holds of every run of moves holds of the pool of a service.
-/
namespace RelayRamp.Lease

open RelayRamp.Admission RelayRamp.Routing

namespace Acquisition

/-- The ticket of an acquisition that is in the queue or has its lease. -/
def ticket? : Acquisition → Option LeaseTicket
  | .queued ticket _ _ | .pacing ticket _ | .granted ticket _ => some ticket
  | .requested .. | .failed _ => none

/-- An acquisition that went on has begun. -/
theorem resume_begun (a : Acquisition) (p : Pool) (now : Nat) (transport : TransportName) (timeout : Nat) :
    (a.resume p now).2.2 ≠ .requested transport timeout := by
  have paced_begun : ∀ ticket grant, paced ticket grant now ≠ .requested transport timeout := by
    intro ticket grant
    unfold paced
    split <;> nofun
  have queued_begun : ∀ p ticket key deadline,
      (resumeQueued p now ticket key deadline).2.2 ≠ .requested transport timeout := by
    intro p ticket key deadline
    rcases resumeQueued_cases p now ticket key deadline with
      ⟨_, _, grant, -, -, result⟩ | ⟨_, -, -, -, result⟩ | ⟨-, _, result⟩
    · rw [result]
      exact paced_begun ticket grant
    · rw [result]
      nofun
    · rw [result]
      nofun
  cases a with
  | requested transport' timeout' =>
    obtain ⟨-, -, same⟩ := Traffic.resume_begun p transport' timeout' now
    rw [← same]
    rcases Traffic.start_cases p transport' timeout' now with
      ⟨ticket, grant, begun⟩ | ⟨ticket, key, deadline, begun⟩ | ⟨fault, begun⟩
    · rw [begun]
      unfold paced
      split
      · nofun
      · exact paced_begun ticket grant
    · rw [begun]
      exact queued_begun _ ticket key deadline
    · rw [begun]
      nofun
  | queued ticket key deadline => exact queued_begun p ticket key deadline
  | pacing ticket grant => exact paced_begun ticket grant
  | _ => nofun

end Acquisition

namespace Traffic

variable {t : Traffic} {moves : List (Nat × Move)}

/-- Acquisitions are kept under the ids of their tickets. -/
theorem call_of_ticket {call : Nat} {a : Acquisition} {ticket : LeaseTicket}
    (present : (empty.run moves).calls call = some a) (has : a.ticket? = some ticket) :
    ticket.leaseId = call := by
  cases a with
  | queued ticket' key deadline =>
    cases has
    exact (run_sound moves).tickets _ _ _ _ present
  | pacing ticket' grant =>
    cases has
    exact (run_ticketed moves).own _ _ _ present rfl
  | granted ticket' instant =>
    cases has
    exact (run_ticketed moves).own _ _ _ present rfl
  | _ => cases has

end Traffic

/-- The move neither releases nor reclaims a lease nor keeps one out, and the acquisition that it cancels is gone at
the end. -/
def Move.Quiet (t : Traffic) : Move → Prop
  | .acquire .. | .resume _ | .configure .. | .retain _ => True
  | .cancel call => t.calls call = none
  | .hangUp .. | .timeOut _ | .detach _ | .release .. | .reclaim _ => False

end RelayRamp.Lease

namespace RelayRamp.Plane

open RelayRamp.Lease RelayRamp.Routing RelayRamp.Store

variable {σ : Type} {moment : Moment} {p q : Plane σ}

/-- The pools differ by new limits and by transports that are no longer kept. -/
def Reconfigures (moment : Moment) (p q : Plane σ) : Prop :=
  ∀ t : Traffic, t.pool = p.pool → ∃ moves : List (Nat × Move),
    (∀ entry ∈ moves, (∃ transport limits, entry = (moment.tick, .configure transport limits)) ∨
      ∃ keep, entry = (moment.tick, .retain keep)) ∧ t.run moves = { t with pool := q.pool }

theorem reconfigures_same (same : q.pool = p.pool) : Reconfigures moment p q :=
  fun t pool => ⟨[], nofun, by rw [same, ← pool]; rfl⟩

instance : IsPreorder (Plane σ) (Reconfigures moment) where
  refl _ := reconfigures_same rfl
  trans p q r first second t pool := by
    obtain ⟨moves, kinds, ran⟩ := first t pool
    obtain ⟨more, kinds', ran'⟩ := second { t with pool := q.pool } rfl
    refine ⟨moves ++ more, fun entry member => ?_, by rw [Traffic.run_append, ran, ran']⟩
    exact (List.mem_append.mp member).elim (kinds entry) (kinds' entry)

theorem reconfigures_configure (p : Plane σ) (name : TransportName) (limits : TransportLimits) :
    Reconfigures moment p { p with pool := (p.pool.configure name limits moment.tick).1 } :=
  fun t pool => ⟨[(moment.tick, .configure name limits)],
    fun _ member => Or.inl ⟨name, limits, List.mem_singleton.mp member⟩, by
      simp only [Traffic.run, Traffic.step, pool]⟩

theorem reconfigures_retain (p : Plane σ) (keep : List TransportName) :
    Reconfigures moment p { p with pool := p.pool.retain keep } :=
  fun t pool => ⟨[(moment.tick, .retain keep)],
    fun _ member => Or.inr ⟨keep, List.mem_singleton.mp member⟩, by
      simp only [Traffic.run, Traffic.step, pool]⟩

theorem reconfigures_permits [ThrottleStore σ] :
    Call.Permits moment (Reconfigures moment : Plane σ → Plane σ → Prop) where
  asks _ _ _ _ := reconfigures_same rfl
  configured := reconfigures_configure
  retained := reconfigures_retain
  published _ _ := reconfigures_same rfl

theorem Changes.reconfigures [ThrottleStore σ] (changes : Changes moment p q) : Reconfigures moment p q := by
  induction changes with
  | refl => exact reconfigures_same rfl
  | tail _ change ih =>
    refine IsTrans.trans _ _ _ ih ?_
    cases change with
    | configured name limits => exact reconfigures_configure _ name limits
    | retained keep => exact reconfigures_retain _ keep
    | _ => exact reconfigures_same rfl

/-- The pool of a plane that was just opened has its transports and nothing else. -/
theorem launch_pool [ThrottleStore σ] {store : σ} {settings : EngineSettings} {effects : Effects}
    (launched : Plane.launch store settings moment = .ok (p, effects)) :
    ∃ moves, Traffic.empty.run moves = ⟨p.pool, fun _ => none⟩ ∧ ∀ entry ∈ moves,
      (∃ transport limits, entry = (moment.tick, .configure transport limits)) ∨
        ∃ keep, entry = (moment.tick, .retain keep) := by
  obtain ⟨blank, unloaded, rfl⟩ := of_launch launched
  have blank_pool : blank.pool = .empty := by
    obtain ⟨matcher, -, same⟩ := ok_of_bind unloaded
    cases same
    rfl
  have loads : (load : Call σ Unit).Keeps moment (Reconfigures moment) :=
    Call.load_keeps reconfigures_permits fun _ _ => reconfigures_same rfl
  obtain ⟨moves, kinds, ran⟩ := loads.after blank .empty blank_pool.symm
  exact ⟨moves, ran, kinds⟩

end RelayRamp.Plane

namespace RelayRamp.Admission

open RelayRamp.Lease RelayRamp.Plane RelayRamp.Routing RelayRamp.Store RelayRamp.Time RelayRamp.Warmup

namespace Attempt

/-- The ticket with which an attempt waits, or with whose lease it was admitted. -/
def ticket? : Attempt → Option LeaseTicket
  | .acquiring _ acquisition => acquisition.ticket?
  | .decided admission => admission.lease
  | .requested _ => none

/-- The attempt is decided without a lease: it has nothing in the pool. -/
def Unleased (attempt : Attempt) : Prop := ∃ verdict, attempt = .decided ⟨verdict, none⟩

/-- The acquisition is as far as the attempt. -/
inductive Shows : Attempt → Acquisition → Prop
  | queued {course : Course} {ticket : LeaseTicket} {key : WaitKey} {deadline : Nat} :
      Shows (.acquiring course (.queued ticket key deadline)) (.queued ticket key deadline)
  | pacing {course : Course} {ticket : LeaseTicket} {grant : Nat} :
      Shows (.acquiring course (.pacing ticket grant)) (.pacing ticket grant)
  | admitted {verdict : Verdict} {ticket : LeaseTicket} {instant : Nat} :
      Shows (.decided ⟨verdict, ticket⟩) (.granted ticket instant)

theorem Shows.leased {attempt : Attempt} {a : Acquisition} (shows : attempt.Shows a) : ¬ attempt.Unleased := by
  rintro ⟨verdict, rfl⟩
  cases shows

theorem Shows.ticket {attempt : Attempt} {a : Acquisition} (shows : attempt.Shows a) :
    ∃ ticket, attempt.ticket? = some ticket ∧ a.ticket? = some ticket := by
  cases shows with
  | _ => exact ⟨_, rfl, rfl⟩

end Attempt

/-- What is kept of an attempt, and of an acquisition: both go on, or both have come to nothing. -/
inductive Agrees : Option Submission → Option Acquisition → Prop
  | shows {submission : Submission} {a : Acquisition} (shows : submission.attempt.Shows a) :
      Agrees (some submission) (some a)
  | nothing {kept : Option Submission} {a : Option Acquisition}
      (unleased : ∀ submission, kept = some submission → submission.attempt.Unleased)
      (failed : ∀ b, a = some b → ∃ fault, b = .failed fault) : Agrees kept a

namespace Service

variable {σ : Type} {s t : Service σ} {moves : List (Nat × Move)} {holder : Nat → Option Nat} {moment : Moment}

/-- The traffic shows the service; `holder` tells whose the acquisitions are, also of those that are over. -/
structure Mirrors (s : Service σ) (moves : List (Nat × Move)) (holder : Nat → Option Nat) : Prop where
  pool : (Traffic.empty.run moves).pool = s.plane.pool
  shown : ∀ n submission, s.attempts n = some submission → submission.attempt.Unleased ∨
    ∃ call a, holder call = some n ∧ (Traffic.empty.run moves).calls call = some a ∧
      submission.attempt.Shows a
  owned : ∀ call a, (Traffic.empty.run moves).calls call = some a → (∃ fault, a = .failed fault) ∨
    ∃ n submission, holder call = some n ∧ s.attempts n = some submission ∧ submission.attempt.Shows a
  issued : ∀ call n, holder call = some n → call < s.plane.pool.nextLease

/-- The attempt and the acquisition are each other's, or new. -/
structure Pairs (s : Service σ) (moves : List (Nat × Move)) (holder : Nat → Option Nat) (n call : Nat) :
    Prop where
  only : ∀ other a submission, holder other = some n → (Traffic.empty.run moves).calls other = some a →
    s.attempts n = some submission → submission.attempt.Shows a → other = call
  free : ∀ m, holder call = some m → m = n

theorem pairs_of_shows {n call : Nat} {submission : Submission} {a : Acquisition}
    (mine : holder call = some n) (present : s.attempts n = some submission)
    (kept : (Traffic.empty.run moves).calls call = some a) (shows : submission.attempt.Shows a) :
    s.Pairs moves holder n call where
  only other b submission' _ kept' present' shows' := by
    rw [present] at present'
    cases present'
    obtain ⟨ticket, ours, has⟩ := shows.ticket
    obtain ⟨ticket', ours', has'⟩ := shows'.ticket
    rw [ours] at ours'
    cases ours'
    exact (Traffic.call_of_ticket kept' has').symm.trans (Traffic.call_of_ticket kept has)
  free m other := by
    rw [mine] at other
    exact (Option.some.inj other).symm

theorem Mirrors.pairs_new (h : s.Mirrors moves holder) (sound : s.Sound) :
    s.Pairs moves holder s.next (Traffic.empty.run moves).pool.nextLease where
  only _ _ submission _ _ present := absurd (sound.numbered _ submission present) (Nat.lt_irrefl _)
  free m other := absurd (h.issued _ m other) (by rw [h.pool]; exact Nat.lt_irrefl _)

/-- Whose the acquisitions are when one more is that of an attempt. -/
def assign (holder : Nat → Option Nat) (call n : Nat) : Nat → Option Nat :=
  fun other => if other = call then some n else holder other

theorem Pairs.assign {n call : Nat} (pairs : s.Pairs moves holder n call) {other m : Nat}
    (held : holder other = some m) : assign holder call n other = some m := by
  unfold Service.assign
  split
  · rename_i same
    rw [pairs.free m (same ▸ held)]
  · exact held

/-- One attempt and its acquisition change together. -/
theorem Mirrors.update (h : s.Mirrors moves holder) {n call : Nat} (pairs : s.Pairs moves holder n call)
    {rest : List (Nat × Move)} {a : Option Acquisition}
    (ran : (Traffic.empty.run moves).run rest = (Traffic.empty.run moves).keep t.plane.pool call a)
    (others : ∀ m, m ≠ n → t.attempts m = s.attempts m) (agrees : Agrees (t.attempts n) a)
    (issued : call < t.plane.pool.nextLease) : t.Mirrors (moves ++ rest) (assign holder call n) := by
  have grows := Traffic.nextLease_run_le (Traffic.empty.run moves) rest
  rw [ran] at grows
  have here : (Traffic.empty.run (moves ++ rest)).calls call = a := by
    rw [Traffic.run_append, ran, Traffic.keep_call]
  have elsewhere : ∀ other, other ≠ call →
      (Traffic.empty.run (moves ++ rest)).calls other = (Traffic.empty.run moves).calls other := by
    intro other apart
    rw [Traffic.run_append, ran]
    exact if_neg apart
  have mine : assign holder call n call = some n := if_pos rfl
  refine ⟨by rw [Traffic.run_append, ran]; rfl, fun m submission present => ?_, fun other b kept => ?_,
    fun other m held => ?_⟩
  · by_cases same : m = n
    · subst same
      rw [present] at agrees
      cases agrees with
      | shows shows => exact Or.inr ⟨call, _, mine, here, shows⟩
      | nothing unleased => exact Or.inl (unleased submission rfl)
    · rw [others m same] at present
      rcases h.shown m submission present with unleased | ⟨other, b, held, kept, shows⟩
      · exact Or.inl unleased
      · have apart : other ≠ call := fun same' => same (pairs.free m (same' ▸ held))
        exact Or.inr ⟨other, b, pairs.assign held, (elsewhere other apart).trans kept, shows⟩
  · by_cases same : other = call
    · subst same
      rw [here] at kept
      subst kept
      generalize kept' : t.attempts n = kept at agrees
      cases agrees with
      | shows shows => exact Or.inr ⟨n, _, mine, kept', shows⟩
      | nothing _ failed => exact Or.inl (failed b rfl)
    · rw [elsewhere other same] at kept
      rcases h.owned other b kept with failed | ⟨m, submission, held, present, shows⟩
      · exact Or.inl failed
      · have apart : m ≠ n := fun same' =>
          same (pairs.only other b submission (same' ▸ held) kept (same' ▸ present) shows)
        exact Or.inr ⟨m, submission, pairs.assign held, (others m apart).trans present, shows⟩
  · unfold assign at held
    split at held
    · rename_i same
      exact same ▸ issued
    · refine Nat.lt_of_lt_of_le ?_ grows
      rw [h.pool]
      exact h.issued other m held

/-! ### The moves of an act -/

/-- The moves of an act are at its instant. Only three kinds of act can end a lease that somebody waits with, or
keep one out. -/
inductive Renders (moment : Moment) (t : Traffic) : Act → List (Nat × Move) → Prop
  | quiet {act : Act} {rest : List (Nat × Move)}
      (other : ∀ transport lease, act ≠ .command (.releaseLease transport lease))
      (each : ∀ entry ∈ rest, entry.1 = moment.tick ∧ entry.2.Quiet (t.run rest)) : Renders moment t act rest
  | detached {n call : Nat} : Renders moment t (.detach n) [(moment.tick, .detach call)]
  | released {transport : TransportName} {lease : Nat} :
      Renders moment t (.command (.releaseLease transport lease)) [(moment.tick, .release transport lease)]
  | reclaimed {maxHold : Nat} : Renders moment t (.command .reclaimLeases) [(moment.tick, .reclaim maxHold)]

/-- The traffic can follow an act that leads to the service, and whose the acquisitions are does not change. -/
def Followed (moves : List (Nat × Move)) (holder : Nat → Option Nat) (moment : Moment) (act : Act)
    (t : Service σ) : Prop :=
  ∃ rest holder', Renders moment (Traffic.empty.run moves) act rest ∧ t.Mirrors (moves ++ rest) holder' ∧
    ∀ call n, holder call = some n → holder' call = some n

/-- Without any move. -/
theorem Mirrors.followed {act : Act} (h : t.Mirrors moves holder)
    (other : ∀ transport lease, act ≠ .command (.releaseLease transport lease)) :
    Followed moves holder moment act t :=
  ⟨[], holder, .quiet other nofun, (List.append_nil moves).symm ▸ h, fun _ _ => id⟩

/-- The acquisition of an attempt goes on, and the attempt with it. -/
theorem Mirrors.goes_on (h : s.Mirrors moves holder) {act : Act}
    (other : ∀ transport lease, act ≠ .command (.releaseLease transport lease)) {n call : Nat}
    (pairs : s.Pairs moves holder n call) {begun : List (Nat × Move)} {next : Acquisition}
    (ran : (Traffic.empty.run moves).run begun =
      (Traffic.empty.run moves).keep t.plane.pool call (some next))
    (starts : ∀ entry ∈ begun, entry.1 = moment.tick ∧ ∀ t, entry.2.Quiet t)
    (others : ∀ m, m ≠ n → t.attempts m = s.attempts m) (agrees : Agrees (t.attempts n) (some next))
    (issued : call < t.plane.pool.nextLease) : Followed moves holder moment act t :=
  ⟨begun, _, .quiet other fun entry member => ⟨(starts entry member).1, (starts entry member).2 _⟩,
    h.update pairs ran others agrees issued, fun _ _ => pairs.assign⟩

/-- A lease that is won in an act goes back in the same act. -/
theorem Mirrors.gives_back (h : s.Mirrors moves holder) {act : Act}
    (other : ∀ transport lease, act ≠ .command (.releaseLease transport lease)) {n call : Nat}
    (pairs : s.Pairs moves holder n call) {begun : List (Nat × Move)} {pool : Pool} {ticket : LeaseTicket}
    {instant : Nat}
    (ran : (Traffic.empty.run moves).run begun =
      (Traffic.empty.run moves).keep pool call (some (.granted ticket instant)))
    (starts : ∀ entry ∈ begun, entry.1 = moment.tick ∧ ∀ t, entry.2.Quiet t)
    (others : ∀ m, m ≠ n → t.attempts m = s.attempts m)
    (released : t.plane.pool = (pool.release ticket.transport ticket.leaseId moment.tick).1)
    (unleased : ∀ submission, t.attempts n = some submission → submission.attempt.Unleased)
    (issued : call < pool.nextLease) : Followed moves holder moment act t := by
  have returned : (Traffic.empty.run moves).run (begun ++ [(moment.tick, .cancel call)]) =
      (Traffic.empty.run moves).keep t.plane.pool call none := by
    rw [Traffic.run_append, ran]
    simp only [Traffic.run, Traffic.step, Traffic.keep_call, Traffic.keep_keep, released]
    rfl
  have still : call < t.plane.pool.nextLease := by
    rw [released]
    exact (Pool.slotsOnly_release pool ticket.transport ticket.leaseId moment.tick).nextLease ▸ issued
  refine ⟨begun ++ [(moment.tick, .cancel call)], _, .quiet other fun entry member => ?_,
    h.update pairs returned others (.nothing unleased (by simp)) still, fun _ _ => pairs.assign⟩
  rw [returned]
  rcases List.mem_append.mp member with start | last
  · exact ⟨(starts entry start).1, (starts entry start).2 _⟩
  · rw [List.mem_singleton.mp last]
    exact ⟨rfl, Traffic.keep_call _ _ _ _⟩

/-- However an attempt proceeds, the traffic can follow. -/
theorem Mirrors.proceeded (h : s.Mirrors moves holder) {act : Act}
    (other : ∀ transport lease, act ≠ .command (.releaseLease transport lease)) {n call : Nat}
    (pairs : s.Pairs moves holder n call) {begun : List (Nat × Move)} {course : Course}
    {acquisition : Acquisition} {q : Plane σ} {a : Attempt} {submission : Submission}
    (proceeds : Attempt.Proceeds s.plane course acquisition moment q a)
    (ran : (Traffic.empty.run moves).run begun =
      (Traffic.empty.run moves).keep (acquisition.resume s.plane.pool moment.tick).1 call
        (some (acquisition.resume s.plane.pool moment.tick).2.2))
    (starts : ∀ entry ∈ begun, entry.1 = moment.tick ∧ ∀ t, entry.2.Quiet t) (plane : t.plane = q)
    (others : ∀ m, m ≠ n → t.attempts m = s.attempts m)
    (here : t.attempts n = some { submission with attempt := a }) : Followed moves holder moment act t := by
  have issued : call < (acquisition.resume s.plane.pool moment.tick).1.nextLease := by
    have kept : (Traffic.empty.run (moves ++ begun)).calls call =
        some (acquisition.resume s.plane.pool moment.tick).2.2 := by
      rw [Traffic.run_append, ran, Traffic.keep_call]
    have issued := (Traffic.run_sound _).calls_issued call _ kept
    rwa [Traffic.run_append, ran] at issued
  have goes_on : ∀ pool effects next, acquisition.resume s.plane.pool moment.tick = (pool, effects, next) →
      t.plane.pool = pool → Agrees (some { submission with attempt := a }) (some next) →
      Followed moves holder moment act t := by
    intro pool effects next resumed same agrees
    simp only [resumed] at ran issued
    subst same
    exact h.goes_on other pairs ran starts others (here ▸ agrees) issued
  cases proceeds with
  | @waits pool effects waiting resumed unfinished =>
    have begins := acquisition.resume_begun s.plane.pool moment.tick
    rw [resumed] at begins
    refine goes_on pool effects waiting resumed (by rw [plane]) ?_
    cases waiting with
    | requested transport timeout => exact absurd rfl (begins transport timeout)
    | queued ticket key deadline => exact .shows .queued
    | pacing ticket grant => exact .shows .pacing
    | granted ticket instant => cases unfinished
    | failed fault => cases unfinished
  | @failed pool effects fault verdict resumed unleased =>
    refine goes_on pool effects _ resumed (by rw [plane]) (.nothing ?_ ?_)
    · rintro _ ⟨⟩
      exact ⟨verdict, rfl⟩
    · rintro _ ⟨⟩
      exact ⟨fault, rfl⟩
  | @admitted pool effects ticket instant reading resumed fits =>
    exact goes_on pool effects _ resumed (by rw [plane]) (.shows .admitted)
  | @lost pool effects ticket instant reason resumed =>
    simp only [resumed] at ran issued
    refine h.gives_back other pairs ran starts others (by rw [plane]) (fun submission present => ?_) issued
    cases here.symm.trans present
    exact ⟨_, rfl⟩

/-- An attempt that has nothing in the pool may come or go. -/
theorem Mirrors.unleased (h : s.Mirrors moves holder) {n : Nat} (plane : t.plane.pool = s.plane.pool)
    (before : ∀ submission, s.attempts n = some submission → submission.attempt.Unleased)
    (others : ∀ m, m ≠ n → t.attempts m = s.attempts m)
    (after : ∀ submission, t.attempts n = some submission → submission.attempt.Unleased) :
    t.Mirrors moves holder where
  pool := h.pool.trans plane.symm
  shown m submission present := by
    by_cases same : m = n
    · exact Or.inl (after submission (same ▸ present))
    · exact h.shown m submission (others m same ▸ present)
  owned call a kept := by
    rcases h.owned call a kept with failed | ⟨m, submission, held, present, shows⟩
    · exact Or.inl failed
    · refine Or.inr ⟨m, submission, held, ?_, shows⟩
      by_cases same : m = n
      · exact absurd (before submission (same ▸ present)) shows.leased
      · rw [others m same, present]
  issued := plane ▸ h.issued

/-- A submitted request begins an acquisition, or it is decided before. -/
theorem Mirrors.submit (h : s.Mirrors moves holder) (sound : s.Sound) (moment : Moment)
    (request : AdmissionRequest) :
    let begun := s.turn moment s.next ⟨request, s.plane.snapshot, .requested request⟩
    ∀ t : Service σ, t.plane = begun.plane → t.attempts = begun.attempts →
      Followed moves holder moment (.submit request) t := by
  intro begun t plane attempts
  have ready : Submission.Ready s.plane ⟨request, s.plane.snapshot, .requested request⟩ := .begins rfl rfl
  have turns := ready.turns moment
  have plane : t.plane = (Attempt.resume s.plane moment (.requested request)).1 := plane
  have present : ∀ m, t.attempts m = _ := fun m => (congrFun attempts m).trans (s.turn_present ..)
  have others : ∀ m, m ≠ s.next → t.attempts m = s.attempts m := fun m apart => by rw [present, if_neg apart]
  have here := present s.next
  rw [if_pos rfl] at here
  generalize (Attempt.resume s.plane moment (.requested request)).1 = q at turns plane
  generalize (Attempt.resume s.plane moment (.requested request)).2.2 = a at turns here
  have quiet : ∀ transport lease, Act.submit request ≠ .command (.releaseLease transport lease) := by simp
  cases turns with
  | @decided verdict requested unleased =>
    refine
      (h.unleased (by rw [plane]) (fun submission there => ?_) others fun submission there => ?_).followed quiet
    · exact absurd (sound.numbered _ submission there) (Nat.lt_irrefl _)
    · cases here.symm.trans there
      exact ⟨verdict, rfl⟩
  | @proceeded course acquisition _ _ follows origin proceeds =>
    rcases origin with acquiring | ⟨-, timeout, rfl⟩
    · cases acquiring
    · have ran := Traffic.run_acquire (Traffic.empty.run moves) course.route.transport timeout moment.tick
      have starts : ∀ entry ∈ [(moment.tick, Move.acquire course.route.transport timeout),
          (moment.tick, .resume (Traffic.empty.run moves).pool.nextLease)],
          entry.1 = moment.tick ∧ ∀ t, entry.2.Quiet t := by
        simp only [List.mem_cons, List.not_mem_nil, or_false]
        rintro entry (rfl | rfl)
        · exact ⟨rfl, fun _ => trivial⟩
        · exact ⟨rfl, fun _ => trivial⟩
      exact h.proceeded quiet (h.pairs_new sound) proceeds (h.pool ▸ ran) starts plane others here

/-- An attempt that goes on takes its acquisition with it. -/
theorem Mirrors.resume (h : s.Mirrors moves holder) (sound : s.Sound) (moment : Moment) {n : Nat}
    {submission : Submission} (present : s.attempts n = some submission)
    (unfinished : submission.attempt.isDone = false) :
    Followed moves holder moment (.resume n) (s.turn moment n submission) := by
  have turns := (sound.ready present unfinished).turns moment
  have turned := s.turn_present moment n submission
  have plane : (s.turn moment n submission).plane = (submission.attempt.resume s.plane moment).1 := rfl
  generalize s.turn moment n submission = t at turned plane ⊢
  have others : ∀ m, m ≠ n → t.attempts m = s.attempts m := fun m apart => by rw [turned, if_neg apart]
  have here := turned n
  rw [if_pos rfl] at here
  generalize (submission.attempt.resume s.plane moment).1 = q at turns plane
  generalize (submission.attempt.resume s.plane moment).2.2 = a at turns here
  have begun : ∀ request, submission.attempt ≠ .requested request := by
    intro request requested
    rcases sound.reached n submission present with ⟨_, _, acquiring, -⟩ | ⟨_, done⟩
    · cases requested.symm.trans acquiring
    · cases requested.symm.trans done
  have quiet : ∀ transport lease, Act.resume n ≠ .command (.releaseLease transport lease) := by simp
  cases turns with
  | decided requested => exact absurd requested (begun _)
  | @proceeded course acquisition _ _ follows origin proceeds =>
    rcases origin with acquiring | ⟨requested, -⟩
    · rcases h.shown n submission present with ⟨_, done⟩ | ⟨call, b, mine, kept, shows⟩
      · cases acquiring.symm.trans done
      · have pairs := pairs_of_shows mine present kept shows
        rw [acquiring] at shows
        have same : b = acquisition ∧ ∀ transport timeout, acquisition ≠ .requested transport timeout := by
          cases shows with
          | _ => exact ⟨rfl, nofun⟩
        obtain ⟨rfl, goes⟩ := same
        have ran : (Traffic.empty.run moves).run [(moment.tick, .resume call)] = _ :=
          Traffic.step_resume kept goes moment.tick
        have starts : ∀ entry ∈ [(moment.tick, Move.resume call)],
            entry.1 = moment.tick ∧ ∀ t, entry.2.Quiet t := by
          simp only [List.mem_singleton]
          rintro entry rfl
          exact ⟨rfl, fun _ => trivial⟩
        rw [h.pool] at ran
        exact h.proceeded quiet pairs proceeds ran starts plane others here
    · exact absurd requested (begun _)

theorem keep_others (s : Service σ) (p : Plane σ) (n : Nat) (kept : Option Submission) :
    ∀ m, m ≠ n → (s.keep p n kept).attempts m = s.attempts m := fun _ apart => if_neg apart

theorem keep_here (s : Service σ) (p : Plane σ) (n : Nat) (kept : Option Submission) :
    (s.keep p n kept).attempts n = kept := if_pos rfl

/-- An attempt that has nothing in the pool is forgotten. -/
theorem Mirrors.forget_unleased (h : s.Mirrors moves holder) {n : Nat} {submission : Submission}
    (present : s.attempts n = some submission) (unleased : submission.attempt.Unleased) {p : Plane σ}
    (same : p.pool = s.plane.pool) : (s.keep p n none).Mirrors moves holder := by
  refine h.unleased same (fun kept there => ?_) (keep_others s p n none) fun kept there => ?_
  · rw [present] at there
    cases there
    exact unleased
  · rw [keep_here] at there
    cases there

/-- An attempt is forgotten together with its acquisition. -/
theorem Mirrors.forget (h : s.Mirrors moves holder) {n call : Nat} (pairs : s.Pairs moves holder n call)
    (mine : holder call = some n) {p : Plane σ} {move : Nat × Move}
    (ran : (Traffic.empty.run moves).run [move] = (Traffic.empty.run moves).keep p.pool call none) :
    (s.keep p n none).Mirrors (moves ++ [move]) (assign holder call n) := by
  have grows := Traffic.nextLease_run_le (Traffic.empty.run moves) [move]
  rw [ran, h.pool] at grows
  refine h.update pairs ran (s.keep_others p n none) ?_ (Nat.lt_of_lt_of_le (h.issued call n mine) grows)
  rw [keep_here]
  refine .nothing ?_ ?_
  · rintro _ ⟨⟩
  · rintro _ ⟨⟩

theorem cancel_pool {attempt : Attempt} {a : Acquisition} (shows : attempt.Shows a) (p : Plane σ) :
    (attempt.cancel p moment).1.pool = (a.cancel p.pool moment.tick).1 := by
  cases shows with
  | _ => rfl

theorem Mirrors.cancel (h : s.Mirrors moves holder) {n : Nat} {submission : Submission}
    (present : s.attempts n = some submission) (moment : Moment) :
    Followed moves holder moment (.cancel n)
      (s.keep (submission.attempt.cancel s.plane moment).1 n none) := by
  rcases h.shown n submission present with unleased | ⟨call, a, mine, kept, shows⟩
  · have same : (submission.attempt.cancel s.plane moment).1.pool = s.plane.pool := by
      obtain ⟨verdict, done⟩ := unleased
      rw [done]
      rfl
    exact (h.forget_unleased present unleased same).followed nofun
  · have pairs := pairs_of_shows mine present kept shows
    have ran : (Traffic.empty.run moves).run [(moment.tick, .cancel call)] =
        (Traffic.empty.run moves).keep (submission.attempt.cancel s.plane moment).1.pool call none := by
      rw [cancel_pool shows, ← h.pool]
      simp only [Traffic.run, Traffic.step, kept]
    refine ⟨_, _, .quiet nofun fun entry member => ?_, h.forget pairs mine ran, fun _ _ => pairs.assign⟩
    rw [List.mem_singleton.mp member, ran]
    exact ⟨rfl, Traffic.keep_call _ _ _ _⟩

theorem Mirrors.detach (h : s.Mirrors moves holder) {n : Nat} {submission : Submission}
    (present : s.attempts n = some submission) (finished : submission.attempt.isDone = true)
    (moment : Moment) : Followed moves holder moment (.detach n) (s.keep s.plane n none) := by
  rcases h.shown n submission present with unleased | ⟨call, a, mine, kept, shows⟩
  · exact (h.forget_unleased present unleased rfl).followed nofun
  · have pairs := pairs_of_shows mine present kept shows
    have granted : ∃ ticket instant, a = .granted ticket instant := by
      generalize submission.attempt = attempt at shows finished
      cases shows with
      | admitted => exact ⟨_, _, rfl⟩
      | _ => cases finished
    obtain ⟨ticket, instant, rfl⟩ := granted
    have ran : (Traffic.empty.run moves).run [(moment.tick, .detach call)] =
        (Traffic.empty.run moves).keep s.plane.pool call none := by
      rw [← h.pool]
      simp only [Traffic.run, Traffic.step, kept]
    exact ⟨_, _, .detached, h.forget pairs mine ran, fun _ _ => pairs.assign⟩

/-- Moves that keep every acquisition change the pool only. -/
theorem Mirrors.repool (h : s.Mirrors moves holder) {p : Plane σ} {rest : List (Nat × Move)}
    (ran : (Traffic.empty.run moves).run rest = { Traffic.empty.run moves with pool := p.pool }) :
    Mirrors { s with plane := p } (moves ++ rest) holder where
  pool := by rw [Traffic.run_append, ran]
  shown n submission present := by
    rw [Traffic.run_append, ran]
    exact h.shown n submission present
  owned call a kept := by
    rw [Traffic.run_append, ran] at kept
    exact h.owned call a kept
  issued call n held := by
    have grows := Traffic.nextLease_run_le (Traffic.empty.run moves) rest
    rw [ran, h.pool] at grows
    exact Nat.lt_of_lt_of_le (h.issued call n held) grows

theorem Mirrors.command [ThrottleStore σ] (h : s.Mirrors moves holder) (moment : Moment) (command : Command) :
    Followed moves holder moment (.command command)
      { s with plane := command.perform moment s.plane } := by
  by_cases release : ∃ transport lease, command = .releaseLease transport lease
  · obtain ⟨transport, lease, rfl⟩ := release
    have released : ((Command.releaseLease transport lease).perform moment s.plane).pool =
        (s.plane.pool.release transport lease moment.tick).1 := rfl
    refine ⟨_, holder, .released, h.repool ?_, fun _ _ => id⟩
    rw [released, ← h.pool]
    rfl
  · rcases command.changes moment s.plane with changes | ⟨transport, lease, same, -⟩ | ⟨rfl, reclaimed⟩
    · obtain ⟨rest, kinds, ran⟩ := changes.reconfigures _ h.pool
      refine ⟨rest, holder, .quiet (fun transport lease same => ?_) fun entry member => ?_, h.repool ran,
        fun _ _ => id⟩
      · exact release ⟨transport, lease, Act.command.inj same⟩
      · rcases kinds entry member with ⟨transport, limits, rfl⟩ | ⟨keep, rfl⟩
        · exact ⟨rfl, trivial⟩
        · exact ⟨rfl, trivial⟩
    · exact absurd ⟨transport, lease, same⟩ release
    · refine ⟨[(moment.tick, .reclaim s.plane.settings.maxDelivery)], holder, .reclaimed, h.repool ?_,
        fun _ _ => id⟩
      rw [reclaimed, ← h.pool]
      rfl

/-- Each act is some moves on the pool. -/
theorem simulates [ThrottleStore σ] (h : s.Mirrors moves holder) (sound : s.Sound) (moment : Moment)
    (act : Act) : Followed moves holder moment act (s.step moment act) := by
  have stepped := s.steps moment act
  generalize s.step moment act = t at stepped
  cases stepped with
  | submitted request => exact h.submit sound moment request _ rfl rfl
  | resumed present unfinished => exact h.resume sound moment present unfinished
  | cancelled present => exact h.cancel present moment
  | detached present finished => exact h.detach present finished moment
  | commanded command => exact h.command moment command
  | idle quiet => exact h.followed fun _ _ => quiet _

end Service

end RelayRamp.Admission
