import RelayRamp.Proofs.Admission.Mirror
import RelayRamp.Store.Memory

/-!
# All or nothing

An attempt that is admitted with a lease has counted its batch in both windows; every other one has counted
nothing and left nothing in the pool. What is in the pool can be traced, through the moves of the whole run, to the
attempt that still waits for it or was admitted with it. The lease of a fresh admission is outstanding, unless
somebody had released it by its id while the attempt slept until its grant instant.
-/
namespace RelayRamp.Admission

open RelayRamp.Lease RelayRamp.Plane RelayRamp.Routing RelayRamp.Store RelayRamp.Time RelayRamp.Warmup

section Lists

variable {α : Type} {xs before after : List α} {x y : α}

theorem split_snoc (same : xs ++ [x] = before ++ after) : before = xs ++ [x] ∨ ∃ rest, xs = before ++ rest := by
  rcases List.eq_nil_or_concat after with rfl | ⟨rest, y, rfl⟩
  · exact Or.inl (by simpa using same.symm)
  · rw [List.concat_eq_append, ← List.append_assoc] at same
    exact Or.inr ⟨rest, (List.append_inj' same rfl).1⟩

theorem split_singleton (same : [x] = before ++ y :: after) : before = [] ∧ x = y := by
  cases before with
  | nil => exact ⟨rfl, (List.cons.inj same).1⟩
  | cons z rest => simp at same

end Lists

namespace Service

variable {σ : Type} {s : Service σ} {p : Plane σ} {acts : List (Moment × Act)} {moves rest : List (Nat × Move)}
  {holder holder' : Nat → Option Nat} {moment : Moment} {act : Act} {n : Nat} {ticket : LeaseTicket}

/-! ### The attempt of a ticket -/

/-- The ticket is that with which the attempt waits or was admitted. -/
def Bears (s : Service σ) (n : Nat) (ticket : LeaseTicket) : Prop :=
  (∃ submission, s.attempts n = some submission ∧ submission.attempt.ticket? = some ticket) ∨ s.Admits n ticket

/-- The attempt has the lease and sleeps, or it was admitted with it. -/
def Owns (s : Service σ) (n : Nat) (ticket : LeaseTicket) : Prop := s.Sleeps n ticket ∨ s.Admits n ticket

theorem Mirrors.bearing (h : s.Mirrors moves holder) {submission : Submission}
    (present : s.attempts n = some submission) (bears : submission.attempt.ticket? = some ticket) :
    holder ticket.leaseId = some n ∧
      ∃ a, (Traffic.empty.run moves).calls ticket.leaseId = some a ∧ submission.attempt.Shows a := by
  rcases h.shown n submission present with ⟨verdict, done⟩ | ⟨call, a, mine, kept, shows⟩
  · rw [done] at bears
    cases bears
  · obtain ⟨ticket', bears', has⟩ := shows.ticket
    cases bears.symm.trans bears'
    have own := Traffic.call_of_ticket kept has
    exact ⟨own ▸ mine, a, own ▸ kept, shows⟩

/-- A lease in hand before its attempt is decided is that of a sleeper. -/
theorem Mirrors.sleeper (h : s.Mirrors moves holder) {a : Acquisition}
    (mine : ∀ m, holder ticket.leaseId = some m → m = n)
    (unfinished : ∀ submission, s.attempts n = some submission → submission.attempt.isDone = false)
    (kept : (Traffic.empty.run moves).calls ticket.leaseId = some a) (holds : a.lease? = some ticket) :
    s.Sleeps n ticket := by
  rcases h.owned _ a kept with ⟨fault, rfl⟩ | ⟨m, submission, held, present, shows⟩
  · cases holds
  · cases mine m held
    have waits := unfinished submission present
    generalize attempt_eq : submission.attempt = attempt at shows waits
    cases shows with
    | queued => cases holds
    | pacing =>
      cases holds
      exact ⟨submission, _, _, present, attempt_eq⟩
    | admitted => cases waits

theorem Mirrors.asleep (h : s.Mirrors moves holder) (sleeps : s.Sleeps n ticket) :
    ∃ submission course grant, s.attempts n = some submission ∧
      submission.attempt = .acquiring course (.pacing ticket grant) ∧
      (Traffic.empty.run moves).calls ticket.leaseId = some (.pacing ticket grant) := by
  obtain ⟨submission, course, grant, present, acquiring⟩ := sleeps
  obtain ⟨-, a, kept, shows⟩ := h.bearing present (by rw [acquiring]; rfl)
  rw [acquiring] at shows
  cases shows with
  | pacing => exact ⟨submission, course, grant, present, acquiring, kept⟩

/-- Whoever waits for a place has an acquisition that waits for it. -/
theorem Mirrors.waiting (h : s.Mirrors moves holder) {key : WaitKey} (queues : s.Queues n key) :
    ∃ call ticket deadline, (Traffic.empty.run moves).calls call = some (.queued ticket key deadline) ∧
      holder call = some n := by
  obtain ⟨submission, course, ticket, deadline, present, acquiring⟩ := queues
  obtain ⟨mine, a, kept, shows⟩ := h.bearing present (by rw [acquiring]; rfl)
  rw [acquiring] at shows
  cases shows with
  | queued => exact ⟨_, ticket, deadline, kept, mine⟩

variable [ThrottleStore σ]

theorem decisions_grow (sound : s.Sound) (moment : Moment) (act : Act) :
    ∃ more, (s.step moment act).decisions = s.decisions ++ more := by
  cases step_counts sound moment act with
  | nothing decided record => exact ⟨decided, record⟩
  | admitted d record => exact ⟨[d], record⟩

theorem Admits.step (admits : s.Admits n ticket) (sound : s.Sound) (moment : Moment) (act : Act) :
    (s.step moment act).Admits n ticket := by
  obtain ⟨d, member, filed⟩ := admits
  obtain ⟨more, record⟩ := decisions_grow sound moment act
  exact ⟨d, record ▸ List.mem_append_left _ member, filed⟩

/-! ### Traces -/

/-- The lease was released by its id while the attempt slept. -/
def ReleasedAsleep (p : Plane σ) (acts : List (Moment × Act)) (n : Nat) (ticket : LeaseTicket) : Prop :=
  ∃ before moment after,
    acts = before ++ (moment, .command (.releaseLease ticket.transport ticket.leaseId)) :: after ∧
      ((opened p).run before).Sleeps n ticket

theorem ReleasedAsleep.more (released : ReleasedAsleep p acts n ticket) (last : Moment × Act) :
    ReleasedAsleep p (acts ++ [last]) n ticket := by
  obtain ⟨before, moment, after, rfl, sleeps⟩ := released
  exact ⟨before, moment, after ++ [last], by simp, sleeps⟩

/-- The moves of a run, with what they say about the attempts of the whole run. -/
structure Traced (p : Plane σ) (acts : List (Moment × Act)) (moves : List (Nat × Move))
    (holder : Nat → Option Nat) : Prop where
  mirrors : ((opened p).run acts).Mirrors moves holder
  /-- Whoever had a ticket at any time is the one who holds it. -/
  borne : ∀ before after n ticket, acts = before ++ after → ((opened p).run before).Bears n ticket →
    holder ticket.leaseId = some n
  /-- So is whoever waited for a place at any time. -/
  placed : ∀ before after n key, acts = before ++ after → ((opened p).run before).Queues n key →
    ∃ earlier later call ticket deadline, moves = earlier ++ later ∧
      (Traffic.empty.run earlier).calls call = some (.queued ticket key deadline) ∧ holder call = some n
  detached : ∀ before now after call ticket instant, moves = before ++ (now, .detach call) :: after →
    (Traffic.empty.run before).calls call = some (.granted ticket instant) →
      ∃ n, holder call = some n ∧ ((opened p).run acts).Admits n ticket
  /-- While an attempt sleeps, nothing ends its lease but a release by its id. -/
  undisturbed : ∀ n ticket, ((opened p).run acts).Sleeps n ticket →
    Traffic.Ended moves ticket.leaseId → ReleasedAsleep p acts n ticket
  released : ∀ n ticket, ReleasedAsleep p acts n ticket → Traffic.Ended moves ticket.leaseId

/-- A lease in hand that has ended, and is not yet that of an admission, was released while its attempt slept. -/
theorem Traced.ended_before (h : Traced p acts moves holder) {a : Acquisition}
    (only : ∀ m, holder ticket.leaseId = some m → m = n)
    (unfinished : ∀ submission, ((opened p).run acts).attempts n = some submission →
      submission.attempt.isDone = false)
    (kept : (Traffic.empty.run (moves ++ rest)).calls ticket.leaseId = some a) (holds : a.lease? = some ticket)
    (early : Traffic.Ended moves ticket.leaseId) : ReleasedAsleep p acts n ticket := by
  obtain ⟨old, kept', holds'⟩ := Traffic.in_hand_back early.spent kept holds
  exact h.undisturbed n ticket (h.mirrors.sleeper only unfinished kept' holds') early

/-- A lease that is in hand after an act, and was not yet that of an admission, has ended only by its release while
the attempt slept. -/
theorem Traced.ended_asleep (h : Traced p acts moves holder) (awake : ((opened p).run acts).Awake moment)
    (renders : Renders moment (Traffic.empty.run moves) act rest)
    (grows : ∀ call n, holder call = some n → holder' call = some n) {a : Acquisition}
    (mine : holder' ticket.leaseId = some n)
    (kept : (Traffic.empty.run (moves ++ rest)).calls ticket.leaseId = some a) (holds : a.lease? = some ticket)
    (unfinished : ∀ submission, ((opened p).run acts).attempts n = some submission →
      submission.attempt.isDone = false)
    (ended : Traffic.Ended (moves ++ rest) ticket.leaseId) :
    ReleasedAsleep p acts n ticket ∨
      act = .command (.releaseLease ticket.transport ticket.leaseId) ∧
        ((opened p).run acts).Sleeps n ticket := by
  have only : ∀ m, holder ticket.leaseId = some m → m = n := fun m held =>
    Option.some.inj ((grows _ m held).symm.trans mine)
  rcases Traffic.ended_append ended with early | ⟨earlier, now, move, later, same, freed⟩
  · exact Or.inl (h.ended_before only unfinished kept holds early)
  · cases renders with
    | quiet other each =>
      have quiet := (each (now, move) (by rw [same]; simp)).2
      cases freed with
      | released => cases quiet
      | reclaimed => cases quiet
      | @dropped call b ticket' present holds' own held =>
        -- The acquisition that an act cancels is gone afterwards, but this one is not.
        have mine' := (Traffic.run_ticketed _).own call b ticket' present holds'
        have gone : ((Traffic.empty.run moves).run rest).calls call = none := quiet
        rw [← Traffic.run_append, ← mine', own, kept] at gone
        cases gone
    | detached =>
      obtain ⟨-, last⟩ := split_singleton same
      cases last
      cases freed
    | @released transport lease =>
      obtain ⟨rfl, last⟩ := split_singleton same
      cases last
      have kept' : (Traffic.empty.run moves).calls ticket.leaseId = some a := by
        rwa [Traffic.run_append] at kept
      rw [List.append_nil] at freed
      cases freed with
      | released held =>
        rcases Traffic.in_hand_run moves kept' holds with there | early
        · have place := (Traffic.run_sound moves).holds_unique held there
          subst place
          exact Or.inr ⟨rfl, h.mirrors.sleeper only unfinished kept' holds⟩
        · exact Or.inl (h.ended_before only unfinished kept holds early)
    | reclaimed =>
      obtain ⟨rfl, last⟩ := split_singleton same
      cases last
      have kept' : (Traffic.empty.run moves).calls ticket.leaseId = some a := by
        rwa [Traffic.run_append] at kept
      rw [List.append_nil] at freed
      cases freed with
      | reclaimed found expired =>
        have sleeps := h.mirrors.sleeper only unfinished kept' holds
        obtain ⟨submission, course, grant, present, acquiring, pacing⟩ := h.mirrors.asleep sleeps
        have early := Sleeps.early (run_sound p acts) awake present acquiring
        exact absurd expired (Traffic.sleeping_unexpired pacing early found)

theorem quiet_not_detach {t : Traffic} {call : Nat} : ¬ Move.Quiet t (.detach call) := id

theorem Traced.bearer_step (h : Traced p acts moves holder)
    (mirrors : (((opened p).run acts).step moment act).Mirrors (moves ++ rest) holder')
    (grows : ∀ call n, holder call = some n → holder' call = some n)
    (bears : (((opened p).run acts).step moment act).Bears n ticket) : holder' ticket.leaseId = some n := by
  have kept : ∀ submission, (((opened p).run acts).step moment act).attempts n = some submission →
      submission.attempt.ticket? = some ticket → holder' ticket.leaseId = some n :=
    fun submission present has => (mirrors.bearing present has).1
  rcases bears with ⟨submission, present, has⟩ | ⟨d, member, rfl, lease⟩
  · exact kept submission present has
  · rcases step_decided (run_sound p acts) member with old | ⟨-, submission, present, done⟩
    · exact grows _ _ (h.borne acts [] _ _ (List.append_nil _).symm (Or.inr ⟨d, old, rfl, lease⟩))
    · exact kept submission present (by rw [done]; exact lease)

/-- A lease that is kept out is that of an attempt that was admitted with it. -/
theorem Traced.detached_step (h : Traced p acts moves holder)
    (renders : Renders moment (Traffic.empty.run moves) act rest)
    {earlier later : List (Nat × Move)} {now call instant : Nat}
    (split : rest = earlier ++ (now, .detach call) :: later)
    (granted : (Traffic.empty.run (moves ++ earlier)).calls call = some (.granted ticket instant)) :
    ∃ n, holder call = some n ∧ ((opened p).run acts).Admits n ticket := by
  cases renders with
  | quiet other each => exact absurd (each (now, .detach call) (by rw [split]; simp)).2 quiet_not_detach
  | detached =>
    obtain ⟨rfl, last⟩ := split_singleton split
    cases last
    rw [List.append_nil] at granted
    rcases h.mirrors.owned call _ granted with ⟨fault, failed⟩ | ⟨n, submission, mine, present, shows⟩
    · cases failed
    · generalize done : submission.attempt = attempt at shows
      cases shows with
      | admitted =>
        obtain ⟨d, member, number, filed⟩ := (run_recorded p acts).kept n submission _ present done
        exact ⟨n, mine, d, member, number, by rw [filed]⟩
  | released =>
    obtain ⟨-, last⟩ := split_singleton split
    cases last
  | reclaimed =>
    obtain ⟨-, last⟩ := split_singleton split
    cases last

theorem Traced.undisturbed_step (h : Traced p acts moves holder) (awake : ((opened p).run acts).Awake moment)
    (renders : Renders moment (Traffic.empty.run moves) act rest)
    (mirrors : (((opened p).run acts).step moment act).Mirrors (moves ++ rest) holder')
    (grows : ∀ call n, holder call = some n → holder' call = some n)
    (sleeps : (((opened p).run acts).step moment act).Sleeps n ticket)
    (ended : Traffic.Ended (moves ++ rest) ticket.leaseId) :
    ReleasedAsleep p (acts ++ [(moment, act)]) n ticket := by
  obtain ⟨submission, course, grant, present, acquiring, kept⟩ := mirrors.asleep sleeps
  have mine := (mirrors.bearing present (by rw [acquiring]; rfl)).1
  have unfinished : ∀ submission, ((opened p).run acts).attempts n = some submission →
      submission.attempt.isDone = false :=
    fun old before => step_unfinished (run_sound p acts) present (by rw [acquiring]; rfl) before
  rcases h.ended_asleep awake renders grows mine kept rfl unfinished ended with before | ⟨rfl, asleep⟩
  · exact before.more _
  · exact ⟨acts, moment, [], rfl, asleep⟩

/-- The lease of a sleeper ends when it is released by its id. -/
theorem Traced.released_step (h : Traced p acts moves holder)
    (renders : Renders moment (Traffic.empty.run moves)
      (.command (.releaseLease ticket.transport ticket.leaseId)) rest)
    (sleeps : ((opened p).run acts).Sleeps n ticket) : Traffic.Ended (moves ++ rest) ticket.leaseId := by
  obtain ⟨submission, course, grant, present, acquiring, kept⟩ := h.mirrors.asleep sleeps
  cases renders with
  | quiet other each => exact absurd rfl (other _ _)
  | released =>
    rcases Traffic.in_hand_run moves kept rfl with held | early
    · exact ⟨moves, _, _, [], rfl, .released held⟩
    · exact Traffic.Ended.more early _

theorem Traced.step (h : Traced p acts moves holder) (awake : ((opened p).run acts).Awake moment) :
    ∃ rest holder', Traced p (acts ++ [(moment, act)]) (moves ++ rest) holder' := by
  have sound := run_sound p acts
  obtain ⟨rest, holder', renders, mirrors, grows⟩ := simulates h.mirrors sound moment act
  have after : (opened p).run (acts ++ [(moment, act)]) = ((opened p).run acts).step moment act := by
    rw [run_append]
    rfl
  refine ⟨rest, holder', ⟨after ▸ mirrors, ?_, ?_, ?_, ?_, ?_⟩⟩
  · intro before later n ticket same bears
    rcases split_snoc same with rfl | ⟨between, rfl⟩
    · exact h.bearer_step mirrors grows (after ▸ bears)
    · exact grows _ _ (h.borne before between n ticket rfl bears)
  · intro before later n key same queues
    rcases split_snoc same with rfl | ⟨between, rfl⟩
    · obtain ⟨call, ticket, deadline, waits, mine⟩ := mirrors.waiting (after ▸ queues)
      exact ⟨moves ++ rest, [], call, ticket, deadline, (List.append_nil _).symm, waits, mine⟩
    · obtain ⟨earlier, more, call, ticket, deadline, rfl, waits, mine⟩ :=
        h.placed before between n key rfl queues
      exact ⟨earlier, more ++ rest, call, ticket, deadline, List.append_assoc .., waits, grows _ _ mine⟩
  · intro before now later call ticket instant same granted
    rw [after]
    have owner : ∃ n, holder call = some n ∧ ((opened p).run acts).Admits n ticket := by
      rcases split_append same with ⟨between, rfl⟩ | ⟨earlier, rfl, split⟩
      · exact h.detached before now between call ticket instant rfl granted
      · exact h.detached_step renders split granted
    obtain ⟨n, mine, admits⟩ := owner
    exact ⟨n, grows _ _ mine, admits.step sound moment act⟩
  · intro n ticket sleeps ended
    exact h.undisturbed_step awake renders mirrors grows (after ▸ sleeps) ended
  · rintro n ticket ⟨before, instant, later, same, sleeps⟩
    rcases split_append same with ⟨between, rfl⟩ | ⟨earlier, rfl, split⟩
    · exact (h.released n ticket ⟨before, instant, between, rfl, sleeps⟩).more rest
    · obtain ⟨rfl, last⟩ := split_singleton split
      cases last
      exact h.released_step renders (by rwa [List.append_nil] at sleeps)

theorem launched_traced {store : σ} {settings : EngineSettings} {effects : Effects}
    (launched : Plane.launch store settings moment = .ok (p, effects)) :
    ∃ moves, Traced p [] moves fun _ => none := by
  obtain ⟨moves, ran, kinds⟩ := launch_pool launched
  have pool : (Traffic.empty.run moves).pool = p.pool := by rw [ran]
  have nobody : ∀ call, (Traffic.empty.run moves).calls call = none := fun call => by rw [ran]
  have only : ∀ before now move after, moves = before ++ (now, move) :: after →
      (∃ transport limits, move = .configure transport limits) ∨ ∃ keep, move = .retain keep := by
    rintro before now move after rfl
    rcases kinds (now, move) (by simp) with ⟨transport, limits, same⟩ | ⟨keep, same⟩
    · exact Or.inl ⟨transport, limits, (Prod.mk.inj same).2⟩
    · exact Or.inr ⟨keep, (Prod.mk.inj same).2⟩
  refine ⟨moves, ⟨⟨pool, fun n submission present => ?_, fun call a kept => ?_, fun call n held => ?_⟩,
    fun before after n ticket same bears => ?_, fun before after n key same queues => ?_,
    fun before now after call ticket instant same _ => ?_, fun n ticket sleeps _ => ?_,
    fun n ticket released => ?_⟩⟩
  · cases present
  · rw [nobody] at kept
    cases kept
  · cases held
  · obtain ⟨rfl, rfl⟩ := List.append_eq_nil_iff.mp same.symm
    rcases bears with ⟨_, present, -⟩ | ⟨_, member, -⟩
    · cases present
    · cases member
  · obtain ⟨rfl, rfl⟩ := List.append_eq_nil_iff.mp same.symm
    obtain ⟨_, _, _, _, present, -⟩ := queues
    cases present
  · rcases only before now _ after same with ⟨_, _, other⟩ | ⟨_, other⟩
    · cases other
    · cases other
  · obtain ⟨_, _, _, present, -⟩ := sleeps
    cases present
  · obtain ⟨before, _, after, same, -⟩ := released
    simp at same

theorem run_traced {store : σ} {settings : EngineSettings} {effects : Effects}
    (launched : Plane.launch store settings moment = .ok (p, effects)) (prompt : (opened p).Prompt acts) :
    ∃ moves holder, Traced p acts moves holder := by
  induction acts using List.reverseRecOn with
  | nil =>
    obtain ⟨moves, traced⟩ := launched_traced launched
    exact ⟨moves, _, traced⟩
  | append_singleton acts last ih =>
    obtain ⟨before, awake, -⟩ := (prompt_append _ acts [last]).mp prompt
    obtain ⟨moves, holder, traced⟩ := ih before
    obtain ⟨rest, holder', traced'⟩ := traced.step awake
    exact ⟨_, holder', traced'⟩

/-! ### What is left in the pool -/

/-- A place in the pool is of the one attempt that ever waited for it, and waits still. -/
theorem Traced.place_owner (h : Traced p acts moves holder) {key : WaitKey} {slot : Slot}
    (found : ((opened p).run acts).plane.pool.slot? key.generation = some slot)
    (member : key.waiter ∈ slot.waiterIds) :
    ∃ n, ((opened p).run acts).Queues n key ∧
      ∀ before after other, acts = before ++ after → ((opened p).run before).Queues other key → other = n := by
  rw [← h.mirrors.pool] at found
  obtain ⟨call, ticket, deadline, waits⟩ := Traffic.run_awaited moves found member
  rcases h.mirrors.owned call _ waits with ⟨fault, failed⟩ | ⟨n, submission, mine, present, shows⟩
  · cases failed
  · refine ⟨n, ?_, fun before after other same queues => ?_⟩
    · generalize acquiring : submission.attempt = attempt at shows
      cases shows with
      | queued => exact ⟨submission, _, ticket, deadline, present, acquiring⟩
    · obtain ⟨earlier, later, call', ticket', deadline', rfl, waited, held⟩ :=
        h.placed before after other key same queues
      cases Traffic.place_once waited waits found
      exact Option.some.inj (held.symm.trans mine)

/-- An outstanding lease is of the one attempt that ever had its ticket: it sleeps, or was admitted with it. -/
theorem Traced.lease_owner (h : Traced p acts moves holder) {transport : TransportName} {lease : Nat}
    (held : ((opened p).run acts).plane.pool.Holds transport lease) :
    ∃ n, ((opened p).run acts).Owns n ⟨transport, lease⟩ ∧
      ∀ before after other, acts = before ++ after →
        ((opened p).run before).Bears other ⟨transport, lease⟩ → other = n := by
  rw [← h.mirrors.pool] at held
  have owner : ∃ n, holder lease = some n ∧ ((opened p).run acts).Owns n ⟨transport, lease⟩ := by
    rcases Traffic.holds_owner held with ⟨a, kept, holds⟩ | ⟨before, now, after, instant, same, granted⟩
    · rcases h.mirrors.owned lease a kept with ⟨fault, rfl⟩ | ⟨n, submission, mine, present, shows⟩
      · cases holds
      · refine ⟨n, mine, ?_⟩
        generalize reached : submission.attempt = attempt at shows
        cases shows with
        | queued => cases holds
        | pacing =>
          cases holds
          exact Or.inl ⟨submission, _, _, present, reached⟩
        | admitted =>
          cases holds
          obtain ⟨d, member, number, filed⟩ := (run_recorded p acts).kept n submission _ present reached
          exact Or.inr ⟨d, member, number, by rw [filed]⟩
    · obtain ⟨n, mine, admits⟩ := h.detached before now after lease _ instant same granted
      exact ⟨n, mine, Or.inr admits⟩
  obtain ⟨n, mine, owns⟩ := owner
  refine ⟨n, owns, fun before after other same bears => ?_⟩
  exact Option.some.inj ((h.borne before after other _ same bears).symm.trans mine)

/-- The lease of a fresh admission is outstanding, unless it was released while its attempt slept. -/
theorem Traced.fresh_lease (h : Traced p acts moves holder) (awake : ((opened p).run acts).Awake moment)
    {d : Decision}
    (record : (((opened p).run acts).step moment act).decisions = ((opened p).run acts).decisions ++ [d])
    (lease : d.admission.lease = some ticket) :
    (((opened p).run acts).step moment act).plane.pool.Holds ticket.transport ticket.leaseId ↔
      ¬ ReleasedAsleep p acts d.number ticket := by
  have sound := run_sound p acts
  obtain ⟨rest, holder', renders, mirrors, grows⟩ := simulates h.mirrors sound moment act
  have last : d ∈ (((opened p).run acts).step moment act).decisions := by rw [record]; simp
  have new : d ∉ ((opened p).run acts).decisions := by
    intro old
    have once := (recorded_step sound (run_recorded p acts) moment act).once
    rw [record, List.map_append] at once
    exact (List.nodup_append.mp once).2.2 _ (List.mem_map_of_mem old) _ (List.mem_singleton_self _) rfl
  rcases step_decided sound last with old | ⟨unfinished, submission, present, done⟩
  · exact absurd old new
  · obtain ⟨mine, a, kept, shows⟩ := mirrors.bearing present (by rw [done]; exact lease)
    have holds : a.lease? = some ticket := by
      rw [done] at shows
      generalize same : Attempt.decided d.admission = attempt at shows
      cases shows with
      | admitted =>
        rw [Attempt.decided.inj same] at lease
        exact lease
      | _ => cases same
    rw [← mirrors.pool]
    constructor
    · intro held released
      have ended := (h.released _ _ released).more rest
      exact ended.spent.unheld (Traffic.run_sound _).numbered ticket.transport held
    · intro unreleased
      rcases Traffic.in_hand_run _ kept holds with held | ended
      · exact held
      · rcases h.ended_asleep awake renders grows mine kept holds unfinished ended with released | ⟨rfl, -⟩
        · exact absurd released unreleased
        · exact absurd last new

/-- Admission is all or nothing. In every run from the opening of a plane, with any acts in any order in which no
attempt sleeps past its grant instant: each attempt is decided once at most and waits no longer then, and one that
is cancelled before is gone and never decided. Each queued or handed entry of the pool is that of the one attempt that
ever had the place, and it waits there still. Each outstanding lease is that of the one attempt that ever had the
ticket; it sleeps until its grant instant, or was admitted with it. The next act either admits one attempt with a
lease and counts its batch in both windows, or admits none with a lease and counts nothing. The lease of an
admission is outstanding then, unless it was released by its id while the attempt slept. -/
theorem all_or_nothing {store : σ} {settings : EngineSettings} {opening : Moment} {effects : Effects}
    (launched : Plane.launch store settings opening = .ok (p, effects)) (prompt : (opened p).Prompt acts) :
    let s := (opened p).run acts
    (s.decisions.map (·.number)).Nodup ∧
    (∀ d ∈ s.decisions, d.admission.verdict.ticket? = d.admission.lease ∧
      ∀ submission, s.attempts d.number = some submission → submission.attempt = .decided d.admission) ∧
    (∀ before moment n after submission, acts = before ++ (moment, .cancel n) :: after →
      ((opened p).run before).attempts n = some submission → submission.attempt.isDone = false →
      s.attempts n = none ∧ ∀ d ∈ s.decisions, d.number ≠ n) ∧
    (∀ key slot, s.plane.pool.slot? key.generation = some slot →
      key.waiter ∈ slot.waiters.map (·.id) ∨ key.waiter ∈ slot.handed.map (·.1) →
      ∃ n, s.Queues n key ∧
        ∀ before after other, acts = before ++ after → ((opened p).run before).Queues other key → other = n) ∧
    (∀ transport lease, s.plane.pool.Holds transport lease →
      ∃ n, s.Owns n ⟨transport, lease⟩ ∧
        ∀ before after other, acts = before ++ after →
          ((opened p).run before).Bears other ⟨transport, lease⟩ → other = n) ∧
    ∀ moment act, s.Awake moment →
      let t := s.step moment act
      (∃ d ticket, t.decisions = s.decisions ++ [d] ∧ d.admission.lease = some ticket ∧
        t.plane.counters = (s.plane.counters.rolled moment.wall).plus d.request.batchSize ∧
        (t.plane.pool.Holds ticket.transport ticket.leaseId ↔ ¬ ReleasedAsleep p acts d.number ticket)) ∨
      ∃ others, t.decisions = s.decisions ++ others ∧ (∀ d ∈ others, d.admission.lease = none) ∧
        (t.plane.counters = s.plane.counters ∨ t.plane.counters = s.plane.counters.rolled moment.wall) := by
  intro s
  obtain ⟨moves, holder, traced⟩ := run_traced launched prompt
  have sound := run_sound p acts
  have recorded := run_recorded p acts
  refine ⟨recorded.once, ?_, ?_, ?_, ?_, ?_⟩
  · intro d member
    exact ⟨recorded.named d member, fun submission present => recorded.decided_is sound member present⟩
  · rintro before moment n after submission rfl present unfinished
    have gone := cancelled_gone p before after moment present unfinished
    exact ⟨gone.forgotten, gone.undecided⟩
  · intro key slot found place
    exact traced.place_owner found (List.mem_append.mpr place)
  · intro transport lease held
    exact traced.lease_owner held
  · intro moment act awake t
    cases step_counts sound moment act with
    | nothing others record unleased counters => exact Or.inr ⟨others, record, unleased, counters⟩
    | @admitted d ticket course record lease present follows fits counters =>
      refine Or.inl ⟨d, ticket, record, lease, ?_, traced.fresh_lease awake record lease⟩
      rw [← follows.amount]
      exact counters

omit [ThrottleStore σ] in
/-- Four attempts of which one is admitted at once and one is cancelled while it sleeps. The next to wake is
admitted and has its lease; the last loses its commit and returns its lease. -/
theorem all_or_nothing_contended :
    let config : WarmupConfig := { WarmupConfig.fresh ⟨0⟩ with enabled := true }
    let store : MemoryStore := { MemoryStore.empty with config, phases := [⟨0, "start", 7, ⟨5, 8, 5⟩⟩] }
    let request (items : Nat) : Act := .submit ⟨"someone@example.org", items, none, none⟩
    let transport : TransportName := ⟨"default"⟩
    let acts : List (Moment × Act) :=
      [(⟨⟨1⟩, 0⟩, request 3), (⟨⟨2⟩, 0⟩, request 2), (⟨⟨3⟩, 0⟩, request 1), (⟨⟨4⟩, 0⟩, request 1),
        (⟨⟨5⟩, 0⟩, .cancel 3)]
    ∃ p effects, Plane.launch store .standard ⟨⟨0⟩, 0⟩ = .ok (p, effects) ∧ (opened p).Prompt acts ∧
      let s := ((opened p).run acts).step ⟨⟨6⟩, 1000⟩ (.resume 1)
      let t := s.step ⟨⟨7⟩, 2000⟩ (.resume 2)
      s.plane.pool.Holds transport 2 ∧
      t.decisions.map (fun d => (d.number, d.admission.lease)) =
        [(0, some ⟨transport, 1⟩), (1, some ⟨transport, 2⟩), (2, none)] ∧
      (t.plane.pool.find? transport).map (fun g => g.slot.leases.map (·.1)) = some [1, 2] := by
  intro config store request transport acts
  have waking : ((Plane.launch store .standard ⟨⟨0⟩, 0⟩).toOption.map fun launched =>
      let s := (opened launched.1).run acts
      (decide ((opened launched.1).Prompt (acts ++ [(⟨⟨6⟩, 1000⟩, .resume 1)])),
        s.decisions.map (fun d => (d.number, d.admission.lease)),
        (s.step ⟨⟨6⟩, 1000⟩ (.resume 1)).decisions.map fun d => (d.number, d.admission.lease))) =
      some (true, [(0, some ⟨transport, 1⟩)], [(0, some ⟨transport, 1⟩), (1, some ⟨transport, 2⟩)]) := by
    decide +kernel
  have losing : ((Plane.launch store .standard ⟨⟨0⟩, 0⟩).toOption.map fun launched =>
      let t := (((opened launched.1).run acts).step ⟨⟨6⟩, 1000⟩ (.resume 1)).step ⟨⟨7⟩, 2000⟩ (.resume 2)
      (t.decisions.map (fun d => (d.number, d.admission.lease)),
        (t.plane.pool.find? transport).map fun g => g.slot.leases.map (·.1))) =
      some ([(0, some ⟨transport, 1⟩), (1, some ⟨transport, 2⟩), (2, none)], some [1, 2]) := by
    decide +kernel
  cases launched : Plane.launch store .standard ⟨⟨0⟩, 0⟩ with
  | error fault =>
    rw [launched] at waking
    cases waking
  | ok opening =>
    obtain ⟨p, effects⟩ := opening
    rw [launched] at waking losing
    simp only [Except.toOption, Option.map_some, Option.some.injEq, Prod.mk.injEq, decide_eq_true_eq]
      at waking losing
    obtain ⟨prompt, before, after⟩ := waking
    obtain ⟨prompt, awake, -⟩ := (prompt_append _ acts _).mp prompt
    refine ⟨p, effects, rfl, prompt, ?_, losing⟩
    rcases (all_or_nothing launched prompt).2.2.2.2.2 ⟨⟨6⟩, 1000⟩ (.resume 1) awake with
      ⟨d, ticket, record, lease, -, outstanding⟩ | ⟨others, record, unleased, -⟩
    · rw [record, List.map_append, before] at after
      have same : (d.number, d.admission.lease) = (1, some ⟨transport, 2⟩) := by simpa using after
      cases lease.symm.trans (Prod.mk.inj same).2
      refine outstanding.mpr ?_
      rintro ⟨earlier, moment, later, split, -⟩
      have member : (moment, Act.command (.releaseLease transport 2)) ∈ acts := by rw [split]; simp
      simp [acts, request] at member
    · rw [record, List.map_append, before] at after
      have same : others.map (fun d => (d.number, d.admission.lease)) = [(1, some ⟨transport, 2⟩)] := by
        simpa using after
      obtain ⟨d, member, same⟩ := List.mem_map.mp (same ▸ List.mem_singleton_self _)
      rw [unleased d member] at same
      cases (Prod.mk.inj same).2

omit [ThrottleStore σ] in
/-- The second of two attempts sleeps until its grant instant when an operator releases its lease. It is admitted
with the lease all the same, which is not outstanding. -/
theorem admitted_after_release :
    let config : WarmupConfig := { WarmupConfig.fresh ⟨0⟩ with enabled := true }
    let store : MemoryStore := { MemoryStore.empty with config, phases := [⟨0, "start", 7, ⟨5, 8, 5⟩⟩] }
    let request : Act := .submit ⟨"someone@example.org", 1, none, none⟩
    let transport : TransportName := ⟨"default"⟩
    let acts : List (Moment × Act) :=
      [(⟨⟨1⟩, 0⟩, request), (⟨⟨2⟩, 0⟩, request), (⟨⟨3⟩, 0⟩, .command (.releaseLease transport 2)),
        (⟨⟨4⟩, 1000⟩, .resume 1)]
    ∃ p effects, Plane.launch store .standard ⟨⟨0⟩, 0⟩ = .ok (p, effects) ∧ (opened p).Prompt acts ∧
      let s := (opened p).run acts
      s.decisions.map (fun d => (d.number, d.admission.verdict.ticket?)) =
        [(0, some ⟨transport, 1⟩), (1, some ⟨transport, 2⟩)] ∧
      ¬ s.plane.pool.Holds transport 2 := by
  intro config store request transport acts
  have facts : ((Plane.launch store .standard ⟨⟨0⟩, 0⟩).toOption.map fun launched =>
      let s := (opened launched.1).run acts
      (decide ((opened launched.1).Prompt acts),
        s.decisions.map fun d => (d.number, d.admission.verdict.ticket?),
        (s.plane.pool.find? transport).map fun g => g.slot.leases.map (·.1))) =
      some (true, [(0, some ⟨transport, 1⟩), (1, some ⟨transport, 2⟩)], some [1]) := by decide +kernel
  cases launched : Plane.launch store .standard ⟨⟨0⟩, 0⟩ with
  | error fault =>
    rw [launched] at facts
    cases facts
  | ok opening =>
    obtain ⟨p, effects⟩ := opening
    rw [launched] at facts
    simp only [Except.toOption, Option.map_some, Option.some.injEq, Prod.mk.injEq, decide_eq_true_eq] at facts
    obtain ⟨prompt, decisions, leases⟩ := facts
    refine ⟨p, effects, rfl, prompt, decisions, ?_⟩
    rintro ⟨g, found, held⟩
    rw [found] at leases
    have left : g.slot.leases.map (·.1) = [1] := Option.some.inj leases
    rw [left] at held
    exact absurd held (by decide)

end Service

end RelayRamp.Admission
