import RelayRamp.Proofs.Lease.Clock
import RelayRamp.Proofs.Lease.Turns
import RelayRamp.Proofs.Lease.Unserved

/-!
# Acquisitions in time

While an acquisition is in progress its deadline has not passed. A queued one listens, was handed a slot for an instant
within the deadline, or was passed over at this very instant because no grant within its time was left; one with a lease
in hand sleeps until an instant within the deadline. No move changes this, unless it calls the acquisition off, and
neither does the clock: it waits for all that can go on.
-/
namespace RelayRamp.Lease

open RelayRamp.Admission RelayRamp.Routing Caller

namespace Acquisition

variable {p : Pool} {now deadline : Nat} {ticket : LeaseTicket} {key : WaitKey}

/-- An acquisition that waits on is in its queue, with nothing handed to it and its deadline still to come. -/
theorem resumeQueued_waits (waits : (resumeQueued p now ticket key deadline).2.2 = .queued ticket key deadline) :
    now < deadline ∧ ∃ s, p.slot? key.generation = some s ∧ key.waiter ∈ s.waiters.map (·.id) ∧
      key.waiter ∉ s.handed.map (·.1) := by
  rcases resumeQueued_cases p now ticket key deadline with
    ⟨_, _, grant, -, -, result⟩ | ⟨s, found, unclaimed, ⟨queued, before⟩, -⟩ | ⟨-, _, result⟩
  · rw [result] at waits
    rcases paced_cases ticket grant now with ⟨-, same⟩ | ⟨-, same⟩ <;> cases waits.symm.trans same
  · obtain ⟨w, inside, same⟩ := List.any_eq_true.mp queued
    exact ⟨before, s, found, List.mem_map.mpr ⟨w, inside, of_decide_eq_true same⟩, Slot.unclaimed_unhanded unclaimed⟩
  · rw [result] at waits
    cases waits

/-- An acquisition that fails in its queue is past its deadline or has no place any more. -/
theorem resumeQueued_fails {fault : LeaseFault}
    (fails : (resumeQueued p now ticket key deadline).2.2 = .failed fault) :
    fault = .timedOut ticket.transport.text ∧
      (deadline ≤ now ∨ ∀ s, p.slot? key.generation = some s → key.waiter ∉ s.waiterIds) := by
  rcases resumeQueued_cases p now ticket key deadline with
    ⟨_, _, grant, -, -, result⟩ | ⟨_, -, -, -, result⟩ | ⟨ends, _, result⟩
  · rw [result] at fails
    exact absurd fails.symm (paced_not_failed ticket grant now fault)
  · rw [result] at fails
    cases fails
  · rw [result] at fails
    cases fails
    refine ⟨rfl, (Nat.lt_or_ge now deadline).symm.imp_right fun early s found member => ?_⟩
    obtain ⟨unclaimed, leaves⟩ := ends s found
    rcases List.mem_append.mp member with queued | handed
    · obtain ⟨w, inside, same⟩ := List.mem_map.mp queued
      exact leaves ⟨List.any_eq_true.mpr ⟨w, inside, decide_eq_true same⟩, early⟩
    · exact Slot.unclaimed_unhanded unclaimed handed

end Acquisition

namespace Traffic

/-- The acquisition began in the run. -/
def Began (moves : List (Nat × Move)) (call start : Nat) (transport : TransportName) (timeout : Nat) : Prop :=
  ∃ before after, moves = before ++ (start, .acquire transport timeout) :: after ∧
    call = (empty.run before).pool.nextLease

/-- The acquisition has begun and is not answered yet. -/
def InProgress (t : Traffic) (call : Nat) : Prop := ∃ a, t.calls call = some a ∧ a.isDone = false

/-- The acquisition was cancelled in the run before it was answered. -/
def CalledOff (moves : List (Nat × Move)) (call : Nat) : Prop :=
  ∃ before now move after, moves = before ++ (now, move) :: after ∧
    (move = .cancel call ∨ move = .hangUp call .cancelled) ∧ (empty.run before).InProgress call

/-- The acquisition was refused in the run, at an instant, because the earliest grant that kept the rate delay to the
last one was past its deadline at that moment. -/
inductive Refused (moves : List (Nat × Move)) (call deadline instant : Nat) : Prop where
  | onEntry {before after : List (Nat × Move)} {transport : TransportName} {timeout : Nat} {g : Generation}
      (split : moves = before ++ (instant, .acquire transport timeout) :: after)
      (mine : call = (empty.run before).pool.nextLease)
      (found : (empty.run before).pool.find? transport = some g)
      (turnedAway : (g.slot.enter instant call deadline).2 = .tooLate)
      (past : deadline < g.slot.nextGrant instant)
  /-- In its turn, after the turns that were taken before in the same operation. -/
  | inTurn {before after : List (Nat × Move)} {move : Move} {ticket : LeaseTicket} {key : WaitKey} {s : Slot}
      {op : Operation} {earlier later : List Turn} {earliest : Nat}
      (split : moves = before ++ (instant, move) :: after)
      (waits : (empty.run before).calls call = some (.queued ticket key deadline))
      (found : (empty.run before).pool.slot? key.generation = some s)
      (performed : (empty.run before).operation? instant move key.generation = some op)
      (skipped : (s.step instant op).2 = earlier ++ .late key.waiter earliest :: later)
      (moment : earliest = ((s.pacedFor instant op).takeAll earlier).nextGrant instant)
      (past : deadline < earliest)

/-- Where a queued acquisition stands at an instant. -/
inductive Stands (moves : List (Nat × Move)) (now call deadline : Nat) (key : WaitKey) : Prop where
  | listening {s : Slot} (found : (empty.run moves).pool.slot? key.generation = some s)
      (queued : ⟨key.waiter, deadline, true⟩ ∈ s.waiters)
  | served (served : (empty.run moves).served call = true)
  | refused (refused : Refused moves call deadline now)
      (gone : ∀ s, (empty.run moves).pool.slot? key.generation = some s → key.waiter ∉ s.waiterIds)
  | due (reached : deadline ≤ now)

/-- How an acquisition in progress stands at an instant. -/
inductive InTime (moves : List (Nat × Move)) (now call : Nat) (transport : TransportName) (deadline : Nat) :
    Acquisition → Prop where
  | queued {key : WaitKey} (early : now ≤ deadline)
      (handed : ∀ s, (empty.run moves).pool.slot? key.generation = some s →
        ∀ grant, (key.waiter, grant) ∈ s.handed → now ≤ grant ∧ grant ≤ deadline)
      (stands : Stands moves now call deadline key) :
      InTime moves now call transport deadline (.queued ⟨transport, call⟩ key deadline)
  | pacing {grant : Nat} (early : now ≤ grant) (inTime : grant ≤ deadline) :
      InTime moves now call transport deadline (.pacing ⟨transport, call⟩ grant)

variable {moves : List (Nat × Move)} {call start timeout deadline now : Nat}
  {transport : TransportName} {key : WaitKey} {ticket : LeaseTicket} {move : Move} {s : Slot} {a : Acquisition}

/-! ### Longer runs -/

theorem Began.more (began : Began moves call start transport timeout) (more : List (Nat × Move)) :
    Began (moves ++ more) call start transport timeout := by
  obtain ⟨before, after, rfl, mine⟩ := began
  exact ⟨before, after ++ more, by simp, mine⟩

theorem CalledOff.more (calledOff : CalledOff moves call) (more : List (Nat × Move)) :
    CalledOff (moves ++ more) call := by
  obtain ⟨before, now, move, after, rfl, ends⟩ := calledOff
  exact ⟨before, now, move, after ++ more, by simp, ends⟩

theorem Refused.more {instant : Nat} (refused : Refused moves call deadline instant) (more : List (Nat × Move)) :
    Refused (moves ++ more) call deadline instant := by
  cases refused with
  | onEntry split mine found turnedAway past =>
    exact .onEntry (by rw [split, List.append_assoc, List.cons_append]) mine found turnedAway past
  | inTurn split waits found performed skipped moment past =>
    exact .inTurn (by rw [split, List.append_assoc, List.cons_append]) waits found performed skipped moment past

/-- An acquisition begins once. -/
theorem Began.cases {last : Nat × Move} (began : Began (moves ++ [last]) call start transport timeout) :
    Began moves call start transport timeout ∨
      last = (start, .acquire transport timeout) ∧ call = (empty.run moves).pool.nextLease := by
  obtain ⟨before, after, split, mine⟩ := began
  rcases split_append split with ⟨rest, inside⟩ | ⟨earlier, rfl, lasts⟩
  · exact Or.inl ⟨before, rest, inside, mine⟩
  · cases earlier with
    | nil =>
      cases lasts
      exact Or.inr ⟨rfl, List.append_nil moves ▸ mine⟩
    | cons _ earlier => simp at lasts

theorem Began.issued (began : Began moves call start transport timeout) : call < (empty.run moves).pool.nextLease := by
  obtain ⟨before, after, rfl, mine⟩ := began
  rw [run_append, mine]
  refine Nat.lt_of_lt_of_le ?_ (nextLease_run_le _ after)
  rcases nextLease_step (empty.run before) start (.acquire transport timeout) with ⟨other, -⟩ | ⟨_, _, -, next⟩
  · exact absurd rfl (other transport timeout)
  · exact next ▸ Nat.lt_succ_self _

/-! ### The clock ticks -/

theorem InTime.tick (h : InTime moves now call transport deadline a) (present : (empty.run moves).calls call = some a)
    (rests : (empty.run moves).Rests now) : InTime moves (now + 1) call transport deadline a := by
  have still := rests call a present
  cases h with
  | queued early handed stands =>
    obtain ⟨before, s, found, waits, unhanded⟩ := Acquisition.resumeQueued_waits still
    refine .queued before (fun s' found' grant pending => ?_) ?_
    · cases found.symm.trans found'
      exact absurd (List.mem_map_of_mem pending) unhanded
    · cases stands with
      | listening found queued => exact .listening found queued
      | served served => exact .served served
      | refused _ gone => exact absurd (List.mem_append_left _ waits) (gone s found)
      | due reached => exact .due (Nat.le_succ_of_le reached)
  | pacing early inTime =>
    obtain ⟨-, -, waits⟩ := Acquisition.paced_pacing still.symm
    exact .pacing waits inTime

/-! ### A queued acquisition -/

/-- A waiter that listens has the deadline of its acquisition. -/
theorem listening_deadline (waits : (empty.run moves).calls call = some (.queued ticket key deadline))
    (found : (empty.run moves).pool.slot? key.generation = some s) {w : Waiter} (queued : w ∈ s.waiters)
    (mine : w.id = key.waiter) (listens : w.listening = true) : w.deadline = deadline := by
  rw [← diary_traffic] at waits found
  have h := Diary.run_sound moves
  have registered := h.registered _ s found
  obtain ⟨c, member, number, waiting⟩ := registered.heard w queued listens
  obtain ⟨v, queued', -, number', same⟩ := registered.awaited c member waiting
  have nodup : (s.waiters.map (·.id)).Nodup := registered.queue_sorted.imp Nat.ne_of_lt
  have one := List.inj_on_of_nodup_map nodup queued' queued (Option.some.inj (number'.symm.trans number))
  rw [← one, ← same]
  exact (h.caller_of_queued waits found member (mine ▸ number)).2

/-- A slot is handed to an acquisition for an instant within its deadline. -/
theorem handed_step (waits : (empty.run moves).calls call = some (.queued ticket key deadline))
    (handed : ∀ s, (empty.run moves).pool.slot? key.generation = some s →
      ∀ grant, (key.waiter, grant) ∈ s.handed → now ≤ grant ∧ grant ≤ deadline) (move : Move) {s' : Slot}
    (found' : ((empty.run moves).step now move).pool.slot? key.generation = some s') {grant : Nat}
    (pending : (key.waiter, grant) ∈ s'.handed) : now ≤ grant ∧ grant ≤ deadline := by
  rcases slot?_step (run_sound moves).numbered now move key.generation with
    same | ⟨_, _, -, -, -, gone⟩ | ⟨_, limits, -, -, -, fresh⟩
  · rw [found'] at same
    obtain ⟨s, found, rfl⟩ := Option.map_eq_some_iff.mp same.symm
    cases performed : (empty.run moves).operation? now move key.generation with
    | none =>
      rw [performed] at pending
      exact handed s found grant pending
    | some op =>
      rw [performed] at pending
      rcases Slot.mem_handed_step pending with old | new
      · exact handed s found grant old
      · obtain ⟨early, w, queued, mine, listens, inTime⟩ := Slot.handOff_bounds new
        exact ⟨early, listening_deadline waits found queued mine listens ▸ inTime⟩
  · cases found'.symm.trans gone
  · cases found'.symm.trans fresh
    cases pending

/-- Only its own moves take a waiter out of the queue without a turn, and before its deadline it does not leave. -/
theorem listens_on (waits : (empty.run moves).calls call = some (.queued ticket key deadline))
    (found : (empty.run moves).pool.slot? key.generation = some s) (queued : key.waiter ∈ s.waiters.map (·.id))
    (kept : ¬ CalledOff (moves ++ [(now, move)]) call) (early : now < deadline) {op : Operation}
    (performed : (empty.run moves).operation? now move key.generation = some op) :
    (∀ cause, op ≠ .hangUp key.waiter cause) ∧ ∀ cause, op ≠ .leave key.waiter cause := by
  have own {other : Nat} {ticket' : LeaseTicket} {key' : WaitKey} {deadline' : Nat}
      (waits' : (empty.run moves).calls other = some (.queued ticket' key' deadline'))
      (place : key.generation = key'.generation) (waiter : key'.waiter = key.waiter) :
      other = call ∧ deadline' = deadline := by
    obtain rfl : key' = key := WaitKey.mk.injEq .. ▸ ⟨place.symm, waiter⟩
    obtain rfl := awaited_once moves waits waits' found
    cases waits.symm.trans waits'
    exact ⟨rfl, rfl⟩
  have progress : (empty.run moves).InProgress call := ⟨_, waits, rfl⟩
  constructor
  · rintro cause rfl
    generalize same : Operation.hangUp key.waiter cause = op at performed
    cases performs performed with
    | hangUp waits' place due =>
      obtain ⟨waiter, rfl⟩ := Operation.hangUp.inj same
      obtain ⟨rfl, rfl⟩ := own waits' place waiter.symm
      cases cause with
      | cancelled => exact kept ⟨moves, now, _, [], rfl, Or.inr rfl, progress⟩
      | expired => exact Nat.not_lt.mpr (due rfl) early
    | _ => cases same
  · rintro cause rfl
    generalize same : Operation.leave key.waiter cause = op at performed
    cases performs performed with
    | giveUp waits' place due =>
      obtain ⟨waiter, rfl⟩ := Operation.leave.inj same
      obtain ⟨rfl, rfl⟩ := own waits' place waiter.symm
      exact Nat.not_lt.mpr (due s found (waiter ▸ queued)) early
    | timeOut waits' place due =>
      obtain ⟨waiter, rfl⟩ := Operation.leave.inj same
      obtain ⟨rfl, rfl⟩ := own waits' place waiter.symm
      exact Nat.not_lt.mpr due early
    | cancel waits' place =>
      obtain ⟨waiter, rfl⟩ := Operation.leave.inj same
      obtain ⟨rfl, rfl⟩ := own waits' place waiter.symm
      exact kept ⟨moves, now, _, [], rfl, Or.inl rfl, progress⟩
    | _ => cases same

/-- Whoever has lost its place does not get it back: the places that entries give out are new. -/
theorem gone_step (waits : (empty.run moves).calls call = some (.queued ticket key deadline))
    (gone : ∀ s, (empty.run moves).pool.slot? key.generation = some s → key.waiter ∉ s.waiterIds) (move : Move)
    {s' : Slot} (found' : ((empty.run moves).step now move).pool.slot? key.generation = some s') :
    key.waiter ∉ s'.waiterIds := by
  intro member
  rcases slot?_step (run_sound moves).numbered now move key.generation with
    same | ⟨_, _, -, -, -, lost⟩ | ⟨_, limits, -, -, -, fresh⟩
  · rw [found'] at same
    obtain ⟨s, found, rfl⟩ := Option.map_eq_some_iff.mp same.symm
    cases performed : (empty.run moves).operation? now move key.generation with
    | none =>
      rw [performed] at member
      exact gone s found member
    | some op =>
      rw [performed] at member
      rcases Slot.mem_waiterIds_step member with old | ⟨lease, due, -, joined⟩
      · exact gone s found old
      · have issued := (waitedAt_now waits).issued found
        rcases Slot.enter_cases s now lease due with ⟨-, -, -, granted⟩ | ⟨-, -, -, refused⟩ | ⟨-, queued⟩
        · rw [granted] at joined
          cases joined
        · rw [refused] at joined
          cases joined
        · rw [queued] at joined
          exact Nat.lt_irrefl _ (Entry.queued.inj joined ▸ issued)
  · cases found'.symm.trans lost
  · cases found'.symm.trans fresh
    cases member

/-- After its turn a waiter was handed a slot, or it was refused. The turn in its place is its own. -/
theorem turn_stands (waits : (empty.run moves).calls call = some (.queued ticket key deadline))
    (waits' : ((empty.run moves).step now move).calls call = some (.queued ticket key deadline))
    (found : (empty.run moves).pool.slot? key.generation = some s) (queued : ⟨key.waiter, deadline, true⟩ ∈ s.waiters)
    {op : Operation} (performed : (empty.run moves).operation? now move key.generation = some op)
    (becomes : ((empty.run moves).step now move).pool.slot? key.generation = some (s.step now op).1) {turn : Turn}
    (taken : turn ∈ (s.step now op).2) (mine : turn.waiter = key.waiter) :
    Stands (moves ++ [(now, move)]) now call deadline key := by
  have sound := (run_sound moves).slots _ s found
  have after : empty.run (moves ++ [(now, move)]) = (empty.run moves).step now move := run_append ..
  obtain ⟨earlier, later, split⟩ := List.append_of_mem taken
  obtain ⟨w, member, decided⟩ := Slot.step_turn split
  obtain rfl : w = ⟨key.waiter, deadline, true⟩ := by
    refine List.inj_on_of_nodup_map (List.nodup_append.mp sound.waiters_nodup).1 member queued ?_
    rw [← mine, decided, Slot.turn_waiter]
  rcases Slot.turn_cases ((s.pacedFor now op).takeAll earlier) now ⟨key.waiter, deadline, true⟩ with
    ⟨past, late⟩ | ⟨-, hands⟩ | ⟨silent, -⟩
  · rw [decided, late] at split taken
    refine .refused (.inTurn rfl waits found performed split rfl past) fun s' found' => ?_
    rw [after, becomes] at found'
    cases found'
    exact Slot.late_gone sound taken
  · refine .served ?_
    rw [decided, hands] at taken
    have pending := Slot.handOff_pending (List.mem_filterMap.mpr ⟨_, taken, rfl⟩)
    rw [after]
    simp only [Traffic.served, waits', becomes, Option.any_some]
    exact any_key_iff.mpr (List.mem_map_of_mem pending)
  · cases silent

/-- A waiter that listens does so until its turn or its deadline. -/
theorem listening_stands (waits : (empty.run moves).calls call = some (.queued ticket key deadline))
    (waits' : ((empty.run moves).step now move).calls call = some (.queued ticket key deadline))
    (kept : ¬ CalledOff (moves ++ [(now, move)]) call) (found : (empty.run moves).pool.slot? key.generation = some s)
    (queued : ⟨key.waiter, deadline, true⟩ ∈ s.waiters) (early : now < deadline) :
    Stands (moves ++ [(now, move)]) now call deadline key := by
  have after : empty.run (moves ++ [(now, move)]) = (empty.run moves).step now move := run_append ..
  rcases slot?_step (run_sound moves).numbered now move key.generation with
    same | ⟨_, s', -, found', idle, -⟩ | ⟨_, _, -, absent, -, -⟩
  · rw [found, Option.map_some] at same
    cases performed : (empty.run moves).operation? now move key.generation with
    | none =>
      rw [performed] at same
      exact .listening (after ▸ same) queued
    | some op =>
      rw [performed] at same
      change _ = some (s.step now op).1 at same
      obtain ⟨listens, stays⟩ := listens_on waits found (List.mem_map_of_mem queued) kept early performed
      rcases Slot.queue_kept queued now listens stays with still | ⟨turn, taken, mine⟩
      · exact .listening (after ▸ same) still
      · exact turn_stands waits waits' found queued performed same taken mine
  · cases found.symm.trans found'
    simp only [Slot.isIdle, Bool.and_eq_true, List.isEmpty_iff] at idle
    rw [idle.2] at queued
    cases queued
  · cases found.symm.trans absent

theorem stands_step (waits : (empty.run moves).calls call = some (.queued ticket key deadline))
    (waits' : ((empty.run moves).step now move).calls call = some (.queued ticket key deadline))
    (kept : ¬ CalledOff (moves ++ [(now, move)]) call) (stands : Stands moves now call deadline key) :
    Stands (moves ++ [(now, move)]) now call deadline key := by
  have after : empty.run (moves ++ [(now, move)]) = (empty.run moves).step now move := run_append ..
  cases stands with
  | listening found queued =>
    rcases Nat.lt_or_ge now deadline with early | reached
    · exact listening_stands waits waits' kept found queued early
    · exact .due reached
  | served served => exact .served (after ▸ served_kept served waits')
  | refused refused gone => exact .refused (refused.more _) fun s' found' => gone_step waits gone move (after ▸ found')
  | due reached => exact .due reached

/-! ### An acquisition in progress -/

/-- An acquisition that has just joined a queue listens there. -/
theorem inTime_joined {g : Generation} (found : (empty.run moves).pool.find? transport = some g)
    (mine : call = (empty.run moves).pool.nextLease) (place : key.generation = g.number)
    (joined : (g.slot.enter now call (now + timeout)).2 = .queued key.waiter) :
    InTime (moves ++ [(now, .acquire transport timeout)]) now call transport (now + timeout)
      (.queued ⟨transport, call⟩ key (now + timeout)) := by
  have h := run_sound moves
  have slot := Pool.slot?_of_find? h.numbered found
  have entered : (empty.run (moves ++ [(now, .acquire transport timeout)])).pool.slot? key.generation =
      some (g.slot.enter now call (now + timeout)).1 := by
    rw [run_append, place]
    change ((empty.run moves).step now (.acquire transport timeout)).pool.slot? g.number = _
    rw [slot?_acquire h.numbered, slot]
    simp only [operation?, onTransport, found, if_true, mine]
    rfl
  rcases Slot.enter_cases g.slot now call (now + timeout) with ⟨-, -, -, granted⟩ | ⟨-, -, -, refused⟩ | ⟨-, queued⟩
  · rw [granted] at joined
    cases joined
  · rw [refused] at joined
    cases joined
  · rw [queued] at joined entered
    have number : g.slot.nextWaiter = key.waiter := Entry.queued.inj joined
    refine .queued (Nat.le_add_right ..) (fun s found grant pending => ?_) (.listening entered ?_)
    · cases entered.symm.trans found
      have issued := (h.slots _ _ slot).issued key.waiter (List.mem_append_right _ (List.mem_map_of_mem pending))
      exact absurd number (Nat.ne_of_gt issued)
    · exact number ▸ List.mem_append_right _ (List.mem_singleton_self _)

/-- A claimed slot comes with an instant within the deadline. -/
theorem InTime.claimed (h : InTime moves now call transport deadline (.queued ticket key deadline)) {s' : Slot}
    {grant : Nat} (found : (empty.run moves).pool.slot? key.generation = some s)
    (claimed : s.claim key.waiter ticket.leaseId = some (s', grant)) : now ≤ grant ∧ grant ≤ deadline := by
  cases h with
  | queued early handed stands => exact handed s found grant (Slot.claimed_handed claimed)

/-- A move leaves an acquisition in time that was so before. -/
theorem inTime_step (begun : call < (empty.run moves).pool.nextLease)
    (before : ∀ b, (empty.run moves).calls call = some b → b.isDone = false →
      InTime moves now call transport deadline b)
    (kept : ¬ CalledOff (moves ++ [(now, move)]) call)
    (present : ((empty.run moves).step now move).calls call = some a) (unfinished : a.isDone = false) :
    InTime (moves ++ [(now, move)]) now call transport deadline a := by
  have after : empty.run (moves ++ [(now, move)]) = (empty.run moves).step now move := run_append ..
  cases a with
  | requested name span => exact absurd rfl (run_begun _ (after ▸ present) name span)
  | queued ticket key due =>
    rcases queued_step present with ⟨waits, -⟩ | ⟨_, _, _, -, new, -⟩
    · cases before _ waits rfl with
      | queued early handed stands =>
        exact .queued early (fun s' found' grant pending => handed_step waits handed move (after ▸ found') pending)
          (stands_step waits present kept stands)
    · exact absurd begun (new ▸ Nat.lt_irrefl _)
  | pacing ticket grant =>
    rcases in_hand_step present rfl with ⟨old, waits, -, rfl | ⟨grant', rfl, paces⟩⟩ |
      ⟨_, _, _, _, -, new, -⟩ | ⟨key, due, s, s', grant', -, waits, found, claimed, paces⟩
    · cases before _ waits rfl with
      | pacing early inTime => exact .pacing early inTime
    · obtain ⟨-, rfl, -⟩ := Acquisition.paced_pacing paces
      cases before _ waits rfl with
      | pacing early inTime => exact .pacing early inTime
    · exact absurd begun (new ▸ Nat.lt_irrefl _)
    · obtain ⟨-, rfl, -⟩ := Acquisition.paced_pacing paces
      cases before _ waits rfl with
      | queued early handed stands =>
        obtain ⟨early, inTime⟩ := InTime.claimed (.queued early handed stands) found claimed
        exact .pacing early inTime
  | granted ticket instant => cases unfinished
  | failed fault => cases unfinished

/-- An acquisition that has just begun is in time. -/
theorem inTime_begun (mine : call = (empty.run moves).pool.nextLease)
    (present : ((empty.run moves).step now (.acquire transport timeout)).calls call = some a)
    (unfinished : a.isDone = false) :
    InTime (moves ++ [(now, .acquire transport timeout)]) now call transport (now + timeout) a := by
  have unissued {b : Acquisition} (old : (empty.run moves).calls call = some b) : False :=
    Nat.lt_irrefl _ (mine ▸ (run_sound moves).calls_issued call b old)
  have after : empty.run (moves ++ [(now, .acquire transport timeout)]) =
      (empty.run moves).step now (.acquire transport timeout) := run_append ..
  cases a with
  | requested name span => exact absurd rfl (run_begun _ (after ▸ present) name span)
  | queued ticket key due =>
    rcases queued_step present with ⟨waits, -⟩ | ⟨_, _, g, begins, -, rfl, found, place, rfl, joined⟩
    · exact (unissued waits).elim
    · cases begins
      exact inTime_joined found mine place joined
  | pacing ticket grant =>
    rcases in_hand_step present rfl with ⟨old, waits, -⟩ |
      ⟨_, _, g, grant', begins, -, rfl, found, granted, paces⟩ | ⟨_, _, _, _, _, -, waits, -⟩
    · exact (unissued waits).elim
    · cases begins
      obtain ⟨-, rfl, -⟩ := Acquisition.paced_pacing paces
      obtain ⟨early, inTime⟩ := Slot.enter_bounds granted
      exact .pacing early inTime
    · exact (unissued waits).elim
  | granted ticket instant => cases unfinished
  | failed fault => cases unfinished

/-- As long as it is in progress, an acquisition that is not called off is in time. -/
theorem Prompt.inTime (prompt : Prompt moves now) (began : Began moves call start transport timeout)
    (kept : ¬ CalledOff moves call) (present : (empty.run moves).calls call = some a) (unfinished : a.isDone = false) :
    InTime moves now call transport (start + timeout) a := by
  induction prompt generalizing a with
  | start => cases present
  | tick prompt rests ih => exact (ih began kept present unfinished).tick present rests
  | @move moves now prompt move ih =>
    rw [run_append] at present
    rcases began.cases with earlier | ⟨last, mine⟩
    · have kept' : ¬ CalledOff moves call := fun calledOff => kept (calledOff.more _)
      exact inTime_step earlier.issued (fun b waits going => ih earlier kept' waits going) kept present unfinished
    · cases last
      exact inTime_begun mine present unfinished

theorem InTime.early (h : InTime moves now call transport deadline a) : now ≤ deadline := by
  cases h with
  | queued early handed stands => exact early
  | pacing early inTime => exact Nat.le_trans early inTime

end Traffic

end RelayRamp.Lease
