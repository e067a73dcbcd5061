import RelayRamp.Proofs.Lease.Arrivals
import RelayRamp.Proofs.Lease.Lifetime

/-!
# Whom the slots belong to

An acquisition may be given up at each point where it waits: in the queue, after a slot was handed to it, and with
the lease in hand before its grant instant. Whatever happens, each queued or handed entry of the pool is that of
one acquisition that still waits for it, and the outstanding leases are exactly those that were granted and not
ended. So nothing is left in the pool once nobody waits and every lease has ended.
-/
namespace RelayRamp.Lease

open RelayRamp.Admission RelayRamp.Routing

namespace Slot

/-! ### Who is queued or was handed a slot -/

theorem handOff_waiters (turns : List Turn) :
    ((turns.filterMap Turn.handOff?).map (·.1)).Sublist (turns.map Turn.waiter) := by
  induction turns with
  | nil => exact List.Sublist.slnil
  | cons turn rest ih =>
    cases turn with
    | handed waiter grant => exact ih.cons_cons waiter
    | late waiter earliest => exact ih.cons waiter
    | deaf waiter => exact ih.cons waiter

/-- Serving a queue hands slots to those who are in it, and adds nobody. -/
theorem mem_waiterIds_serve {now : Nat} {ws : List Waiter} {s : Slot} {w : Nat}
    (member : w ∈ (serve now ws s).1.waiterIds) : w ∈ ws.map (·.id) ∨ w ∈ s.handed.map (·.1) := by
  have queue := (serve_waiters now ws s).1
  rcases List.mem_append.mp member with waits | handed
  · exact Or.inl (queue ▸ List.mem_append_right _ waits)
  · rw [serve_handed, List.map_append, List.mem_append] at handed
    rcases handed with old | new
    · exact Or.inr old
    · exact Or.inl (queue ▸ List.mem_append_left _ ((handOff_waiters _).mem new))

theorem mem_waiterIds_dispatch {s : Slot} {now w : Nat} (member : w ∈ (s.dispatch now).1.waiterIds) :
    w ∈ s.waiterIds :=
  List.mem_append.mpr (mem_waiterIds_serve member)

theorem mem_waiterIds_leave {s : Slot} {waiter now w : Nat}
    (member : w ∈ (s.leave waiter now).1.waiterIds) : w ∈ s.waiterIds := by
  rcases leave_cases s waiter now with ⟨-, left⟩ | ⟨-, -, given⟩ | ⟨-, -, gone⟩
  · rw [left] at member
    exact ((List.filter_sublist.map _).append_right _).mem member
  · rw [given] at member
    exact ((List.filter_sublist.map _).append_left _).mem (mem_waiterIds_dispatch member)
  · rwa [gone] at member

theorem mem_waiterIds_release {s : Slot} {lease now w : Nat}
    (member : w ∈ ((s.release lease now).getD (s, [])).1.waiterIds) : w ∈ s.waiterIds := by
  by_cases held : lease ∈ s.leases.map (·.1)
  · rw [release_of_mem held, Option.getD_some, freeSlot] at member
    exact mem_waiterIds_dispatch (s := { s with
      leases := s.leases.filter (·.1 ≠ lease)
      occupied := s.occupied - 1 }) member
  · rwa [release_of_not_mem held] at member

theorem mem_waiterIds_releaseAll {now w : Nat} {leases : List Nat} {s : Slot}
    (member : w ∈ (releaseAll now leases s).1.waiterIds) : w ∈ s.waiterIds := by
  induction leases generalizing s with
  | nil => exact member
  | cons lease rest ih => exact mem_waiterIds_release (ih member)

/-- The only way into the queue is to enter. -/
theorem mem_waiterIds_step {s : Slot} {now w : Nat} {op : Operation}
    (member : w ∈ (s.step now op).1.waiterIds) :
    w ∈ s.waiterIds ∨
      ∃ lease deadline, op = .enter lease deadline ∧ (s.enter now lease deadline).2 = .queued w := by
  cases op with
  | enter lease deadline =>
    simp only [step] at member
    rcases enter_cases s now lease deadline with
      ⟨-, -, -, granted⟩ | ⟨-, -, -, refused⟩ | ⟨-, queued⟩
    · rw [granted] at member
      exact Or.inl member
    · rw [refused] at member
      exact Or.inl member
    · rw [queued] at member
      simp only [waiterIds, List.map_append, List.map_singleton, List.append_assoc, List.mem_append,
        List.mem_singleton] at member
      rcases member with old | rfl | handed
      · exact Or.inl (List.mem_append_left _ old)
      · exact Or.inr ⟨lease, deadline, rfl, by rw [queued]⟩
      · exact Or.inl (List.mem_append_right _ handed)
  | claim waiter lease =>
    simp only [step] at member
    rcases claim_cases s waiter lease with ⟨grant, -, -, claimed⟩ | ⟨-, missing⟩
    · rw [claimed] at member
      exact Or.inl (((List.filter_sublist.map _).append_left _).mem member)
    · rw [missing] at member
      exact Or.inl member
  | hangUp waiter cause =>
    refine Or.inl ?_
    simp only [step, waiterIds, hangUp, List.map_map] at member
    rw [waiterIds]
    convert member using 3
    funext w
    simp only [Function.comp_apply]
    split <;> rfl
  | leave waiter cause => exact Or.inl (mem_waiterIds_leave member)
  | release lease => exact Or.inl (mem_waiterIds_release member)
  | reclaim maxHold => exact Or.inl (mem_waiterIds_releaseAll member)
  | configure limits =>
    exact Or.inl (mem_waiterIds_dispatch (s := { s with
      capacity := limits.concurrency
      rateDelay := limits.rateDelay }) member)

/-- Whoever leaves is gone, out of the queue and out of the hand-offs. -/
theorem leave_gone {s : Slot} (sound : s.Sound) (waiter now : Nat) :
    waiter ∉ (s.leave waiter now).1.waiterIds := by
  have apart := (List.nodup_append.mp sound.waiters_nodup).2.2
  intro member
  rcases leave_cases s waiter now with ⟨queued, left⟩ | ⟨unqueued, -, given⟩ | ⟨unqueued, unhanded, gone⟩
  · rw [left] at member
    rcases List.mem_append.mp member with waits | handed
    · obtain ⟨w, inside, same⟩ := List.mem_map.mp waits
      simp [same] at inside
    · exact apart _ queued _ handed rfl
  · rw [given] at member
    rcases List.mem_append.mp (mem_waiterIds_dispatch member) with waits | handed
    · exact unqueued waits
    · rw [map_key_filter] at handed
      simp at handed
  · rw [gone] at member
    rcases List.mem_append.mp member with waits | handed
    · exact unqueued waits
    · exact unhanded handed

/-- Whoever claims its slot has a lease instead of a place. -/
theorem claim_gone {s : Slot} (sound : s.Sound) {waiter lease : Nat} {taken : Slot × Nat}
    (claimed : s.claim waiter lease = some taken) : waiter ∉ taken.1.waiterIds := by
  have apart := (List.nodup_append.mp sound.waiters_nodup).2.2
  rcases claim_cases s waiter lease with ⟨grant, handed, -, result⟩ | ⟨-, missing⟩
  · rw [result] at claimed
    cases claimed
    intro member
    rcases List.mem_append.mp member with waits | still
    · exact apart _ waits _ (List.mem_map_of_mem handed) rfl
    · simp only [map_key_filter] at still
      simp at still
  · rw [missing] at claimed
    cases claimed

/-- Without waiters and leases no slot is taken. -/
theorem Sound.emptied {s : Slot} (sound : s.Sound) (places : s.waiterIds = [])
    (leases : s.leases = []) : s.occupied = 0 ∧ s.waiters = [] ∧ s.handed = [] := by
  obtain ⟨waiters, handed⟩ := List.append_eq_nil_iff.mp places
  have waiters := List.map_eq_nil_iff.mp waiters
  have handed := List.map_eq_nil_iff.mp handed
  have balance := sound.balance
  rw [leases, handed] at balance
  exact ⟨balance, waiters, handed⟩

end Slot

namespace Traffic

variable {t : Traffic}

/-! ### Places -/

/-- An acquisition goes on waiting, or the move takes it out of its place. -/
theorem Sound.waits_or_gone (h : t.Sound) {now call : Nat} {move : Move} {ticket : LeaseTicket}
    {key : WaitKey} {deadline : Nat} (waits : t.calls call = some (.queued ticket key deadline)) {s : Slot}
    (found : t.pool.slot? key.generation = some s) :
    (t.step now move).calls call = some (.queued ticket key deadline) ∨
      ∃ op, t.operation? now move key.generation = some op ∧ key.waiter ∉ (s.step now op).1.waiterIds := by
  have sound := h.slots _ s found
  obtain ⟨b, after, turned⟩ : ∃ b, (t.step now move).calls call = b ∧ t.Becomes now call move b :=
    ⟨_, rfl, becomes t now move call⟩
  rw [after]
  cases turned with
  | same apart => exact Or.inl waits
  | begun new => exact absurd (new ▸ h.calls_issued _ _ waits) (Nat.lt_irrefl _)
  | @resumed a present begun =>
    rw [waits] at present
    cases present
    simp only [Acquisition.resume]
    rcases Acquisition.resumeQueued_cases t.pool now ticket key deadline with
      ⟨s', taken, grant, found', claimed, -⟩ | ⟨s', found', -, -, result⟩ | ⟨ends, effects, -⟩
    · rw [found] at found'
      cases found'
      refine Or.inr ⟨.claim key.waiter ticket.leaseId, ?_, ?_⟩
      · simp [operation?, waits, found, onResume, claimed]
      · simpa only [Slot.step, claimed, Option.map_some, Option.getD_some] using Slot.claim_gone sound claimed
    · rw [result]
      exact Or.inl rfl
    · obtain ⟨unclaimed, passed⟩ := ends s found
      refine Or.inr ⟨.leave key.waiter .expired, ?_, Slot.leave_gone sound key.waiter now⟩
      simp only [operation?, waits, found, onResume, unclaimed, if_neg passed]
      rfl
  | timedOut queued due =>
    rw [waits] at queued
    cases queued
    refine Or.inr ⟨.leave key.waiter .expired, ?_, Slot.leave_gone sound key.waiter now⟩
    simp [operation?, waits, due]
  | cancelled present =>
    refine Or.inr ⟨.leave key.waiter .cancelled, ?_, Slot.leave_gone sound key.waiter now⟩
    simp [operation?, waits]
  | detached granted =>
    rw [waits] at granted
    cases granted

/-- Somebody waits for the place. -/
def Awaited (t : Traffic) (key : WaitKey) : Prop :=
  ∃ call ticket deadline, t.calls call = some (.queued ticket key deadline)

/-- Nobody's place stays taken after a move. -/
theorem Sound.awaited_step (h : t.Sound)
    (owned : ∀ n s w, t.pool.slot? n = some s → w ∈ s.waiterIds → t.Awaited ⟨n, w⟩) (now : Nat)
    (move : Move) {n : Nat} {s' : Slot} {w : Nat} (found' : (t.step now move).pool.slot? n = some s')
    (member : w ∈ s'.waiterIds) : (t.step now move).Awaited ⟨n, w⟩ := by
  -- Who held the place before holds it still, unless the operation of the move took it away.
  have stays : ∀ s, t.pool.slot? n = some s → w ∈ s.waiterIds →
      (∀ op, t.operation? now move n = some op → w ∈ (s.step now op).1.waiterIds) →
      (t.step now move).Awaited ⟨n, w⟩ := by
    intro s found old kept
    obtain ⟨call, ticket, deadline, waits⟩ := owned n s w found old
    rcases h.waits_or_gone waits found with still | ⟨op, performed, gone⟩
    · exact ⟨call, ticket, deadline, still⟩
    · exact absurd (kept op performed) gone
  rcases slot?_step h.numbered now move n with same | ⟨_, _, -, -, -, gone⟩ | ⟨_, limits, -, -, -, fresh⟩
  · rw [found'] at same
    obtain ⟨s, found, rfl⟩ := Option.map_eq_some_iff.mp same.symm
    cases performed : t.operation? now move n with
    | none =>
      rw [performed] at member
      exact stays s found member fun op other => by rw [performed] at other; cases other
    | some op =>
      rw [performed] at member
      rcases Slot.mem_waiterIds_step member with old | ⟨lease, deadline, rfl, queued⟩
      · refine stays s found old fun op' same' => ?_
        rw [performed] at same'
        cases same'
        exact member
      · cases performs performed with
        | @enter transport timeout g present place =>
          subst place
          have slot := Pool.slot?_of_find? h.numbered present
          rw [found] at slot
          cases slot
          refine ⟨t.pool.nextLease, ⟨transport, t.pool.nextLease⟩, now + timeout, ?_⟩
          simp only [step, keep, if_true, Acquisition.start_found present, queued, Acquisition.entered]
  · rw [gone] at found'
    cases found'
  · rw [fresh] at found'
    cases found'
    simp [Slot.waiterIds, Slot.fresh] at member

theorem run_awaited (moves : List (Nat × Move)) {n : Nat} {s : Slot} {w : Nat}
    (found : (empty.run moves).pool.slot? n = some s) (member : w ∈ s.waiterIds) :
    (empty.run moves).Awaited ⟨n, w⟩ := by
  refine (run_induction (motive := fun t => t.Sound ∧ ∀ n s w, t.pool.slot? n = some s →
    w ∈ s.waiterIds → t.Awaited ⟨n, w⟩) empty ⟨empty_sound, ?_⟩ ?_ moves).2 n s w found member
  · simp [empty, Pool.empty, Pool.slot?]
  · rintro t now move ⟨h, owned⟩
    exact ⟨sound_step h now move, fun _ _ _ found' member => h.awaited_step owned now move found' member⟩

/-- Two acquisitions never wait for the same place. -/
theorem awaited_once (moves : List (Nat × Move)) {call other : Nat} {ticket ticket' : LeaseTicket}
    {key : WaitKey} {deadline deadline' : Nat} {s : Slot}
    (waits : (empty.run moves).calls call = some (.queued ticket key deadline))
    (waits' : (empty.run moves).calls other = some (.queued ticket' key deadline'))
    (found : (empty.run moves).pool.slot? key.generation = some s) : other = call := by
  have same : (Diary.empty.run moves).traffic = empty.run moves := Diary.run_traffic .empty moves
  have h := Diary.run_sound moves
  rw [← same] at waits waits' found
  obtain ⟨c, member, mine, number, -⟩ := h.queued _ _ _ _ waits
  exact (h.caller_of_queued waits' found member number).1.symm.trans mine

/-! ### Leases granted and ended -/

/-- The lease was granted in the run. -/
def Granted (moves : List (Nat × Move)) (lease : Nat) : Prop :=
  ∃ before now move after n, moves = before ++ (now, move) :: after ∧
    (empty.run before).Makes now n move lease

/-- The lease was released, dropped or reclaimed in the run. -/
def Ended (moves : List (Nat × Move)) (lease : Nat) : Prop :=
  ∃ before now move after, moves = before ++ (now, move) :: after ∧
    (empty.run before).FreedBy now lease move

/-- The lease was kept out without its holder in the run. -/
def Detached (moves : List (Nat × Move)) (lease : Nat) : Prop :=
  ∃ before now after ticket instant, moves = before ++ (now, .detach lease) :: after ∧
    (empty.run before).calls lease = some (.granted ticket instant)

theorem Granted.more {moves : List (Nat × Move)} {lease : Nat} (granted : Granted moves lease)
    (last : Nat × Move) : Granted (moves ++ [last]) lease := by
  obtain ⟨before, now, move, after, n, rfl, made⟩ := granted
  exact ⟨before, now, move, after ++ [last], n, by simp, made⟩

theorem Detached.more {moves : List (Nat × Move)} {lease : Nat} (detached : Detached moves lease)
    (last : Nat × Move) : Detached (moves ++ [last]) lease := by
  obtain ⟨before, now, after, ticket, instant, rfl, granted⟩ := detached
  exact ⟨before, now, after ++ [last], ticket, instant, by simp, granted⟩

/-- A lease that came into being is outstanding. -/
theorem Makes.leased (h : t.pool.Numbered) {now n lease : Nat} {move : Move}
    (made : t.Makes now n move lease) : (t.step now move).Leased n lease := by
  cases made with
  | entered found place granted => exact place ▸ leased_of_granted h found granted
  | claimed queued place found claimed =>
    subst place
    exact leased_of_claimed queued found claimed now

theorem Leased.unended {moves : List (Nat × Move)} {n lease : Nat}
    (held : (empty.run moves).Leased n lease) : ¬ Ended moves lease := by
  rintro ⟨before, now, move, after, rfl, freed⟩
  obtain ⟨transport, g, found, -, member⟩ := held.holds (run_sound _).numbered
  rw [run_append] at found
  exact (run_sound before).unheld_after freed after transport ⟨g, found, member⟩

theorem Leased.granted {moves : List (Nat × Move)} {n lease : Nat}
    (held : (empty.run moves).Leased n lease) : Granted moves lease := by
  induction moves using List.reverseRecOn with
  | nil => simp [Leased, run, empty, Pool.empty, Pool.slot?] at held
  | append_singleton moves last ih =>
    obtain ⟨now, move⟩ := last
    rw [run_append] at held
    rcases leased_step (run_sound moves).numbered held with old | made
    · exact (ih old).more _
    · exact ⟨moves, now, move, [], n, rfl, made⟩

/-- A lease that was granted stays outstanding until it is ended. -/
theorem Granted.leased {moves : List (Nat × Move)} {lease : Nat} (granted : Granted moves lease)
    (unended : ¬ Ended moves lease) : ∃ n, (empty.run moves).Leased n lease := by
  obtain ⟨before, now, move, after, n, rfl, made⟩ := granted
  refine ⟨n, ?_⟩
  induction after using List.reverseRecOn with
  | nil =>
    rw [run_append]
    exact made.leased (run_sound before).numbered
  | append_singleton after last ih =>
    obtain ⟨now', move'⟩ := last
    have split : before ++ (now, move) :: (after ++ [(now', move')]) =
        (before ++ (now, move) :: after) ++ [(now', move')] := by simp
    rw [split] at unended ⊢
    have held := ih fun ended => by
      obtain ⟨b, i, m, a, same, freed⟩ := ended
      exact unended ⟨b, i, m, a ++ [(now', move')], by rw [same]; simp, freed⟩
    by_contra lost
    rw [run_append] at lost
    have freed := (run_sound _).freedBy_of_lost held lost
    exact unended ⟨_, now', move', [], rfl, freed⟩

/-- The outstanding leases are those that were granted and have not ended. -/
theorem leased_iff (moves : List (Nat × Move)) (lease : Nat) :
    (∃ n, (empty.run moves).Leased n lease) ↔ Granted moves lease ∧ ¬ Ended moves lease :=
  ⟨fun ⟨_, held⟩ => ⟨held.granted, held.unended⟩, fun both => both.1.leased both.2⟩

/-! ### Leases in hand -/

/-- The acquisition of the lease still has it in hand. -/
def InHand (t : Traffic) (lease : Nat) : Prop :=
  ∃ a ticket, t.calls lease = some a ∧ a.lease? = some ticket

theorem Makes.inHand (h : t.Sound) {now n lease : Nat} {move : Move} (made : t.Makes now n move lease) :
    (t.step now move).InHand lease := by
  cases made with
  | @entered transport timeout g grant found place granted =>
    refine ⟨.paced ⟨transport, t.pool.nextLease⟩ grant now, _, ?_, Acquisition.paced_lease? ..⟩
    simp only [step, keep, if_true, Acquisition.start_found found, granted, Acquisition.entered]
  | @claimed call ticket key deadline s taken queued place found claimed =>
    subst place
    refine ⟨.paced ticket taken.2 now, ticket, ?_, Acquisition.paced_lease? ..⟩
    rw [h.tickets _ _ _ _ queued]
    simp only [step, queued, Acquisition.resume, Acquisition.resumeQueued, found, claimed, keep, if_true]

/-- A lease leaves the hand of its acquisition only when it ends, or by being kept out without it. -/
theorem inHand_step {moves : List (Nat × Move)} {now n lease : Nat} {move : Move}
    (hand : (empty.run moves).InHand lease) (held : (empty.run moves).Leased n lease)
    (stays : ((empty.run moves).step now move).Leased n lease) :
    ((empty.run moves).step now move).InHand lease ∨ Detached (moves ++ [(now, move)]) lease := by
  have h := run_sound moves
  obtain ⟨a, ticket, present, holds⟩ := hand
  obtain ⟨b, after, turned⟩ : ∃ b, ((empty.run moves).step now move).calls lease = b ∧
      (empty.run moves).Becomes now lease move b := ⟨_, rfl, becomes _ now move lease⟩
  unfold InHand
  rw [after]
  cases turned with
  | same apart => exact Or.inl ⟨a, ticket, present, holds⟩
  | begun new => exact absurd (new ▸ h.calls_issued _ _ present) (Nat.lt_irrefl _)
  | @resumed a' present' begun =>
    rw [present] at present'
    cases present'
    cases a with
    | pacing ticket' grant => exact Or.inl ⟨_, ticket', rfl, Acquisition.paced_lease? ..⟩
    | granted ticket' instant => exact Or.inl ⟨_, ticket', rfl, rfl⟩
    | _ => cases holds
  | timedOut queued due =>
    rw [present] at queued
    cases queued
    cases holds
  | cancelled _ =>
    have own := (run_ticketed moves).own lease a ticket present holds
    rcases in_hand_run moves present holds with there | ended
    · exact absurd stays (h.lost_of_freedBy held (.dropped present holds own there))
    · exact absurd ended held.unended
  | @detached ticket' instant granted =>
    exact Or.inr ⟨moves, now, [], ticket', instant, rfl, granted⟩

/-- An outstanding lease is in the hand of its acquisition, or it was kept out without it. -/
theorem Leased.inHand {moves : List (Nat × Move)} {n lease : Nat}
    (held : (empty.run moves).Leased n lease) : (empty.run moves).InHand lease ∨ Detached moves lease := by
  induction moves using List.reverseRecOn with
  | nil => simp [Leased, run, empty, Pool.empty, Pool.slot?] at held
  | append_singleton moves last ih =>
    obtain ⟨now, move⟩ := last
    rw [run_append] at held ⊢
    rcases leased_step (run_sound moves).numbered held with old | made
    · rcases ih old with hand | detached
      · exact inHand_step hand old held
      · exact Or.inr (detached.more _)
    · exact Or.inl (made.inHand (run_sound moves))

/-! ### Nothing is left behind -/

/-- No slot leaks. In every state of every run, each queued or handed entry is that of exactly one acquisition that
still waits; the outstanding leases are those that were granted and not yet released, dropped or reclaimed, and
each is in the hand of its acquisition, which may be sleeping until the grant instant, unless it was kept out
without it. When no acquisition is in progress and every lease has ended, every transport is empty. -/
theorem nothing_left_behind (moves : List (Nat × Move)) :
    let t := empty.run moves
    (∀ n s w, t.pool.slot? n = some s → w ∈ s.waiters.map (·.id) ∨ w ∈ s.handed.map (·.1) →
      ∃! call, ∃ ticket deadline, t.calls call = some (.queued ticket ⟨n, w⟩ deadline)) ∧
    (∀ lease, (∃ n, t.Leased n lease) ↔ Granted moves lease ∧ ¬ Ended moves lease) ∧
    (∀ n lease, t.Leased n lease →
      (∃ ticket grant, t.calls lease = some (.pacing ticket grant)) ∨
      (∃ ticket instant, t.calls lease = some (.granted ticket instant)) ∨ Detached moves lease) ∧
    ((∀ call a, t.calls call = some a → a.isDone = true) →
      (∀ lease, Granted moves lease → Ended moves lease) →
      ∀ n s, t.pool.slot? n = some s →
        s.occupied = 0 ∧ s.leases = [] ∧ s.waiters = [] ∧ s.handed = []) := by
  intro t
  refine ⟨?_, leased_iff moves, ?_, ?_⟩
  · intro n s w found place
    obtain ⟨call, ticket, deadline, waits⟩ := run_awaited moves found (List.mem_append.mpr place)
    refine ⟨call, ⟨ticket, deadline, waits⟩, ?_⟩
    rintro other ⟨ticket', deadline', waits'⟩
    exact awaited_once moves waits waits' found
  · intro n lease held
    rcases held.inHand with ⟨a, ticket, present, holds⟩ | detached
    · cases a with
      | pacing ticket' grant => exact Or.inl ⟨ticket', grant, present⟩
      | granted ticket' instant => exact Or.inr (Or.inl ⟨ticket', instant, present⟩)
      | _ => cases holds
    · exact Or.inr (Or.inr detached)
  · intro idle ended n s found
    have places : s.waiterIds = [] := by
      rw [List.eq_nil_iff_forall_not_mem]
      intro w member
      obtain ⟨call, ticket, deadline, waits⟩ := run_awaited moves found member
      exact Bool.false_ne_true (idle call _ waits)
    have leases : s.leases = [] := by
      rw [List.eq_nil_iff_forall_not_mem]
      intro entry member
      have held : t.Leased n entry.1 := ⟨s, found, List.mem_map_of_mem member⟩
      exact held.unended (ended _ held.granted)
    obtain ⟨count, waiters, handed⟩ := Slot.Sound.emptied ((run_sound moves).slots n s found) places leases
    exact ⟨count, leases, waiters, handed⟩

/-- Acquisitions are given up in the queue, after a hand-off, at the deadline just as a slot is handed over, and
before the grant instant; the leases that were granted end. -/
theorem nothing_left_behind_given_up :
    let relay : TransportName := ⟨"relay"⟩
    let moves : List (Nat × Move) :=
      [(0, .configure relay ⟨1, 0⟩), (0, .acquire relay 500), (1, .acquire relay 500),
        (2, .acquire relay 500), (3, .cancel 2), (4, .release relay 1), (5, .cancel 3),
        (6, .acquire relay 10), (7, .acquire relay 3), (10, .release relay 4), (10, .timeOut 5),
        (11, .configure relay ⟨1, 1⟩), (12, .acquire relay 5000), (13, .cancel 6)]
    let t := empty.run moves
    (∀ call a, t.calls call = some a → a.isDone = true) ∧
      (∀ lease, Granted moves lease → Ended moves lease) ∧
      ∃ s, t.pool.slot? 0 = some s ∧ s.occupied = 0 ∧ s.leases = [] ∧ s.waiters = [] ∧ s.handed = [] := by
  intro relay moves t
  have next : t.pool.nextLease = 7 := by decide +kernel
  have slots : t.pool.slots = [(relay, ⟨0, ⟨1, 1000, 0, [], [], [], some 1010, 3⟩⟩)] := by decide +kernel
  have finished : ∀ call < 7, (t.calls call).all (·.isDone) = true := by decide +kernel
  have run : t = empty.run moves := rfl
  clear_value t
  have idle : ∀ call a, t.calls call = some a → a.isDone = true := by
    intro call a present
    have issued := (run_sound moves).calls_issued call a (run ▸ present)
    rw [← run, next] at issued
    simpa [present] using finished call issued
  have ended : ∀ lease, Granted moves lease → Ended moves lease := by
    intro lease granted
    by_contra unended
    obtain ⟨n, s, found, held⟩ := granted.leased unended
    obtain ⟨name, member⟩ := Pool.slot?_mem found
    rw [← run, slots] at member
    cases List.mem_singleton.mp member
    cases held
  have found : t.pool.slot? 0 = some ⟨1, 1000, 0, [], [], [], some 1010, 3⟩ := by simp [Pool.slot?, slots]
  have empty := (nothing_left_behind moves).2.2.2
  rw [← run] at empty
  exact ⟨idle, ended, _, found, empty idle ended 0 _ found⟩

end Traffic

end RelayRamp.Lease
