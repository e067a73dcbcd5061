import RelayRamp.Proofs.Lease.Succession

/-!
# Acquisitions without a slot

An acquisition has a slot from when one is handed to it, or it is granted its lease on entry. A slot that was handed
over is kept for it as long as it waits, so one that waits and has no slot never had one, and if it then gives up or
fails it never has one. The place at which it waited in a queue is not given to another.
-/
namespace RelayRamp.Lease

open RelayRamp.Admission RelayRamp.Routing

/-- A slot that was handed out is kept for its waiter until that one claims it or leaves. -/
theorem Slot.handed_kept {s : Slot} {v : Nat} {op : Operation} (handed : v ∈ s.handed.map (·.1)) (now : Nat)
    (unclaimed : ∀ lease, op ≠ .claim v lease) (stays : ∀ cause, op ≠ .leave v cause) :
    v ∈ (s.step now op).1.handed.map (·.1) := by
  cases op with
  | enter lease deadline =>
    simp only [step]
    rcases enter_cases s now lease deadline with ⟨-, -, -, granted⟩ | ⟨-, -, -, refused⟩ | ⟨-, queued⟩
    · rwa [granted]
    · rwa [refused]
    · rwa [queued]
  | claim waiter lease =>
    have other : v ≠ waiter := fun same => unclaimed lease (same ▸ rfl)
    simp only [step]
    rcases claim_cases s waiter lease with ⟨grant, -, -, claimed⟩ | ⟨-, missing⟩
    · rw [claimed, Option.map_some, Option.getD_some, map_key_filter]
      exact List.mem_filter.mpr ⟨handed, by simpa using other⟩
    · rwa [missing]
  | hangUp waiter cause => exact handed
  | leave waiter cause =>
    have other : v ≠ waiter := fun same => stays cause (same ▸ rfl)
    simp only [step]
    rcases leave_cases s waiter now with ⟨-, left⟩ | ⟨-, -, given⟩ | ⟨-, -, gone⟩
    · rwa [left]
    · rw [given, freeSlot, dispatch, serve_handed, List.map_append, map_key_filter]
      exact List.mem_append_left _ (List.mem_filter.mpr ⟨handed, by simpa using other⟩)
    · rwa [gone]
  | release lease =>
    have all := releaseAll_handed now [lease] s
    simp only [releaseAll, List.append_nil] at all
    simp only [step, all, List.map_append]
    exact List.mem_append_left _ handed
  | reclaim maxHold =>
    simp only [step, releaseAll_handed, List.map_append]
    exact List.mem_append_left _ handed
  | configure limits => exact ((configure_keeps s limits now).2.map _).mem handed

namespace Traffic

variable {t : Traffic} {moves rest : List (Nat × Move)} {call other now : Nat} {key : WaitKey} {move : Move} {s : Slot}

/-- A slot was handed to the acquisition, or it has its lease in hand. -/
def served (t : Traffic) (call : Nat) : Bool :=
  match t.calls call with
  | some (.queued _ key _) => (t.pool.slot? key.generation).any fun s => s.handed.any (·.1 = key.waiter)
  | some a => a.lease?.isSome
  | none => false

/-- The acquisition never has a slot in the run. -/
def NeverServed (moves : List (Nat × Move)) (call : Nat) : Prop :=
  ∀ earlier, earlier <+: moves → (empty.run earlier).served call = false

/-- The acquisition was in the queue at the place. -/
def WaitedAt (moves : List (Nat × Move)) (call : Nat) (key : WaitKey) : Prop :=
  ∃ earlier ticket deadline, earlier <+: moves ∧ (empty.run earlier).calls call = some (.queued ticket key deadline)

theorem NeverServed.before (never : NeverServed (moves ++ rest) call) : NeverServed moves call :=
  fun earlier leads => never earlier (leads.trans (List.prefix_append ..))

theorem NeverServed.unleased (never : NeverServed moves call) {a : Acquisition}
    (present : (empty.run moves).calls call = some a) : a.lease? = none := by
  have unserved := never moves List.prefix_rfl
  simp only [served, present] at unserved
  cases a with
  | queued ticket key deadline => rfl
  | _ => exact Option.not_isSome_iff_eq_none.mp (Bool.not_eq_true _ ▸ unserved)

theorem NeverServed.unhanded (never : NeverServed moves call) {ticket : LeaseTicket} {deadline : Nat}
    (waits : (empty.run moves).calls call = some (.queued ticket key deadline))
    (found : (empty.run moves).pool.slot? key.generation = some s) : key.waiter ∉ s.handed.map (·.1) := by
  have unserved := never moves List.prefix_rfl
  simp only [served, waits, found, Option.any_some] at unserved
  intro handed
  rw [any_key_iff.mpr handed] at unserved
  cases unserved

/-! ### Places in a queue -/

/-- A place that was given out is below the next. -/
theorem WaitedAt.issued (waited : WaitedAt moves call key)
    (found : (empty.run moves).pool.slot? key.generation = some s) : key.waiter < s.nextWaiter := by
  obtain ⟨earlier, ticket, deadline, ⟨rest, rfl⟩, waits⟩ := waited
  rw [← diary_traffic] at waits found
  obtain ⟨c, member, -, number, -⟩ := (Diary.run_sound earlier).queued _ _ _ _ waits
  obtain ⟨c', member', -, -, waiter, -⟩ := callers_run _ member rest
  rw [← diary_run_append] at member'
  exact ((Diary.run_sound (earlier ++ rest)).registered _ s found).issued c' member' _ (waiter.trans number)

theorem WaitedAt.opened (waited : WaitedAt moves call key) :
    key.generation < (empty.run moves).pool.nextGeneration := by
  obtain ⟨earlier, ticket, deadline, ⟨rest, rfl⟩, waits⟩ := waited
  rw [run_append]
  exact Nat.lt_of_lt_of_le ((run_ticketed earlier).opened _ _ _ _ waits)
    (nextGeneration_run_le (run_sound earlier).numbered rest)

theorem WaitedAt.only (waited : WaitedAt moves other key) {ticket : LeaseTicket} {deadline : Nat}
    (waits : (empty.run moves).calls call = some (.queued ticket key deadline))
    (found : (empty.run moves).pool.slot? key.generation = some s) : call = other := by
  obtain ⟨earlier, _, _, ⟨rest, rfl⟩, waited⟩ := waited
  exact place_once waited waits found

theorem waitedAt_now {ticket : LeaseTicket} {deadline : Nat}
    (waits : (empty.run moves).calls call = some (.queued ticket key deadline)) : WaitedAt moves call key :=
  ⟨moves, ticket, deadline, List.prefix_rfl, waits⟩

theorem WaitedAt.begun (waited : WaitedAt moves call key) : call < (empty.run moves).pool.nextLease := by
  obtain ⟨earlier, ticket, deadline, ⟨rest, rfl⟩, waits⟩ := waited
  rw [run_append]
  exact Nat.lt_of_lt_of_le ((run_sound earlier).calls_issued _ _ waits) (nextLease_run_le _ rest)

/-- Once it has begun, its own moves give it no new place. -/
theorem waitedAt_step {last : Nat × Move} (elsewhere : ∀ transport timeout, last.2 = .acquire transport timeout →
      call ≠ (empty.run moves).pool.nextLease) :
    WaitedAt (moves ++ [last]) call key ↔ WaitedAt moves call key := by
  obtain ⟨now, move⟩ := last
  constructor
  · rintro ⟨earlier, ticket, deadline, leads, waits⟩
    rcases List.prefix_concat_iff.mp leads with rfl | before
    · rw [run_append] at waits
      rcases queued_step waits with ⟨waited, -⟩ | ⟨transport, timeout, g, begins, first, -⟩
      · exact waitedAt_now waited
      · exact absurd first (elsewhere transport timeout begins)
    · exact ⟨earlier, ticket, deadline, before, waits⟩
  · rintro ⟨earlier, ticket, deadline, before, waits⟩
    exact ⟨earlier, ticket, deadline, before.trans (List.prefix_append ..), waits⟩

/-! ### Who ends in the queue -/

/-- A slot that was handed to an acquisition is kept for it as long as it waits. -/
theorem served_kept (served : (empty.run moves).served call = true) {ticket : LeaseTicket} {deadline : Nat}
    (waits : ((empty.run moves).step now move).calls call = some (.queued ticket key deadline)) :
    ((empty.run moves).step now move).served call = true := by
  have h := run_sound moves
  rcases queued_step waits with ⟨waited, unclaimed⟩ | ⟨_, _, _, -, begun, -⟩
  · obtain ⟨s, found, handed⟩ : ∃ s, (empty.run moves).pool.slot? key.generation = some s ∧
        key.waiter ∈ s.handed.map (·.1) := by
      simp only [Traffic.served, waited, Option.any_eq_true] at served
      obtain ⟨s, found, handed⟩ := served
      exact ⟨s, found, any_key_iff.mp handed⟩
    have claims : move ≠ .resume call := by
      intro mine
      rcases Slot.claim_cases s key.waiter ticket.leaseId with ⟨grant, -, -, claimed⟩ | ⟨unhanded, -⟩
      · cases claimed.symm.trans (unclaimed mine s found)
      · exact unhanded handed
    rcases slot?_step h.numbered now move key.generation with
      same | ⟨_, s', -, found', idle, -⟩ | ⟨_, _, -, absent, -, -⟩
    · rw [found, Option.map_some] at same
      simp only [Traffic.served, waits, same, Option.any_some]
      refine any_key_iff.mpr ?_
      cases performed : (empty.run moves).operation? now move key.generation with
      | none => exact handed
      | some op =>
        -- Nobody else waits at its place, so only its own moves could take the slot away.
        have own {other : Nat} {ticket' : LeaseTicket} {key' : WaitKey} {deadline' : Nat}
            (queued : (empty.run moves).calls other = some (.queued ticket' key' deadline'))
            (place : key.generation = key'.generation) (waiter : key'.waiter = key.waiter) : other = call := by
          obtain rfl : key' = key := WaitKey.mk.injEq .. ▸ ⟨place.symm, waiter⟩
          exact awaited_once moves waited queued found
        refine Slot.handed_kept handed now (fun lease claim => ?_) fun cause leave => ?_
        · cases performs performed with
          | claim queued place => exact claims (own queued place (Operation.claim.inj claim).1 ▸ rfl)
          | _ => cases claim
        · cases performs performed with
          | giveUp queued place due => exact claims (own queued place (Operation.leave.inj leave).1 ▸ rfl)
          | timeOut queued place due =>
            obtain rfl := own queued place (Operation.leave.inj leave).1
            cases waited.symm.trans queued
            simp [step, waited, keep, Nat.not_lt.mpr due] at waits
          | cancel queued place =>
            obtain rfl := own queued place (Operation.leave.inj leave).1
            simp [step, waited, keep] at waits
          | _ => cases leave
    · cases found.symm.trans found'
      have balance := (h.slots _ s found).balance
      have free : s.occupied = 0 := by
        simp only [Slot.isIdle, Bool.and_eq_true, decide_eq_true_eq] at idle
        exact idle.1
      have unhanded : s.handed = [] := List.eq_nil_of_length_eq_zero (by omega)
      rw [unhanded] at handed
      cases handed
    · cases found.symm.trans absent
  · cases present : (empty.run moves).calls call with
    | none => simp [Traffic.served, present] at served
    | some a => exact absurd (begun ▸ h.calls_issued call a present) (Nat.lt_irrefl _)

theorem neverServed_of_unbegun (unbegun : (empty.run moves).pool.nextLease ≤ call) : NeverServed moves call := by
  rintro earlier ⟨rest, rfl⟩
  rw [run_append] at unbegun
  cases present : (empty.run earlier).calls call with
  | none => simp only [served, present]
  | some a =>
    have issued := (run_sound earlier).calls_issued call a present
    have grows := nextLease_run_le (empty.run earlier) rest
    omega

/-- An acquisition that waits and has no slot never had one. -/
theorem neverServed_of_waiting {ticket : LeaseTicket} {deadline : Nat}
    (waits : (empty.run moves).calls call = some (.queued ticket key deadline))
    (unserved : (empty.run moves).served call = false) : NeverServed moves call := by
  induction moves using List.reverseRecOn with
  | nil => cases waits
  | append_singleton moves last ih =>
    obtain ⟨now, move⟩ := last
    intro earlier leads
    rcases List.prefix_concat_iff.mp leads with rfl | before
    · exact unserved
    · rw [run_append] at waits unserved
      rcases queued_step waits with ⟨waited, -⟩ | ⟨_, _, _, -, begins, -⟩
      · refine ih waited (Bool.eq_false_iff.mpr fun served => ?_) earlier before
        cases unserved.symm.trans (served_kept served waits)
      · exact neverServed_of_unbegun (Nat.le_of_eq begins.symm) earlier before

/-- The acquisition has failed, or it was cancelled. -/
def GivenUp (t : Traffic) (call : Nat) : Prop := ∀ a, t.calls call = some a → ∃ fault, a = .failed fault

theorem GivenUp.unserved (ended : t.GivenUp call) : t.served call = false := by
  cases present : t.calls call with
  | none => simp only [served, present]
  | some a =>
    obtain ⟨fault, rfl⟩ := ended a present
    simp only [served, present]
    rfl

theorem GivenUp.step (ended : t.GivenUp call) (issued : call < t.pool.nextLease) (now : Nat) (move : Move) :
    (t.step now move).GivenUp call := by
  intro a present
  obtain ⟨b, same, turned⟩ : ∃ b, some a = b ∧ t.Becomes now call move b := ⟨_, present.symm, becomes t now move call⟩
  cases turned with
  | same apart => exact ended a same.symm
  | begun new => exact absurd (new ▸ issued) (Nat.lt_irrefl _)
  | resumed waits begun =>
    obtain ⟨fault, rfl⟩ := ended _ waits
    exact ⟨fault, Option.some.inj same⟩
  | timedOut queued due => exact ⟨_, Option.some.inj same⟩
  | cancelled waits => cases same
  | detached granted => cases same

theorem GivenUp.run (ended : t.GivenUp call) (issued : call < t.pool.nextLease) (moves : List (Nat × Move)) :
    (t.run moves).GivenUp call := by
  induction moves generalizing t with
  | nil => exact ended
  | cons head rest ih =>
    exact ih (ended.step issued head.1 head.2) (Nat.lt_of_lt_of_le issued (nextLease_le t head.1 head.2))

/-- Whoever had no slot up to its end never has one. -/
theorem NeverServed.ended (never : NeverServed moves call) (ended : ((empty.run moves).step now move).GivenUp call)
    (issued : call < ((empty.run moves).step now move).pool.nextLease) (rest : List (Nat × Move)) :
    NeverServed (moves ++ (now, move) :: rest) call := by
  intro earlier leads
  rcases List.prefix_or_prefix_of_prefix leads (List.prefix_append moves _) with before | ⟨later, rfl⟩
  · exact never earlier before
  · rcases List.prefix_cons_iff.mp ((List.prefix_append_right_inj moves).mp leads) with rfl | ⟨later, rfl, -⟩
    · rw [List.append_nil]
      exact never moves List.prefix_rfl
    · rw [run_append]
      exact (ended.run issued later).unserved

end Traffic

end RelayRamp.Lease
