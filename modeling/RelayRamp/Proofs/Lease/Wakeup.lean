import RelayRamp.Proofs.Lease.Traffic

/-!
# No free slot beside a queued caller

Slots become free by releases, by reclaims, by callers that leave after a hand-off, and by a higher capacity.
Each of these serves the queue until it is empty or every slot is taken, also past waiters that are too late or
no longer listen. So nobody waits beside a free slot, in any state, and a caller that enters can take a slot at
once only when nobody waits.
-/
namespace RelayRamp.Lease

open RelayRamp.Routing

namespace Slot

/-- Somebody waits only while every slot is taken. -/
def Busy (s : Slot) : Prop := s.waiters ≠ [] → s.capacity ≤ s.occupied

theorem fresh_busy (limits : TransportLimits) : (fresh limits).Busy :=
  fun waits => absurd rfl waits

/-- Serving the queue makes the slots busy, whatever they were before. -/
theorem dispatch_busy (s : Slot) (now : Nat) : (s.dispatch now).1.Busy := by
  intro waits
  rcases serve_exhausts now s.waiters s with none | full
  · exact absurd none waits
  · exact full

theorem enter_busy {s : Slot} (busy : s.Busy) (now lease deadline : Nat) :
    (s.enter now lease deadline).1.Busy := by
  rcases enter_cases s now lease deadline with
    ⟨none, -, -, granted⟩ | ⟨-, -, -, refused⟩ | ⟨full, queued⟩
  · rw [granted]
    exact fun waits => absurd none waits
  · rw [refused]
    exact busy
  · rw [queued]
    intro _
    rcases full with waits | taken
    · exact busy waits
    · exact taken

theorem claim_busy {s : Slot} (busy : s.Busy) (waiter lease : Nat) :
    (((s.claim waiter lease).map (·.1)).getD s).Busy := by
  rcases claim_cases s waiter lease with ⟨grant, -, -, claimed⟩ | ⟨-, missing⟩
  · rw [claimed]
    exact busy
  · rw [missing]
    exact busy

theorem hangUp_busy {s : Slot} (busy : s.Busy) (waiter : Nat) : (s.hangUp waiter).Busy := by
  intro waits
  apply busy
  intro none
  exact waits (by simp only [hangUp, none, List.map_nil])

theorem leave_busy {s : Slot} (busy : s.Busy) (waiter now : Nat) : (s.leave waiter now).1.Busy := by
  rcases leave_cases s waiter now with ⟨-, left⟩ | ⟨-, -, given⟩ | ⟨-, -, gone⟩
  · rw [left]
    intro waits
    apply busy
    intro none
    exact waits (by simp only [none, List.filter_nil])
  · rw [given]
    exact dispatch_busy _ now
  · rw [gone]
    exact busy

theorem release_busy {s : Slot} (busy : s.Busy) (lease now : Nat) :
    ((s.release lease now).getD (s, [])).1.Busy := by
  by_cases held : lease ∈ s.leases.map (·.1)
  · rw [release_of_mem held]
    exact dispatch_busy _ now
  · rw [release_of_not_mem held]
    exact busy

theorem releaseAll_busy (now : Nat) (leases : List Nat) {s : Slot} (busy : s.Busy) :
    (releaseAll now leases s).1.Busy := by
  induction leases generalizing s with
  | nil => exact busy
  | cons lease rest ih => exact ih (release_busy busy lease now)

theorem step_busy {s : Slot} (busy : s.Busy) (now : Nat) (op : Operation) : (s.step now op).1.Busy := by
  cases op with
  | enter lease deadline => exact enter_busy busy now lease deadline
  | claim waiter lease => exact claim_busy busy waiter lease
  | hangUp waiter cause => exact hangUp_busy busy waiter
  | leave waiter cause => exact leave_busy busy waiter now
  | release lease => exact release_busy busy lease now
  | reclaim maxHold => exact releaseAll_busy now _ busy
  | configure limits => exact dispatch_busy _ now

theorem run_busy (limits : TransportLimits) (ops : List (Nat × Operation)) :
    ((fresh limits).run ops).Busy :=
  run_induction _ (fresh_busy limits) (fun _ now op busy => step_busy busy now op) ops

/-- A caller that enters behind others joins the end of the queue, and that is all. -/
theorem enter_behind {s : Slot} (waits : s.waiters ≠ []) (now lease deadline : Nat) :
    s.enter now lease deadline =
      ({ s with
          waiters := s.waiters ++ [⟨s.nextWaiter, deadline, true⟩]
          nextWaiter := s.nextWaiter + 1 },
        .queued s.nextWaiter) := by
  rcases enter_cases s now lease deadline with
    ⟨none, -, -, -⟩ | ⟨none, -, -, -⟩ | ⟨-, queued⟩
  · exact absurd none waits
  · exact absurd none waits
  · exact queued

end Slot

namespace Traffic

/-- No lost wake-up: after any operations on a transport, and in the pool after any moves, nobody waits beside a
free slot, and whoever enters while somebody waits is queued last. -/
theorem queued_only_when_full :
    (∀ limits ops, ((Slot.fresh limits).run ops).waiters ≠ [] →
      ((Slot.fresh limits).run ops).capacity ≤ ((Slot.fresh limits).run ops).occupied) ∧
    (∀ moves n s, (empty.run moves).pool.slot? n = some s → s.waiters ≠ [] →
      s.capacity ≤ s.occupied ∧
      ∀ now lease deadline, s.enter now lease deadline =
        ({ s with
            waiters := s.waiters ++ [⟨s.nextWaiter, deadline, true⟩]
            nextWaiter := s.nextWaiter + 1 },
          .queued s.nextWaiter)) := by
  refine ⟨fun limits ops => Slot.run_busy limits ops, fun moves n s found waits => ⟨?_, ?_⟩⟩
  · obtain ⟨limits, ops, rfl⟩ := slot_history moves n s found
    exact Slot.run_busy limits ops waits
  · exact Slot.enter_behind waits

/-- Two callers wait behind a lease; a higher capacity serves the one and leaves the other behind two leases. -/
theorem queued_only_when_full_raised :
    let relay : TransportName := ⟨"relay"⟩
    let moves : List (Nat × Move) :=
      [(0, .configure relay ⟨1, 0⟩), (0, .acquire relay 500), (1, .acquire relay 500),
        (2, .acquire relay 500), (3, .configure relay ⟨2, 0⟩)]
    ∃ s, (empty.run moves).pool.slot? 0 = some s ∧ s.waiters = [⟨1, 502, true⟩] ∧
      s.handed = [(0, 3)] ∧ s.capacity = 2 ∧ s.capacity ≤ s.occupied := by
  intro relay moves
  refine ⟨⟨2, 0, 2, [(1, 0)], [⟨1, 502, true⟩], [(0, 3)], some 3, 2⟩, by decide, rfl, rfl, rfl, ?_⟩
  exact (queued_only_when_full.2 moves 0 _ (by decide) (by decide)).1

end Traffic

end RelayRamp.Lease
