import RelayRamp.Proofs.Lease.Traffic

/-!
# Outstanding leases

`Traffic.Leased` says that a lease is among the leases of a generation. Ids of leases are issued once, to one
acquisition, and a lease comes into being only when that acquisition enters a free slot or claims the slot that
it was handed. `Traffic.Sound` is the invariant that holds this together; every run from the empty pool
preserves it.
-/
namespace RelayRamp.Lease

open RelayRamp.Admission RelayRamp.Routing

namespace Slot

/-- A lease is new after an operation only if a caller was granted a slot on entry or claimed one. -/
theorem mem_leases_step {s : Slot} {now : Nat} {op : Operation} {lease : Nat}
    (held : lease ∈ (s.step now op).1.leases.map (·.1)) :
    lease ∈ s.leases.map (·.1) ∨
      (∃ deadline grant, op = .enter lease deadline ∧
        (s.enter now lease deadline).2 = .granted grant) ∨
      (∃ waiter taken, op = .claim waiter lease ∧ s.claim waiter lease = some taken) := by
  cases op with
  | enter id deadline =>
    simp only [step] at held
    rcases enter_cases s now id deadline with
      ⟨-, -, -, granted⟩ | ⟨-, -, -, refused⟩ | ⟨-, queued⟩
    · rw [granted, List.map_append, List.mem_append] at held
      rcases held with old | new
      · exact Or.inl old
      · have same : lease = id := by simpa using new
        subst same
        exact Or.inr (Or.inl ⟨deadline, s.nextGrant now, rfl, by rw [granted]⟩)
    · rw [refused] at held
      exact Or.inl held
    · rw [queued] at held
      exact Or.inl held
  | claim waiter id =>
    simp only [step] at held
    rcases claim_cases s waiter id with ⟨grant, -, -, claimed⟩ | ⟨-, missing⟩
    · rw [claimed, Option.map_some, Option.getD_some, List.map_append, List.mem_append] at held
      rcases held with old | new
      · exact Or.inl old
      · have same : lease = id := by simpa using new
        subst same
        exact Or.inr (Or.inr ⟨waiter, _, rfl, claimed⟩)
    · rw [missing] at held
      exact Or.inl held
  | hangUp waiter cause => exact Or.inl held
  | leave waiter cause =>
    simp only [step, leave_leases] at held
    exact Or.inl held
  | release id =>
    simp only [step, release_leases] at held
    exact Or.inl ((List.filter_sublist.map _).mem held)
  | reclaim maxHold =>
    simp only [step, releaseAll_leases] at held
    exact Or.inl ((List.filter_sublist.map _).mem held)
  | configure limits =>
    simp only [step, (configure_keeps s limits now).1] at held
    exact Or.inl held

/-- A lease ends only by its release or because it is reclaimed as expired. -/
theorem lease_lost {s : Slot} {now : Nat} {op : Operation} {lease : Nat}
    (held : lease ∈ s.leases.map (·.1)) (lost : lease ∉ (s.step now op).1.leases.map (·.1)) :
    op = .release lease ∨ ∃ maxHold, op = .reclaim maxHold ∧ lease ∈ s.expired maxHold now := by
  cases op with
  | enter id deadline =>
    refine absurd ?_ lost
    rcases enter_cases s now id deadline with
      ⟨-, -, -, granted⟩ | ⟨-, -, -, refused⟩ | ⟨-, queued⟩
    · simp only [step, granted, List.map_append]
      exact List.mem_append_left _ held
    · simpa only [step, refused] using held
    · simpa only [step, queued] using held
  | claim waiter id =>
    refine absurd ?_ lost
    rcases claim_cases s waiter id with ⟨grant, -, -, claimed⟩ | ⟨-, missing⟩
    · simp only [step, claimed, Option.map_some, Option.getD_some, List.map_append]
      exact List.mem_append_left _ held
    · simpa only [step, missing, Option.map_none, Option.getD_none] using held
  | hangUp waiter cause => exact absurd held lost
  | leave waiter cause =>
    simp only [step, leave_leases] at lost
    exact absurd held lost
  | release id =>
    refine Or.inl ?_
    by_contra other
    have different : lease ≠ id := fun same => other (same ▸ rfl)
    simp only [step, release_leases, map_key_filter] at lost
    exact lost (List.mem_filter.mpr ⟨held, by simpa using different⟩)
  | reclaim maxHold =>
    refine Or.inr ⟨maxHold, rfl, ?_⟩
    by_contra stays
    obtain ⟨entry, inside, rfl⟩ := List.mem_map.mp held
    simp only [step, releaseAll_leases] at lost
    exact lost (List.mem_map_of_mem (List.mem_filter.mpr ⟨inside, by simpa using stays⟩))
  | configure limits =>
    simp only [step, (configure_keeps s limits now).1] at lost
    exact absurd held lost

end Slot

namespace Traffic

/-- A lease is outstanding in a generation. -/
def Leased (t : Traffic) (n lease : Nat) : Prop :=
  ∃ s, t.pool.slot? n = some s ∧ lease ∈ s.leases.map (·.1)

/-- How a lease comes into being. -/
inductive Makes (t : Traffic) (now n : Nat) : Move → Nat → Prop where
  | entered {transport timeout g grant} (found : t.pool.find? transport = some g)
      (same : n = g.number)
      (granted : (g.slot.enter now t.pool.nextLease (now + timeout)).2 = .granted grant) :
      Makes t now n (.acquire transport timeout) t.pool.nextLease
  | claimed {call ticket key deadline s taken}
      (queued : t.calls call = some (.queued ticket key deadline)) (same : n = key.generation)
      (found : t.pool.slot? n = some s) (claimed : s.claim key.waiter ticket.leaseId = some taken) :
      Makes t now n (.resume call) ticket.leaseId

structure Sound (t : Traffic) : Prop where
  numbered : t.pool.Numbered
  slots : ∀ n s, t.pool.slot? n = some s → s.Sound
  calls_issued : ∀ call a, t.calls call = some a → call < t.pool.nextLease
  tickets : ∀ call ticket key deadline,
    t.calls call = some (.queued ticket key deadline) → ticket.leaseId = call
  leased_issued : ∀ n lease, t.Leased n lease → lease < t.pool.nextLease
  leased_once : ∀ n m lease, t.Leased n lease → t.Leased m lease → n = m
  queued_unleased : ∀ call ticket key deadline n,
    t.calls call = some (.queued ticket key deadline) → ¬ t.Leased n call

theorem empty_sound : empty.Sound where
  numbered := ⟨List.nodup_nil, List.nodup_nil, by simp [empty, Pool.empty]⟩
  slots := by simp [empty, Pool.empty, Pool.slot?]
  calls_issued := by simp [empty]
  tickets := by simp [empty]
  leased_issued := by simp [Leased, empty, Pool.empty, Pool.slot?]
  leased_once := by simp [Leased, empty, Pool.empty, Pool.slot?]
  queued_unleased := by simp [empty]

variable {t : Traffic}

/-- A lease that is outstanding after a move was so before, or the move made it. -/
theorem leased_step (h : t.pool.Numbered) {now n lease : Nat} {move : Move}
    (held : (t.step now move).Leased n lease) : t.Leased n lease ∨ t.Makes now n move lease := by
  obtain ⟨s', found', member⟩ := held
  rcases slot?_step h now move n with same | ⟨keep, s, -, -, -, gone⟩ |
    ⟨transport, limits, -, -, -, fresh⟩
  · rw [found'] at same
    obtain ⟨s, found, rfl⟩ := Option.map_eq_some_iff.mp same.symm
    cases performed : t.operation? now move n with
    | none =>
      rw [performed] at member
      exact Or.inl ⟨s, found, member⟩
    | some op =>
      rw [performed] at member
      rcases Slot.mem_leases_step member with old | ⟨deadline, grant, rfl, granted⟩ |
        ⟨waiter, taken, rfl, claimed⟩
      · exact Or.inl ⟨s, found, old⟩
      · cases performs performed with
        | enter present place =>
          subst place
          have slot := Pool.slot?_of_find? h present
          rw [found] at slot
          cases slot
          exact Or.inr (.entered present rfl granted)
      · cases performs performed with
        | claim queued place => exact Or.inr (.claimed queued place found claimed)
  · rw [gone] at found'
    cases found'
  · rw [fresh] at found'
    cases found'
    simp [Slot.fresh] at member

/-- An acquisition that waits after a move waited before and claims nothing, or the move made it join a
queue. -/
theorem queued_step {now call : Nat} {move : Move} {ticket : LeaseTicket} {key : WaitKey}
    {deadline : Nat} (waits : (t.step now move).calls call = some (.queued ticket key deadline)) :
    (t.calls call = some (.queued ticket key deadline) ∧
      (move = .resume call → ∀ s, t.pool.slot? key.generation = some s →
        s.claim key.waiter ticket.leaseId = none)) ∨
    (∃ transport timeout g, move = .acquire transport timeout ∧ call = t.pool.nextLease ∧
      ticket = ⟨transport, call⟩ ∧ t.pool.find? transport = some g ∧ key.generation = g.number ∧
      deadline = now + timeout ∧ (g.slot.enter now call deadline).2 = .queued key.waiter) := by
  obtain ⟨a, after, turned⟩ : ∃ a, some (Acquisition.queued ticket key deadline) = a ∧
      t.Becomes now call move a := ⟨_, waits.symm, becomes t now move call⟩
  cases turned with
  | same apart => exact Or.inl ⟨after.symm, fun mine => absurd mine (apart _ _ _ after.symm)⟩
  | @begun transport timeout new =>
    refine Or.inr ?_
    subst new
    cases found : t.pool.find? transport with
    | none => simp [Acquisition.start_absent found] at after
    | some g =>
      simp only [Acquisition.start_found found, Option.some.injEq] at after
      cases entry : (g.slot.enter now t.pool.nextLease (now + timeout)).2 with
      | queued waiter =>
        rw [entry] at after
        cases after
        exact ⟨transport, timeout, g, rfl, rfl, rfl, found, rfl, rfl, entry⟩
      | granted grant =>
        simp only [entry, Acquisition.entered, Acquisition.paced] at after
        split at after <;> cases after
      | tooLate =>
        rw [entry] at after
        cases after
  | @resumed a present begun =>
    refine Or.inl ?_
    cases a with
    | queued ticket' key' deadline' =>
      simp only [Acquisition.resume] at after
      rcases Acquisition.resumeQueued_cases t.pool now ticket' key' deadline' with
        ⟨s, s', grant, -, -, result⟩ | ⟨s, found, unclaimed, -, result⟩ | ⟨-, effects, result⟩
      · simp only [result, Acquisition.paced] at after
        split at after <;> cases after
      · rw [result] at after
        cases after
        refine ⟨present, fun _ s' found' => ?_⟩
        rw [found] at found'
        cases found'
        exact unclaimed
      · rw [result] at after
        cases after
    | requested transport timeout => exact absurd rfl (begun transport timeout)
    | pacing ticket' grant =>
      simp only [Acquisition.resume, Acquisition.paced] at after
      split at after <;> cases after
    | granted ticket' instant => cases after
    | failed fault => cases after
  | timedOut queued due => cases after
  | cancelled present => cases after
  | detached granted => cases after

/-- An acquisition with a lease in hand after a move had it before, was granted it on entry, or claimed it. -/
theorem in_hand_step {now call : Nat} {move : Move} {a : Acquisition} {ticket : LeaseTicket}
    (present : (t.step now move).calls call = some a) (holds : a.lease? = some ticket) :
    (∃ old, t.calls call = some old ∧ old.lease? = some ticket ∧
      (a = old ∨ ∃ grant, old = .pacing ticket grant ∧ a = .paced ticket grant now)) ∨
    (∃ transport timeout g grant, move = .acquire transport timeout ∧ call = t.pool.nextLease ∧
      ticket = ⟨transport, call⟩ ∧ t.pool.find? transport = some g ∧
      (g.slot.enter now t.pool.nextLease (now + timeout)).2 = .granted grant ∧
      a = .paced ticket grant now) ∨
    (∃ key deadline s s' grant, move = .resume call ∧
      t.calls call = some (.queued ticket key deadline) ∧ t.pool.slot? key.generation = some s ∧
      s.claim key.waiter ticket.leaseId = some (s', grant) ∧ a = .paced ticket grant now) := by
  obtain ⟨b, same, turned⟩ : ∃ b, some a = b ∧ t.Becomes now call move b :=
    ⟨_, present.symm, becomes t now move call⟩
  cases turned with
  | same apart => exact Or.inl ⟨a, same.symm, holds, Or.inl rfl⟩
  | @begun transport timeout new =>
    subst new
    cases found : t.pool.find? transport with
    | none =>
      rw [Acquisition.start_absent found] at same
      cases same
      cases holds
    | some g =>
      rw [Acquisition.start_found found] at same
      cases entry : (g.slot.enter now t.pool.nextLease (now + timeout)).2 with
      | granted grant =>
        rw [entry] at same
        cases same
        rw [Acquisition.entered, Acquisition.paced_lease?] at holds
        cases holds
        exact Or.inr (Or.inl ⟨transport, timeout, g, grant, rfl, rfl, rfl, found, entry, rfl⟩)
      | queued waiter =>
        rw [entry] at same
        cases same
        cases holds
      | tooLate =>
        rw [entry] at same
        cases same
        cases holds
  | @resumed old waits begun =>
    cases old with
    | queued ticket' key deadline =>
      simp only [Acquisition.resume] at same
      rcases Acquisition.resumeQueued_cases t.pool now ticket' key deadline with
        ⟨s, s', grant, found, claimed, result⟩ | ⟨s, -, -, -, result⟩ | ⟨-, effects, result⟩
      · rw [result] at same
        cases same
        rw [Acquisition.paced_lease?] at holds
        cases holds
        exact Or.inr (Or.inr ⟨key, deadline, s, s', grant, rfl, waits, found, claimed, rfl⟩)
      · rw [result] at same
        cases same
        cases holds
      · rw [result] at same
        cases same
        cases holds
    | pacing ticket' grant =>
      cases same
      rw [Acquisition.resume, Acquisition.paced_lease?] at holds
      cases holds
      exact Or.inl ⟨_, waits, rfl, Or.inr ⟨grant, rfl, rfl⟩⟩
    | granted ticket' instant =>
      cases same
      exact Or.inl ⟨_, waits, holds, Or.inl rfl⟩
    | requested transport timeout => exact absurd rfl (begun transport timeout)
    | failed fault =>
      cases same
      cases holds
  | timedOut waits due =>
    cases same
    cases holds
  | cancelled waits => cases same
  | detached granted => cases same

/-! ### Every run keeps the invariant -/

theorem Sound.unleased_next (h : t.Sound) (n : Nat) : ¬ t.Leased n t.pool.nextLease :=
  fun held => Nat.lt_irrefl _ (h.leased_issued n _ held)

theorem Sound.unleased_ticket (h : t.Sound) {call : Nat} {ticket : LeaseTicket} {key : WaitKey}
    {deadline : Nat} (queued : t.calls call = some (.queued ticket key deadline)) (n : Nat) :
    ¬ t.Leased n ticket.leaseId :=
  h.tickets _ _ _ _ queued ▸ h.queued_unleased _ _ _ _ n queued

/-- The lease that an operation may make is not outstanding anywhere. -/
theorem Sound.performs_new (h : t.Sound) {now n : Nat} {move : Move} {op : Operation}
    (performed : t.Performs now n move op) {lease : Nat} (makes : op.newLease? = some lease) (m : Nat) :
    ¬ t.Leased m lease := by
  cases performed with
  | enter found place =>
    cases makes
    exact h.unleased_next m
  | claim queued place =>
    cases makes
    exact h.unleased_ticket queued m
  | _ => cases makes

theorem Sound.makes_new (h : t.Sound) {now n lease : Nat} {move : Move}
    (made : t.Makes now n move lease) (m : Nat) : ¬ t.Leased m lease := by
  cases made with
  | entered found place granted => exact h.unleased_next m
  | claimed queued place found claimed => exact h.unleased_ticket queued m

/-- A move makes a lease in one generation only. -/
theorem Makes.place {now n m lease : Nat} {move : Move} (here : t.Makes now n move lease)
    (there : t.Makes now m move lease) : n = m := by
  cases here with
  | entered found place granted =>
    cases there with
    | entered found' place' granted' =>
      rw [found] at found'
      cases found'
      exact place.trans place'.symm
  | claimed queued place found claimed =>
    generalize same : LeaseTicket.leaseId _ = lease at there
    cases there with
    | claimed queued' place' found' claimed' =>
      rw [queued] at queued'
      cases queued'
      exact place.trans place'.symm

theorem slots_sound_step (h : t.Sound) (now : Nat) (move : Move) (n : Nat) (s' : Slot)
    (found' : (t.step now move).pool.slot? n = some s') : s'.Sound := by
  rcases slot?_step h.numbered now move n with same | ⟨keep, s, -, -, -, gone⟩ |
    ⟨transport, limits, -, -, -, fresh⟩
  · rw [found'] at same
    obtain ⟨s, found, rfl⟩ := Option.map_eq_some_iff.mp same.symm
    cases performed : t.operation? now move n with
    | none => exact h.slots n s found
    | some op =>
      refine Slot.step_sound (h.slots n s found) now op fun lease makes held => ?_
      exact h.performs_new (performs performed) makes n ⟨s, found, held⟩
  · rw [gone] at found'
    cases found'
  · rw [fresh] at found'
    cases found'
    exact Slot.fresh_sound limits

theorem queued_unleased_step (h : t.Sound) (now : Nat) (move : Move) {call n : Nat}
    {ticket : LeaseTicket} {key : WaitKey} {deadline : Nat}
    (waits : (t.step now move).calls call = some (.queued ticket key deadline)) :
    ¬ (t.step now move).Leased n call := by
  intro held
  rcases queued_step waits with ⟨queued, unclaimed⟩ |
    ⟨transport, timeout, g, rfl, rfl, -, found, place, rfl, entry⟩
  · rcases leased_step h.numbered held with old | made
    · exact h.queued_unleased _ _ _ _ n queued old
    · cases made with
      | entered found place granted => exact Nat.lt_irrefl _ (h.calls_issued _ _ queued)
      | @claimed other _ _ _ s taken queued' place found claimed =>
        have mine := h.tickets _ _ _ _ queued'
        rw [← mine] at queued'
        rw [queued] at queued'
        cases queued'
        subst place
        rw [unclaimed (by rw [mine]) s found] at claimed
        cases claimed
  · rcases leased_step h.numbered held with old | made
    · exact h.unleased_next n old
    · generalize same : t.pool.nextLease = lease at made
      cases made with
      | entered found' place' granted =>
        rw [found] at found'
        cases found'
        rw [entry] at granted
        cases granted

theorem sound_step (h : t.Sound) (now : Nat) (move : Move) : (t.step now move).Sound where
  numbered := numbered_step h.numbered now move
  slots := slots_sound_step h now move
  calls_issued := by
    intro call a present
    obtain ⟨b, same, turned⟩ : ∃ b, some a = b ∧ t.Becomes now call move b :=
      ⟨_, present.symm, becomes t now move call⟩
    have grows := nextLease_le t now move
    cases turned with
    | same apart => exact Nat.lt_of_lt_of_le (h.calls_issued _ _ same.symm) grows
    | @begun transport timeout new =>
      rcases nextLease_step t now (.acquire transport timeout) with ⟨other, -⟩ | ⟨_, _, -, next⟩
      · exact absurd rfl (other transport timeout)
      · omega
    | resumed waits begun => exact Nat.lt_of_lt_of_le (h.calls_issued _ _ waits) grows
    | timedOut queued due => exact Nat.lt_of_lt_of_le (h.calls_issued _ _ queued) grows
    | cancelled waits => cases same
    | detached granted => cases same
  tickets := by
    intro call ticket key deadline waits
    rcases queued_step waits with ⟨queued, -⟩ | ⟨_, _, _, -, -, rfl, -⟩
    · exact h.tickets _ _ _ _ queued
    · rfl
  leased_issued := by
    intro n lease held
    have grows := nextLease_le t now move
    rcases leased_step h.numbered held with old | made
    · exact Nat.lt_of_lt_of_le (h.leased_issued n lease old) grows
    · cases made with
      | @entered transport timeout g grant found place granted =>
        rcases nextLease_step t now (.acquire transport timeout) with ⟨other, -⟩ | ⟨_, _, -, next⟩
        · exact absurd rfl (other transport timeout)
        · omega
      | claimed queued place found claimed =>
        rw [h.tickets _ _ _ _ queued]
        exact Nat.lt_of_lt_of_le (h.calls_issued _ _ queued) grows
  leased_once := by
    intro n m lease here there
    rcases leased_step h.numbered here with old | made
    · rcases leased_step h.numbered there with old' | made'
      · exact h.leased_once n m lease old old'
      · exact absurd old (h.makes_new made' n)
    · rcases leased_step h.numbered there with old' | made'
      · exact absurd old' (h.makes_new made m)
      · exact made.place made'
  queued_unleased := by
    intro call ticket key deadline n waits
    exact queued_unleased_step h now move waits

theorem run_sound (moves : List (Nat × Move)) : (empty.run moves).Sound :=
  run_induction empty empty_sound (fun _ now move h => sound_step h now move) moves

end Traffic

end RelayRamp.Lease
