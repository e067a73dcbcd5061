import RelayRamp.Proofs.Lease.Operation

/-!
# The count of taken slots

The number of taken slots is kept apart from the two lists that justify it. `Slot.Sound` says that it is the
number of leases and unclaimed hand-offs together, and that no number names two leases or two waiters. Every
operation preserves it, provided that the leases it makes are new, and then no slot is ever given back that
nobody holds.
-/
namespace RelayRamp.Lease

open RelayRamp.Routing

/-- The id of the lease that an operation may put among the leases. -/
def Operation.newLease? : Operation → Option Nat
  | enter lease _ | claim _ lease => some lease
  | _ => none

namespace Slot

/-- The numbers of the waiters that are queued or were handed a slot. -/
def waiterIds (s : Slot) : List Nat := s.waiters.map (·.id) ++ s.handed.map (·.1)

structure Sound (s : Slot) : Prop where
  balance : s.occupied = s.leases.length + s.handed.length
  leases_nodup : (s.leases.map (·.1)).Nodup
  waiters_nodup : s.waiterIds.Nodup
  issued : ∀ id ∈ s.waiterIds, id < s.nextWaiter

theorem fresh_sound (limits : TransportLimits) : (fresh limits).Sound :=
  ⟨rfl, List.nodup_nil, List.nodup_nil, by simp [waiterIds, fresh]⟩

/-- A waiter that had its turn is no longer queued; if it took a slot it is among the handed instead. -/
theorem take_sound {s : Slot} {w : Waiter} {rest : List Waiter} (now : Nat)
    (sound : { s with waiters := w :: rest }.Sound) :
    { s.take (s.turn now w) with waiters := rest }.Sound := by
  have same := turn_waiter s now w
  have nodup : (w.id :: (rest.map (·.id) ++ s.handed.map (·.1))).Nodup := sound.waiters_nodup
  have issued : ∀ id ∈ w.id :: (rest.map (·.id) ++ s.handed.map (·.1)), id < s.nextWaiter := sound.issued
  have passed : { s with waiters := rest }.Sound :=
    ⟨sound.balance, sound.leases_nodup, (List.nodup_cons.mp nodup).2,
      fun id member => issued id (List.mem_cons_of_mem _ member)⟩
  cases turn : s.turn now w with
  | late waiter earliest => exact passed
  | deaf waiter => exact passed
  | handed waiter grant =>
    rw [turn] at same
    change waiter = w.id at same
    subst same
    have balance : s.occupied = s.leases.length + s.handed.length := sound.balance
    have moved : (rest.map (·.id) ++ (s.handed ++ [(w.id, grant)]).map (·.1)).Perm
        (w.id :: (rest.map (·.id) ++ s.handed.map (·.1))) := by
      simp only [List.map_append, List.map_cons, List.map_nil, ← List.append_assoc]
      exact List.perm_append_singleton _ _
    refine ⟨?_, sound.leases_nodup, moved.nodup_iff.mpr nodup, fun id member => ?_⟩
    · change s.occupied + 1 = s.leases.length + (s.handed ++ [(w.id, grant)]).length
      rw [List.length_append, List.length_singleton]
      omega
    · exact issued id (moved.mem_iff.mp member)

theorem serve_sound (now : Nat) (ws : List Waiter) (s : Slot)
    (sound : { s with waiters := ws }.Sound) : (serve now ws s).1.Sound := by
  induction ws, s using serve_induction now with
  | done s => exact sound
  | full w rest s h => exact sound
  | free w rest s h ih => exact ih (take_sound now sound)

theorem dispatch_sound {s : Slot} (sound : s.Sound) (now : Nat) : (s.dispatch now).1.Sound :=
  serve_sound now s.waiters s sound

theorem configure_sound {s : Slot} (sound : s.Sound) (limits : TransportLimits) (now : Nat) :
    (s.configure limits now).1.Sound := by
  apply dispatch_sound
  exact ⟨sound.balance, sound.leases_nodup, sound.waiters_nodup, sound.issued⟩

theorem nodup_snoc {xs : List Nat} {a : Nat} (nodup : xs.Nodup) (new : a ∉ xs) : (xs ++ [a]).Nodup :=
  (List.perm_append_singleton a xs).nodup_iff.mpr (List.nodup_cons.mpr ⟨new, nodup⟩)

theorem enter_sound {s : Slot} (sound : s.Sound) {lease : Nat} (new : lease ∉ s.leases.map (·.1))
    (now deadline : Nat) : (s.enter now lease deadline).1.Sound := by
  have balance := sound.balance
  rcases enter_cases s now lease deadline with
    ⟨-, -, -, granted⟩ | ⟨-, -, -, refused⟩ | ⟨-, queued⟩
  · rw [granted]
    refine ⟨?_, ?_, sound.waiters_nodup, sound.issued⟩
    · simp only [List.length_append, List.length_singleton]
      omega
    · simpa only [List.map_append, List.map_cons, List.map_nil] using
        nodup_snoc sound.leases_nodup new
  · rw [refused]
    exact sound
  · rw [queued]
    have unused : s.nextWaiter ∉ s.waiterIds := fun member => Nat.lt_irrefl _ (sound.issued _ member)
    have joined : ((s.waiters ++ [Waiter.mk s.nextWaiter deadline true]).map (·.id) ++
        s.handed.map (·.1)).Perm (s.nextWaiter :: s.waiterIds) := by
      simp only [List.map_append, List.map_cons, List.map_nil, List.append_assoc, List.singleton_append]
      exact List.perm_middle
    refine ⟨balance, sound.leases_nodup, joined.nodup_iff.mpr (List.nodup_cons.mpr ⟨unused,
      sound.waiters_nodup⟩), fun id member => ?_⟩
    rcases List.mem_cons.mp (joined.mem_iff.mp member) with rfl | old
    · exact Nat.lt_succ_self _
    · exact Nat.lt_succ_of_lt (sound.issued id old)

/-- Numbers that remain after a removal are as good as before. -/
theorem Sound.of_sublist {s s' : Slot} (sound : s.Sound)
    (balance : s'.occupied = s'.leases.length + s'.handed.length)
    (leases : (s'.leases.map (·.1)).Sublist (s.leases.map (·.1)))
    (waiters : s'.waiterIds.Sublist s.waiterIds) (next : s'.nextWaiter = s.nextWaiter) : s'.Sound :=
  ⟨balance, sound.leases_nodup.sublist leases, sound.waiters_nodup.sublist waiters,
    fun id member => next ▸ sound.issued id (waiters.mem member)⟩

theorem claim_sound {s : Slot} (sound : s.Sound) {waiter lease : Nat}
    (new : lease ∉ s.leases.map (·.1)) : (((s.claim waiter lease).map (·.1)).getD s).Sound := by
  rcases claim_cases s waiter lease with ⟨grant, member, -, claimed⟩ | ⟨-, missing⟩
  · rw [claimed]
    have present : waiter ∈ s.handed.map (·.1) := List.mem_map_of_mem member
    have removed := length_remove_key (List.nodup_append.mp sound.waiters_nodup).2.1 present
    have balance := sound.balance
    have fewer : (s.waiters.map (·.id) ++ (s.handed.filter (·.1 ≠ waiter)).map (·.1)).Sublist
        s.waiterIds := (List.filter_sublist.map _).append_left _
    refine ⟨?_, ?_, sound.waiters_nodup.sublist fewer, fun id inside => sound.issued id (fewer.mem inside)⟩
    · simp only [Option.map_some, Option.getD_some, List.length_append, List.length_singleton]
      omega
    · simpa only [Option.map_some, Option.getD_some, List.map_append, List.map_cons, List.map_nil] using
        nodup_snoc sound.leases_nodup new
  · rw [missing]
    exact sound

theorem hangUp_sound {s : Slot} (sound : s.Sound) (waiter : Nat) : (s.hangUp waiter).Sound := by
  have same : (s.hangUp waiter).waiterIds = s.waiterIds := by
    simp only [waiterIds, hangUp, List.map_map]
    congr 1
    apply List.map_congr_left
    intro w _
    simp only [Function.comp_apply]
    split <;> rfl
  exact sound.of_sublist sound.balance (List.Sublist.refl _) (same ▸ List.Sublist.refl _) rfl

/-- Giving back the slot of a lease that was just removed, or of a hand-off. -/
theorem freeSlot_sound {s : Slot} (balance : s.occupied = s.leases.length + s.handed.length + 1)
    (leases : (s.leases.map (·.1)).Nodup) (waiters : s.waiterIds.Nodup)
    (issued : ∀ id ∈ s.waiterIds, id < s.nextWaiter) (now : Nat) : (s.freeSlot now).1.Sound := by
  apply dispatch_sound
  refine ⟨?_, leases, waiters, issued⟩
  change s.occupied - 1 = s.leases.length + s.handed.length
  omega

theorem leave_sound {s : Slot} (sound : s.Sound) (waiter now : Nat) : (s.leave waiter now).1.Sound := by
  rcases leave_cases s waiter now with ⟨-, left⟩ | ⟨-, handed, given⟩ | ⟨-, -, gone⟩
  · rw [left]
    exact sound.of_sublist sound.balance (List.Sublist.refl _)
      ((List.filter_sublist.map _).append_right _) rfl
  · rw [given]
    have removed := length_remove_key (List.nodup_append.mp sound.waiters_nodup).2.1 handed
    have balance := sound.balance
    have fewer : (s.waiters.map (·.id) ++ (s.handed.filter (·.1 ≠ waiter)).map (·.1)).Sublist
        s.waiterIds := (List.filter_sublist.map _).append_left _
    apply freeSlot_sound
    · change s.occupied = s.leases.length + (s.handed.filter (·.1 ≠ waiter)).length + 1
      omega
    · exact sound.leases_nodup
    · exact sound.waiters_nodup.sublist fewer
    · exact fun id inside => sound.issued id (fewer.mem inside)
  · rw [gone]
    exact sound

theorem release_sound {s : Slot} (sound : s.Sound) (lease now : Nat) :
    ((s.release lease now).getD (s, [])).1.Sound := by
  by_cases held : lease ∈ s.leases.map (·.1)
  · rw [release_of_mem held, Option.getD_some]
    have removed := length_remove_key sound.leases_nodup held
    have balance := sound.balance
    apply freeSlot_sound
    · change s.occupied = (s.leases.filter (·.1 ≠ lease)).length + s.handed.length + 1
      omega
    · exact sound.leases_nodup.sublist (List.filter_sublist.map _)
    · exact sound.waiters_nodup
    · exact sound.issued
  · rw [release_of_not_mem held]
    exact sound

theorem releaseAll_sound (now : Nat) (leases : List Nat) {s : Slot} (sound : s.Sound) :
    (releaseAll now leases s).1.Sound := by
  induction leases generalizing s with
  | nil => exact sound
  | cons lease rest ih => exact ih (release_sound sound lease now)

/-- Every operation preserves the balance as long as the lease that it makes is new. -/
theorem step_sound {s : Slot} (sound : s.Sound) (now : Nat) (op : Operation)
    (new : ∀ lease, op.newLease? = some lease → lease ∉ s.leases.map (·.1)) :
    (s.step now op).1.Sound := by
  cases op with
  | enter lease deadline => exact enter_sound sound (new lease rfl) now deadline
  | claim waiter lease => exact claim_sound sound (new lease rfl)
  | hangUp waiter cause => exact hangUp_sound sound waiter
  | leave waiter cause => exact leave_sound sound waiter now
  | release lease => exact release_sound sound lease now
  | reclaim maxHold => exact releaseAll_sound now _ sound
  | configure limits => exact configure_sound sound limits now

/-! ### The leases that remain -/

theorem leave_leases (s : Slot) (waiter now : Nat) : (s.leave waiter now).1.leases = s.leases := by
  rcases leave_cases s waiter now with ⟨-, left⟩ | ⟨-, -, given⟩ | ⟨-, -, gone⟩
  · rw [left]
  · rw [given, (freeSlot_frame _ now).2.2.1]
  · rw [gone]

theorem release_leases (s : Slot) (lease now : Nat) :
    ((s.release lease now).getD (s, [])).1.leases = s.leases.filter (·.1 ≠ lease) := by
  by_cases held : lease ∈ s.leases.map (·.1)
  · rw [release_of_mem held, Option.getD_some, (freeSlot_frame _ now).2.2.1]
  · rw [release_of_not_mem held, Option.getD_none]
    refine (List.filter_eq_self.mpr fun entry member => ?_).symm
    have different : entry.1 ≠ lease := fun same => held (same ▸ List.mem_map_of_mem member)
    simpa using different

theorem releaseAll_leases (now : Nat) (leases : List Nat) (s : Slot) :
    (releaseAll now leases s).1.leases = s.leases.filter (·.1 ∉ leases) := by
  induction leases generalizing s with
  | nil => exact (List.filter_eq_self.mpr (by simp)).symm
  | cons lease rest ih =>
    have others := ih ((s.release lease now).getD (s, [])).1
    rw [release_leases, List.filter_filter] at others
    refine others.trans (List.filter_congr fun entry _ => ?_)
    simp [Bool.and_comm]

theorem mem_expired {s : Slot} {maxHold now lease : Nat} :
    lease ∈ s.expired maxHold now ↔ ∃ grant, (lease, grant) ∈ s.leases ∧ now - grant > maxHold := by
  simp [expired, List.mem_mergeSort]

/-! ### No slot is given back that nobody holds -/

theorem freeSlot?_eq {s : Slot} (taken : s.occupied ≠ 0) (now : Nat) :
    s.freeSlot? now = some (s.freeSlot now) := by
  rw [freeSlot?, if_neg taken]

theorem release?_eq {s : Slot} (sound : s.Sound) (lease now : Nat) :
    s.release? lease now = some ((s.release lease now).getD (s, [])) := by
  by_cases held : lease ∈ s.leases.map (·.1)
  · have removed := length_remove_key sound.leases_nodup held
    have balance := sound.balance
    rw [release?, if_pos (any_key_iff.mpr held), release_of_mem held, Option.getD_some]
    apply freeSlot?_eq
    change s.occupied ≠ 0
    omega
  · rw [release?, if_neg (mt any_key_iff.mp held), release_of_not_mem held, Option.getD_none]

theorem expired_nodup {s : Slot} (sound : s.Sound) (maxHold now : Nat) : (s.expired maxHold now).Nodup :=
  (List.mergeSort_perm _ _).nodup_iff.mpr (sound.leases_nodup.sublist (List.filter_sublist.map _))

theorem expired_held {s : Slot} {maxHold now lease : Nat} (expired : lease ∈ s.expired maxHold now) :
    lease ∈ s.leases.map (·.1) := by
  obtain ⟨grant, member, -⟩ := mem_expired.mp expired
  exact List.mem_map_of_mem member

theorem held_after_release {s : Slot} {lease : Nat} {rest : List Nat}
    (held : ∀ other ∈ lease :: rest, other ∈ s.leases.map (·.1)) (new : lease ∉ rest) (now : Nat) :
    ∀ other ∈ rest, other ∈ ((s.release lease now).getD (s, [])).1.leases.map (·.1) := by
  intro other member
  have different : other ≠ lease := fun same => new (same ▸ member)
  rw [release_leases, map_key_filter]
  exact List.mem_filter.mpr ⟨held other (List.mem_cons_of_mem _ member), by simpa using different⟩

/-- Ending one lease leaves the others outstanding, so each of them has a slot to give back. -/
theorem releaseAll?_eq (now : Nat) {leases : List Nat} {s : Slot} (sound : s.Sound)
    (nodup : leases.Nodup) (held : ∀ lease ∈ leases, lease ∈ s.leases.map (·.1)) :
    releaseAll? now leases s = some (releaseAll now leases s) := by
  induction leases generalizing s with
  | nil => rfl
  | cons lease rest ih =>
    obtain ⟨new, nodup⟩ := List.nodup_cons.mp nodup
    have present := held lease (List.mem_cons_self ..)
    have first := release?_eq sound lease now
    rw [release?, if_pos (any_key_iff.mpr present)] at first
    have others := held_after_release held new now
    rw [releaseAll?, first, Option.bind_some]
    change (releaseAll? now rest ((s.release lease now).getD (s, [])).1).map _ = _
    rw [ih (release_sound sound lease now) nodup others]
    rfl

theorem leave?_eq {s : Slot} (sound : s.Sound) (waiter now : Nat) :
    s.leave? waiter now = some (s.leave waiter now) := by
  unfold leave? leave
  split
  · rfl
  · split
    next handed =>
      have present := any_key_iff.mp handed
      have removed := length_remove_key (List.nodup_append.mp sound.waiters_nodup).2.1 present
      have balance := sound.balance
      apply freeSlot?_eq
      change s.occupied ≠ 0
      omega
    next => rfl

/-- The subtraction in `freeSlot` never stops at zero: the strict step agrees with the step. -/
theorem step?_eq {s : Slot} (sound : s.Sound) (now : Nat) (op : Operation) :
    s.step? now op = some (s.step now op) := by
  cases op with
  | leave waiter cause => exact leave?_eq sound waiter now
  | release lease => exact release?_eq sound lease now
  | reclaim maxHold =>
    exact releaseAll?_eq now sound (expired_nodup sound maxHold now) fun _ expired => expired_held expired
  | _ => rfl

/-! ### Hand-offs -/

theorem releaseAll_handed (now : Nat) (leases : List Nat) (s : Slot) :
    (releaseAll now leases s).1.handed =
      s.handed ++ (releaseAll now leases s).2.filterMap Turn.handOff? := by
  induction leases generalizing s with
  | nil => simp [releaseAll]
  | cons lease rest ih =>
    have first : ((s.release lease now).getD (s, [])).1.handed =
        s.handed ++ ((s.release lease now).getD (s, [])).2.filterMap Turn.handOff? := by
      by_cases held : lease ∈ s.leases.map (·.1)
      · rw [release_of_mem held]
        exact serve_handed now s.waiters _
      · simp [release_of_not_mem held]
    have others := ih ((s.release lease now).getD (s, [])).1
    rw [first, List.append_assoc, ← List.filterMap_append] at others
    exact others

/-- A hand-off that is pending after an operation was pending before, or the operation made it. -/
theorem mem_handed_step {s : Slot} {now : Nat} {op : Operation} {entry : Nat × Nat}
    (pending : entry ∈ (s.step now op).1.handed) :
    entry ∈ s.handed ∨ entry ∈ (s.step now op).2.filterMap Turn.handOff? := by
  cases op with
  | enter lease deadline =>
    refine Or.inl ?_
    simp only [step] at pending
    rcases enter_cases s now lease deadline with
      ⟨-, -, -, granted⟩ | ⟨-, -, -, refused⟩ | ⟨-, queued⟩
    · rwa [granted] at pending
    · rwa [refused] at pending
    · rwa [queued] at pending
  | claim waiter lease =>
    refine Or.inl ?_
    simp only [step] at pending
    rcases claim_cases s waiter lease with ⟨grant, -, -, claimed⟩ | ⟨-, missing⟩
    · rw [claimed] at pending
      exact (List.mem_filter.mp pending).1
    · rwa [missing] at pending
  | hangUp waiter cause => exact Or.inl pending
  | leave waiter cause =>
    simp only [step] at pending ⊢
    rcases leave_cases s waiter now with ⟨-, left⟩ | ⟨-, -, given⟩ | ⟨-, -, gone⟩
    · rw [left] at pending
      exact Or.inl pending
    · rw [given] at pending ⊢
      simp only [freeSlot, dispatch, serve_handed] at pending
      rcases List.mem_append.mp pending with old | new
      · exact Or.inl (List.mem_filter.mp old).1
      · exact Or.inr new
    · rw [gone] at pending
      exact Or.inl pending
  | release lease =>
    have all := releaseAll_handed now [lease] s
    simp only [releaseAll, List.append_nil] at all
    simp only [step, all] at pending ⊢
    exact List.mem_append.mp pending
  | reclaim maxHold =>
    simp only [step, releaseAll_handed] at pending ⊢
    exact List.mem_append.mp pending
  | configure limits =>
    simp only [step, configure, dispatch, serve_handed] at pending ⊢
    exact List.mem_append.mp pending

/-- New limits take away neither a lease nor a hand-off. -/
theorem configure_keeps (s : Slot) (limits : TransportLimits) (now : Nat) :
    (s.configure limits now).1.leases = s.leases ∧ s.handed <+: (s.configure limits now).1.handed := by
  refine ⟨(serve_frame now s.waiters _).2.2.1, ?_⟩
  simp only [configure, dispatch, serve_handed]
  exact List.prefix_append _ _

end Slot

end RelayRamp.Lease
