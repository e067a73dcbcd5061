import RelayRamp.Proofs.Lease.Serving

/-!
# Operations on the slots of one transport

Everything that ever happens to the slots of a transport, as data: each operation is one uninterrupted step.
The ways in which each can go are listed once, and later proofs go by these cases. The strict form of a step
fails where a slot is given back that nobody holds.
-/
namespace RelayRamp.Lease

open RelayRamp.Routing

section Keyed

variable {α : Type} {xs : List (Nat × α)} {k : Nat}

theorem any_key_iff : (xs.any fun x => decide (x.1 = k)) = true ↔ k ∈ xs.map (·.1) := by
  rw [List.any_eq_true, List.mem_map]
  simp only [decide_eq_true_eq]

theorem map_key_filter : (xs.filter (·.1 ≠ k)).map (·.1) = (xs.map (·.1)).filter (· ≠ k) := by
  rw [List.filter_map]
  rfl

/-- A key occurs once, so its removal takes away one entry. -/
theorem length_remove_key (nodup : (xs.map (·.1)).Nodup) (present : k ∈ xs.map (·.1)) :
    (xs.filter (·.1 ≠ k)).length + 1 = xs.length := by
  induction xs with
  | nil => cases present
  | cons x rest ih =>
    rw [List.map_cons, List.nodup_cons] at nodup
    by_cases same : x.1 = k
    · have others : rest.filter (·.1 ≠ k) = rest := by
        apply List.filter_eq_self.mpr
        intro y member
        have different : y.1 ≠ x.1 := fun equal => nodup.1 (equal ▸ List.mem_map_of_mem member)
        simpa [same] using different
      rw [List.filter_cons_of_neg (by simpa using same), others, List.length_cons]
    · have inRest : k ∈ rest.map (·.1) := by simpa [Ne.symm same] using present
      rw [List.filter_cons_of_pos (by simpa using same), List.length_cons, ih nodup.2 inRest,
        List.length_cons]

theorem lookup_mem {a : α} (found : xs.lookup k = some a) : (k, a) ∈ xs := by
  obtain ⟨before, after, rfl, _⟩ := List.lookup_eq_some_iff.mp found
  simp

theorem lookup_none (missing : xs.lookup k = none) : k ∉ xs.map (·.1) := by
  intro member
  obtain ⟨x, inside, rfl⟩ := List.mem_map.mp member
  simpa using List.lookup_eq_none_iff.mp missing x inside

end Keyed

/-- Why a caller gives up. -/
inductive Cause where
  | cancelled
  | expired
  deriving DecidableEq, Repr

inductive Operation where
  | enter (lease deadline : Nat)
  | claim (waiter lease : Nat)
  /-- A caller stops listening; it leaves later. -/
  | hangUp (waiter : Nat) (cause : Cause)
  | leave (waiter : Nat) (cause : Cause)
  | release (lease : Nat)
  | reclaim (maxHold : Nat)
  | configure (limits : TransportLimits)
  deriving DecidableEq, Repr

namespace Slot

/-- The slots after an operation, and the turns that waiters took in it. -/
def step (s : Slot) (now : Nat) : Operation → Slot × List Turn
  | .enter lease deadline => ((s.enter now lease deadline).1, [])
  | .claim waiter lease => (((s.claim waiter lease).map (·.1)).getD s, [])
  | .hangUp waiter _ => (s.hangUp waiter, [])
  | .leave waiter _ => s.leave waiter now
  | .release lease => (s.release lease now).getD (s, [])
  | .reclaim maxHold => releaseAll now (s.expired maxHold now) s
  | .configure limits => s.configure limits now

/-- The slots after operations at the given instants. -/
def run (s : Slot) : List (Nat × Operation) → Slot
  | [] => s
  | (now, op) :: rest => ((s.step now op).1).run rest

theorem run_append (s : Slot) (before after : List (Nat × Operation)) :
    s.run (before ++ after) = (s.run before).run after := by
  induction before generalizing s with
  | nil => rfl
  | cons head rest ih => exact ih _

/-- What each operation keeps, every sequence of operations keeps. -/
theorem run_induction {motive : Slot → Prop} (s : Slot) (start : motive s)
    (step : ∀ s now op, motive s → motive (s.step now op).1) (ops : List (Nat × Operation)) :
    motive (s.run ops) := by
  induction ops generalizing s with
  | nil => exact start
  | cons head rest ih => exact ih _ (step s head.1 head.2 start)

/-! ### The ways an operation can go -/

theorem enter_cases (s : Slot) (now lease deadline : Nat) :
    (s.waiters = [] ∧ s.occupied < s.capacity ∧ s.nextGrant now ≤ deadline ∧
      s.enter now lease deadline =
        ({ s with
            occupied := s.occupied + 1
            lastGrant := some (s.nextGrant now)
            leases := s.leases ++ [(lease, s.nextGrant now)] },
          .granted (s.nextGrant now))) ∨
    (s.waiters = [] ∧ s.occupied < s.capacity ∧ deadline < s.nextGrant now ∧
      s.enter now lease deadline = (s, .tooLate)) ∨
    ((s.waiters ≠ [] ∨ s.capacity ≤ s.occupied) ∧
      s.enter now lease deadline =
        ({ s with
            waiters := s.waiters ++ [⟨s.nextWaiter, deadline, true⟩]
            nextWaiter := s.nextWaiter + 1 },
          .queued s.nextWaiter)) := by
  by_cases free : s.waiters.isEmpty ∧ s.occupied < s.capacity
  · have none := List.isEmpty_iff.mp free.1
    rcases Nat.lt_or_ge deadline (s.nextGrant now) with late | inTime
    · exact Or.inr (Or.inl ⟨none, free.2, late, by simp [enter, free, late]⟩)
    · exact Or.inl ⟨none, free.2, inTime, by simp [enter, free, Nat.not_lt.mpr inTime]⟩
  · refine Or.inr (Or.inr ⟨?_, by simp only [enter, if_neg free]⟩)
    rcases Nat.lt_or_ge s.occupied s.capacity with room | taken
    · exact Or.inl fun none => free ⟨List.isEmpty_iff.mpr none, room⟩
    · exact Or.inr taken

theorem claim_cases (s : Slot) (waiter lease : Nat) :
    (∃ grant, (waiter, grant) ∈ s.handed ∧ s.handed.lookup waiter = some grant ∧
      s.claim waiter lease =
        some
          ({ s with
              handed := s.handed.filter (·.1 ≠ waiter)
              leases := s.leases ++ [(lease, grant)] },
            grant)) ∨
    (waiter ∉ s.handed.map (·.1) ∧ s.claim waiter lease = none) := by
  cases found : s.handed.lookup waiter with
  | none => exact Or.inr ⟨lookup_none found, by simp only [claim, found]⟩
  | some grant => exact Or.inl ⟨grant, lookup_mem found, rfl, by simp only [claim, found]⟩

theorem leave_cases (s : Slot) (waiter now : Nat) :
    (waiter ∈ s.waiters.map (·.id) ∧
      s.leave waiter now = ({ s with waiters := s.waiters.filter (·.id ≠ waiter) }, [])) ∨
    (waiter ∉ s.waiters.map (·.id) ∧ waiter ∈ s.handed.map (·.1) ∧
      s.leave waiter now = { s with handed := s.handed.filter (·.1 ≠ waiter) }.freeSlot now) ∨
    (waiter ∉ s.waiters.map (·.id) ∧ waiter ∉ s.handed.map (·.1) ∧ s.leave waiter now = (s, [])) := by
  have queuedIff : (s.waiters.any fun w => decide (w.id = waiter)) = true ↔
      waiter ∈ s.waiters.map (·.id) := by
    rw [List.any_eq_true, List.mem_map]
    simp only [decide_eq_true_eq]
  by_cases queued : waiter ∈ s.waiters.map (·.id)
  · exact Or.inl ⟨queued, by rw [leave, if_pos (queuedIff.mpr queued)]⟩
  · have absent := mt queuedIff.mp queued
    by_cases handed : waiter ∈ s.handed.map (·.1)
    · exact Or.inr (Or.inl ⟨queued, handed, by
        rw [leave, if_neg absent, if_pos (any_key_iff.mpr handed)]⟩)
    · exact Or.inr (Or.inr ⟨queued, handed, by
        rw [leave, if_neg absent, if_neg (mt any_key_iff.mp handed)]⟩)

theorem release_of_mem {s : Slot} {lease : Nat} (held : lease ∈ s.leases.map (·.1)) (now : Nat) :
    s.release lease now =
      some ({ s with leases := s.leases.filter (·.1 ≠ lease) }.freeSlot now) := by
  rw [release, if_pos (any_key_iff.mpr held)]

theorem release_of_not_mem {s : Slot} {lease : Nat} (free : lease ∉ s.leases.map (·.1)) (now : Nat) :
    s.release lease now = none := by
  rw [release, if_neg (mt any_key_iff.mp free)]

/-! ### What an operation has in common with the others -/

theorem enter_serves (s : Slot) (now lease deadline : Nat) :
    Serves now s ((s.enter now lease deadline).1, []) := by
  rcases enter_cases s now lease deadline with
    ⟨-, free, -, granted⟩ | ⟨-, -, -, refused⟩ | ⟨-, queued⟩
  · rw [granted]
    exact .quiet rfl rfl (by simp only; omega) (grantsOn_next s _ rfl)
  · rw [refused]
    exact .refl s
  · rw [queued]
    exact .quiet rfl rfl (Nat.le_max_left _ _) (.of_eq rfl)

theorem claim_serves (s : Slot) (waiter lease now : Nat) :
    Serves now s (((s.claim waiter lease).map (·.1)).getD s, []) := by
  rcases claim_cases s waiter lease with ⟨grant, -, -, claimed⟩ | ⟨-, missing⟩
  · rw [claimed]
    exact .quiet rfl rfl (Nat.le_max_left _ _) (.of_eq rfl)
  · rw [missing]
    exact .refl s

theorem leave_serves (s : Slot) (waiter now : Nat) : Serves now s (s.leave waiter now) := by
  rcases leave_cases s waiter now with ⟨-, left⟩ | ⟨-, -, given⟩ | ⟨-, -, gone⟩
  · rw [left]
    exact .quiet rfl rfl (Nat.le_max_left _ _) (.of_eq rfl)
  · have removed : Serves now s ({ s with handed := s.handed.filter (·.1 ≠ waiter) }, []) :=
      .quiet rfl rfl (Nat.le_max_left _ _) (.of_eq rfl)
    rw [given]
    exact removed.trans (freeSlot_serves _ now)
  · rw [gone]
    exact .refl s

theorem release_serves (s : Slot) (lease now : Nat) :
    Serves now s ((s.release lease now).getD (s, [])) := by
  by_cases held : lease ∈ s.leases.map (·.1)
  · have removed : Serves now s ({ s with leases := s.leases.filter (·.1 ≠ lease) }, []) :=
      .quiet rfl rfl (Nat.le_max_left _ _) (.of_eq rfl)
    rw [release_of_mem held]
    exact removed.trans (freeSlot_serves _ now)
  · rw [release_of_not_mem held]
    exact .refl s

theorem releaseAll_serves (now : Nat) (leases : List Nat) (s : Slot) :
    Serves now s (releaseAll now leases s) := by
  induction leases generalizing s with
  | nil => exact .refl s
  | cons lease rest ih => exact (release_serves s lease now).trans (ih _)

/-- New limits are in force when the waiters are served. -/
theorem configure_serves (s : Slot) (limits : TransportLimits) (now : Nat) :
    Serves now { s with capacity := limits.concurrency, rateDelay := limits.rateDelay }
      (s.configure limits now) :=
  serve_serves now s.waiters { s with capacity := limits.concurrency, rateDelay := limits.rateDelay }

theorem step_serves (s : Slot) (now : Nat) (op : Operation) :
    Serves now s (s.step now op) ∨
      ∃ limits, op = .configure limits ∧
        Serves now { s with capacity := limits.concurrency, rateDelay := limits.rateDelay }
          (s.step now op) := by
  cases op with
  | enter lease deadline => exact Or.inl (enter_serves s now lease deadline)
  | claim waiter lease => exact Or.inl (claim_serves s waiter lease now)
  | hangUp waiter cause => exact Or.inl (.quiet rfl rfl (Nat.le_max_left _ _) (.of_eq rfl))
  | leave waiter cause => exact Or.inl (leave_serves s waiter now)
  | release lease => exact Or.inl (release_serves s lease now)
  | reclaim maxHold => exact Or.inl (releaseAll_serves now _ s)
  | configure limits => exact Or.inr ⟨limits, rfl, configure_serves s limits now⟩

/-- Whatever limits are in force afterwards, the waiters were served under them. -/
theorem step_serves_after (s : Slot) (now : Nat) (op : Operation) :
    Serves now { s with capacity := (s.step now op).1.capacity, rateDelay := (s.step now op).1.rateDelay }
      (s.step now op) := by
  rcases step_serves s now op with served | ⟨limits, -, served⟩
  · rw [served.capacity, served.rateDelay]
    exact served
  · rw [served.capacity, served.rateDelay]
    exact served

theorem step_capacity (s : Slot) (now : Nat) (op : Operation) :
    (s.step now op).1.capacity = s.capacity ∨
      ∃ limits, op = .configure limits ∧ (s.step now op).1.capacity = limits.concurrency := by
  rcases step_serves s now op with served | ⟨limits, same, served⟩
  · exact Or.inl served.capacity
  · exact Or.inr ⟨limits, same, served.capacity⟩

/-- An operation takes more slots than before only up to the capacity that is then in force. -/
theorem step_occupied_le (s : Slot) (now : Nat) (op : Operation) :
    (s.step now op).1.occupied ≤ max s.occupied (s.step now op).1.capacity :=
  (step_serves_after s now op).occupied_le

/-- An operation that hands a slot to a waiter ends within the capacity that is then in force. -/
theorem step_takes {s : Slot} {now : Nat} {op : Operation}
    (takes : (s.step now op).2.filterMap Turn.handOff? ≠ []) :
    (s.step now op).1.occupied ≤ (s.step now op).1.capacity :=
  (step_serves_after s now op).takes takes

/-- The last grant never goes back. -/
theorem step_grantsOn (s : Slot) (now : Nat) (op : Operation) : s.GrantsOn (s.step now op).1 :=
  (step_serves_after s now op).grantsOn

theorem step_late {s : Slot} {now : Nat} {op : Operation} {waiter earliest : Nat}
    (late : .late waiter earliest ∈ (s.step now op).2) : earliest ≤ (s.step now op).1.nextGrant now :=
  (step_serves_after s now op).late waiter earliest late

/-! ### Strict steps -/

/-- Gives back one slot; fails when none is taken. -/
def freeSlot? (s : Slot) (now : Nat) : Option (Slot × List Turn) :=
  if s.occupied = 0 then none else some (s.freeSlot now)

def leave? (s : Slot) (waiter now : Nat) : Option (Slot × List Turn) :=
  if s.waiters.any (·.id = waiter) then some (s.leave waiter now)
  else if s.handed.any (·.1 = waiter) then
    { s with handed := s.handed.filter (·.1 ≠ waiter) }.freeSlot? now
  else some (s, [])

def release? (s : Slot) (lease now : Nat) : Option (Slot × List Turn) :=
  if s.leases.any (·.1 = lease) then
    { s with leases := s.leases.filter (·.1 ≠ lease) }.freeSlot? now
  else some (s, [])

/-- Gives back one slot for each lease, without asking again whether it is outstanding. -/
def releaseAll? (now : Nat) : List Nat → Slot → Option (Slot × List Turn)
  | [], s => some (s, [])
  | lease :: rest, s =>
    ({ s with leases := s.leases.filter (·.1 ≠ lease) }.freeSlot? now).bind fun (s, turns) =>
      (releaseAll? now rest s).map fun (s, more) => (s, turns ++ more)

/-- A step that fails where a slot is given back that nobody holds. -/
def step? (s : Slot) (now : Nat) : Operation → Option (Slot × List Turn)
  | .leave waiter _ => s.leave? waiter now
  | .release lease => s.release? lease now
  | .reclaim maxHold => releaseAll? now (s.expired maxHold now) s
  | op => some (s.step now op)

end Slot

end RelayRamp.Lease
