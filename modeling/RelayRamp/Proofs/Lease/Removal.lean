import RelayRamp.Proofs.Lease.Wakeup

/-!
# Slots without one caller

The slots of a transport as they would be without one caller that has no slot: its entry is not in the queue, and the
numbers that were given out after its own are smaller by one. Every operation of the others does to these slots what it
does to the real ones. The caller makes them wait only while every slot is taken, and then they have to wait anyway; its
turn changes nothing; and slots that it waits for are not idle without it.
-/
namespace RelayRamp.Lease

open RelayRamp.Routing

/-! ### Numbers -/

/-- A number when the one in the gap is not given out: those after it move up. -/
def closeUp (gap : Option Nat) (n : Nat) : Nat :=
  match gap with
  | none => n
  | some v => if n ≤ v then n else n - 1

/-- None of the numbers is the one in the gap. -/
def Spared (gap : Option Nat) (numbers : List Nat) : Prop := ∀ n ∈ numbers, gap ≠ some n

section Numbers

variable {gap : Option Nat} {a b n v : Nat} {xs : List (Nat × Nat)}

@[simp] theorem closeUp_none (n : Nat) : closeUp none n = n := rfl

theorem closeUp_of_le (le : n ≤ v) : closeUp (some v) n = n := by
  simp only [closeUp, if_pos le]

theorem closeUp_next (v : Nat) : closeUp (some v) (v + 1) = v := by
  simp [closeUp]

/-- The order of the others stays. -/
theorem closeUp_le_iff (apart : gap ≠ some a) (apart' : gap ≠ some b) :
    closeUp gap a ≤ closeUp gap b ↔ a ≤ b := by
  cases gap with
  | none => exact Iff.rfl
  | some v =>
    have here : v ≠ a := fun same => apart (congrArg some same)
    have there : v ≠ b := fun same => apart' (congrArg some same)
    simp only [closeUp]
    split
    · split <;> omega
    · split <;> omega

theorem closeUp_inj (apart : gap ≠ some a) (apart' : gap ≠ some b) :
    closeUp gap a = closeUp gap b ↔ a = b := by
  constructor
  · intro same
    exact Nat.le_antisymm ((closeUp_le_iff apart apart').mp (Nat.le_of_eq same))
      ((closeUp_le_iff apart' apart).mp (Nat.le_of_eq same.symm))
  · intro same
    rw [same]

theorem closeUp_succ (apart : gap ≠ some n) : closeUp gap (n + 1) = closeUp gap n + 1 := by
  cases gap with
  | none => rfl
  | some v =>
    have other : v ≠ n := fun same => apart (congrArg some same)
    simp only [closeUp]
    split
    · rw [if_pos (by omega)]
    · rw [if_neg (by omega)]
      omega

/-- The entries under the numbers without the gap. -/
def renumbered (gap : Option Nat) (xs : List (Nat × Nat)) : List (Nat × Nat) :=
  xs.map fun x => (closeUp gap x.1, x.2)

theorem renumbered_of_le (le : ∀ n ∈ xs.map (·.1), n ≤ v) : renumbered (some v) xs = xs := by
  refine (List.map_congr_left fun x member => ?_).trans (List.map_id xs)
  exact congrArg (·, x.2) (closeUp_of_le (le _ (List.mem_map_of_mem member)))

theorem renumbered_none (xs : List (Nat × Nat)) : renumbered none xs = xs := List.map_id xs

theorem renumbered_lookup (spared : Spared gap (xs.map (·.1))) (apart : gap ≠ some n) :
    (renumbered gap xs).lookup (closeUp gap n) = xs.lookup n := by
  induction xs with
  | nil => rfl
  | cons x rest ih =>
    have same := closeUp_inj apart (spared x.1 (List.mem_cons_self ..))
    have others := ih fun m member => spared m (List.mem_cons_of_mem _ member)
    rw [renumbered] at others ⊢
    rw [List.map_cons, List.lookup_cons, List.lookup_cons, others]
    simp only [beq_eq_decide, same]

theorem renumbered_filter (spared : Spared gap (xs.map (·.1))) (apart : gap ≠ some n) :
    (renumbered gap xs).filter (·.1 ≠ closeUp gap n) = renumbered gap (xs.filter (·.1 ≠ n)) := by
  rw [renumbered, List.filter_map, renumbered]
  congr 1
  refine List.filter_congr fun x member => ?_
  simp only [Function.comp_apply, ne_eq, closeUp_inj (spared x.1 (List.mem_map_of_mem member)) apart]

theorem mem_renumbered (spared : Spared gap (xs.map (·.1))) (apart : gap ≠ some n) :
    closeUp gap n ∈ (renumbered gap xs).map (·.1) ↔ n ∈ xs.map (·.1) := by
  simp only [renumbered, List.map_map, List.mem_map, Function.comp_apply]
  refine exists_congr fun x => and_congr_right fun member => ?_
  exact closeUp_inj (spared x.1 (List.mem_map_of_mem member)) apart

end Numbers

def Waiter.closeUp (gap : Option Nat) (x : Waiter) : Waiter := { x with id := Lease.closeUp gap x.id }

def Turn.closeUp (gap : Option Nat) : Turn → Turn
  | handed waiter grant => handed (Lease.closeUp gap waiter) grant
  | late waiter earliest => late (Lease.closeUp gap waiter) earliest
  | deaf waiter => deaf (Lease.closeUp gap waiter)

def Entry.closeUp (gap : Option Nat) : Entry → Entry
  | granted grant => granted grant
  | queued waiter => queued (Lease.closeUp gap waiter)
  | tooLate => tooLate

/-- The waiter after one has stopped listening. -/
def Waiter.deafened (waiter : Nat) (x : Waiter) : Waiter :=
  if x.id = waiter then { x with listening := false } else x

theorem Waiter.deafened_id (waiter : Nat) (x : Waiter) : (x.deafened waiter).id = x.id := by
  unfold deafened
  split <;> rfl

/-- The queue without the caller in the gap. -/
def queueWithout (gap : Option Nat) (ws : List Waiter) : List Waiter :=
  (ws.filter fun x => gap ≠ some x.id).map (·.closeUp gap)

namespace Slot

/-- The slots without the caller of a lease that is not outstanding, and without its place in the queue, if it has
one. -/
def without (s : Slot) (lease : Nat) (gap : Option Nat) : Slot :=
  { s with
    leases := renumbered (some lease) s.leases
    waiters := queueWithout gap s.waiters
    handed := renumbered gap s.handed
    nextWaiter := closeUp gap s.nextWaiter }

variable {s : Slot} {gap : Option Nat} {lost now : Nat}

/-! ### Serving the queue -/

theorem turn_without (s : Slot) (lost now : Nat) (gap : Option Nat) (x : Waiter) :
    (s.without lost gap).turn now (x.closeUp gap) = (s.turn now x).closeUp gap := by
  have same : (s.without lost gap).nextGrant now = s.nextGrant now := rfl
  simp only [turn, same, Waiter.closeUp]
  split
  · rfl
  · split <;> rfl

theorem take_without (s : Slot) (lost : Nat) (gap : Option Nat) (t : Turn) :
    (s.without lost gap).take (t.closeUp gap) = (s.take t).without lost gap := by
  cases t with
  | handed waiter grant => simp [take, without, Turn.closeUp, renumbered]
  | late waiter earliest => rfl
  | deaf waiter => rfl

/-- The turn of the caller changes nothing, since it is not handed a slot; all others have the same turns. -/
theorem serve_without (lost now : Nat) (ws : List Waiter) (s : Slot)
    (unhanded : Spared gap ((serve now ws s).1.handed.map (·.1))) :
    (serve now (queueWithout gap ws) (s.without lost gap)).1 = (serve now ws s).1.without lost gap := by
  induction ws, s using serve_induction now with
  | done s => rfl
  | full x rest s full => rw [serve_full (s := s.without lost gap) full]; rfl
  | free x rest s free ih =>
    by_cases mine : gap = some x.id
    · have passed : s.take (s.turn now x) = s := by
        rcases turn_cases s now x with ⟨-, late⟩ | ⟨-, hands⟩ | ⟨-, deaf⟩
        · rw [late]
          rfl
        · refine absurd mine (unhanded x.id ?_)
          simp [hands, serve_handed, take]
        · rw [deaf]
          rfl
      rw [passed] at ih unhanded ⊢
      rw [show queueWithout gap (x :: rest) = queueWithout gap rest by simp [queueWithout, mine]]
      exact ih unhanded
    · rw [show queueWithout gap (x :: rest) = x.closeUp gap :: queueWithout gap rest by simp [queueWithout, mine],
        serve_free (s := s.without lost gap) free, turn_without, take_without]
      exact ih unhanded

theorem dispatch_without (lost : Nat) (unhanded : Spared gap ((s.dispatch now).1.handed.map (·.1))) :
    ((s.without lost gap).dispatch now).1 = (s.dispatch now).1.without lost gap :=
  serve_without lost now s.waiters s unhanded

theorem freeSlot_without (lost : Nat) (unhanded : Spared gap ((s.freeSlot now).1.handed.map (·.1))) :
    ((s.without lost gap).freeSlot now).1 = (s.freeSlot now).1.without lost gap :=
  dispatch_without (s := { s with occupied := s.occupied - 1 }) lost unhanded

theorem configure_without (lost : Nat) (limits : TransportLimits)
    (unhanded : Spared gap ((s.configure limits now).1.handed.map (·.1))) :
    ((s.without lost gap).configure limits now).1 = (s.configure limits now).1.without lost gap :=
  dispatch_without (s := { s with capacity := limits.concurrency, rateDelay := limits.rateDelay }) lost unhanded

/-! ### The operations of the others -/

/-- Whoever enters is queued behind the caller only while every slot is taken. -/
theorem enter_without (busy : s.Busy) (issued : gap ≠ some s.nextWaiter) (lost now lease deadline : Nat) :
    (s.without lost gap).enter now (closeUp (some lost) lease) deadline =
      ((s.enter now lease deadline).1.without lost gap, (s.enter now lease deadline).2.closeUp gap) := by
  have queue : (s.without lost gap).waiters = queueWithout gap s.waiters := rfl
  rcases enter_cases s now lease deadline with
    ⟨none, free, inTime, granted⟩ | ⟨none, free, late, refused⟩ | ⟨full, queued⟩
  · rw [granted]
    have here : (s.without lost gap).waiters = [] := by rw [queue, none]; rfl
    rcases enter_cases (s.without lost gap) now (closeUp (some lost) lease) deadline with
      ⟨-, -, -, granted'⟩ | ⟨-, -, late, -⟩ | ⟨full, -⟩
    · rw [granted']
      simp [without, renumbered, Entry.closeUp, nextGrant]
    · exact absurd inTime (Nat.not_le.mpr late)
    · exact absurd (full.resolve_left (absurd here)) (Nat.not_le.mpr free)
  · rw [refused]
    have here : (s.without lost gap).waiters = [] := by rw [queue, none]; rfl
    rcases enter_cases (s.without lost gap) now (closeUp (some lost) lease) deadline with
      ⟨-, -, inTime, -⟩ | ⟨-, -, -, refused'⟩ | ⟨full, -⟩
    · exact absurd inTime (Nat.not_le.mpr late)
    · rw [refused']
      rfl
    · exact absurd (full.resolve_left (absurd here)) (Nat.not_le.mpr free)
  · rw [queued]
    have taken : s.capacity ≤ s.occupied := full.elim busy id
    rcases enter_cases (s.without lost gap) now (closeUp (some lost) lease) deadline with
      ⟨-, free, -, -⟩ | ⟨-, free, -, -⟩ | ⟨-, queued'⟩
    · exact absurd taken (Nat.not_le.mpr free)
    · exact absurd taken (Nat.not_le.mpr free)
    · rw [queued']
      simp [without, queueWithout, Waiter.closeUp, Entry.closeUp, issued, closeUp_succ issued]

theorem claim_without {waiter lease : Nat} (unhanded : Spared gap (s.handed.map (·.1))) (apart : gap ≠ some waiter) :
    (s.without lost gap).claim (closeUp gap waiter) (closeUp (some lost) lease) =
      (s.claim waiter lease).map fun taken => (taken.1.without lost gap, taken.2) := by
  have found : (s.without lost gap).handed.lookup (closeUp gap waiter) = s.handed.lookup waiter :=
    renumbered_lookup unhanded apart
  simp only [claim, found]
  cases s.handed.lookup waiter with
  | none => rfl
  | some grant =>
    have rest : (s.without lost gap).handed.filter (·.1 ≠ closeUp gap waiter) =
        renumbered gap (s.handed.filter (·.1 ≠ waiter)) := renumbered_filter unhanded apart
    simp only [rest, Option.map_some]
    simp [without, renumbered]

theorem mem_queueWithout {waiter : Nat} {ws : List Waiter} (apart : gap ≠ some waiter) :
    closeUp gap waiter ∈ (queueWithout gap ws).map (·.id) ↔ waiter ∈ ws.map (·.id) := by
  simp only [queueWithout, List.map_map, List.mem_map, List.mem_filter, decide_eq_true_eq, Function.comp_apply,
    Waiter.closeUp]
  constructor
  · rintro ⟨x, ⟨member, stays⟩, same⟩
    exact ⟨x, member, (closeUp_inj stays apart).mp same⟩
  · rintro ⟨x, member, rfl⟩
    exact ⟨x, ⟨member, apart⟩, rfl⟩

theorem any_queueWithout {waiter : Nat} (apart : gap ≠ some waiter) (ws : List Waiter) :
    (queueWithout gap ws).any (·.id = closeUp gap waiter) = ws.any (·.id = waiter) := by
  have iff : closeUp gap waiter ∈ (queueWithout gap ws).map (·.id) ↔ waiter ∈ ws.map (·.id) := mem_queueWithout apart
  rw [Bool.eq_iff_iff, List.any_eq_true, List.any_eq_true]
  simpa only [List.mem_map, decide_eq_true_eq] using iff

/-- What is done to every waiter under its own number is done to the others. -/
theorem queueWithout_map {f g : Waiter → Waiter} (own : ∀ x, (f x).id = x.id)
    (same : ∀ x, gap ≠ some x.id → (f x).closeUp gap = g (x.closeUp gap)) (ws : List Waiter) :
    queueWithout gap (ws.map f) = (queueWithout gap ws).map g := by
  simp only [queueWithout, List.filter_map, List.map_map, Function.comp_def, own]
  refine List.map_congr_left fun x member => ?_
  exact same x (by simpa using (List.mem_filter.mp member).2)

/-- Those who leave among the others leave. -/
theorem queueWithout_filter {p q : Waiter → Bool} (same : ∀ x, gap ≠ some x.id → q (x.closeUp gap) = p x)
    (ws : List Waiter) : (queueWithout gap ws).filter q = queueWithout gap (ws.filter p) := by
  rw [queueWithout, List.filter_map, queueWithout, List.filter_filter, List.filter_filter]
  congr 1
  refine List.filter_congr fun x _ => ?_
  by_cases mine : gap = some x.id
  · simp [mine]
  · simp [mine, same x mine]

theorem hangUp_eq (s : Slot) (waiter : Nat) :
    s.hangUp waiter = { s with waiters := s.waiters.map (·.deafened waiter) } := rfl

theorem hangUp_without {waiter : Nat} (apart : gap ≠ some waiter) :
    (s.without lost gap).hangUp (closeUp gap waiter) = (s.hangUp waiter).without lost gap := by
  have queue : queueWithout gap (s.waiters.map (·.deafened waiter)) =
      (queueWithout gap s.waiters).map (·.deafened (closeUp gap waiter)) := by
    refine queueWithout_map (Waiter.deafened_id waiter) (fun x stays => ?_) s.waiters
    simp only [Waiter.deafened, Waiter.closeUp, closeUp_inj stays apart]
    split <;> rfl
  simp only [hangUp_eq, without, queue]

theorem leave_without {waiter : Nat} (unhanded : Spared gap (s.handed.map (·.1))) (apart : gap ≠ some waiter)
    (after : Spared gap ((s.leave waiter now).1.handed.map (·.1))) :
    ((s.without lost gap).leave (closeUp gap waiter) now).1 = (s.leave waiter now).1.without lost gap := by
  have queued : closeUp gap waiter ∈ (s.without lost gap).waiters.map (·.id) ↔ waiter ∈ s.waiters.map (·.id) :=
    mem_queueWithout apart
  have handed : closeUp gap waiter ∈ (s.without lost gap).handed.map (·.1) ↔ waiter ∈ s.handed.map (·.1) :=
    mem_renumbered unhanded apart
  rcases leave_cases s waiter now with ⟨waits, left⟩ | ⟨gone, taken, given⟩ | ⟨gone, untaken, same⟩
  · rcases leave_cases (s.without lost gap) (closeUp gap waiter) now with ⟨-, left'⟩ | ⟨gone, -⟩ | ⟨gone, -⟩
    · have queue : (queueWithout gap s.waiters).filter (·.id ≠ closeUp gap waiter) =
          queueWithout gap (s.waiters.filter (·.id ≠ waiter)) :=
        queueWithout_filter (fun x stays => by simp only [Waiter.closeUp, ne_eq, closeUp_inj stays apart]) s.waiters
      rw [left, left']
      simp only [without, queue]
    · exact absurd (queued.mpr waits) gone
    · exact absurd (queued.mpr waits) gone
  · rcases leave_cases (s.without lost gap) (closeUp gap waiter) now with ⟨waits, -⟩ | ⟨-, -, given'⟩ | ⟨-, untaken, -⟩
    · exact absurd (queued.mp waits) gone
    · rw [given] at after ⊢
      rw [given', ← freeSlot_without lost after]
      simp only [without, renumbered_filter unhanded apart]
    · exact absurd (handed.mpr taken) untaken
  · rcases leave_cases (s.without lost gap) (closeUp gap waiter) now with ⟨waits, -⟩ | ⟨-, taken, -⟩ | ⟨-, -, same'⟩
    · exact absurd (queued.mp waits) gone
    · exact absurd (handed.mp taken) untaken
    · rw [same, same']

theorem release_without {lease : Nat} (unleased : Spared (some lost) (s.leases.map (·.1)))
    (apart : some lost ≠ some lease) (after : Spared gap (((s.release lease now).getD (s, [])).1.handed.map (·.1))) :
    ((s.without lost gap).release (closeUp (some lost) lease) now).map (·.1) =
      (s.release lease now).map (·.1.without lost gap) := by
  have held : closeUp (some lost) lease ∈ (s.without lost gap).leases.map (·.1) ↔ lease ∈ s.leases.map (·.1) :=
    mem_renumbered unleased apart
  by_cases present : lease ∈ s.leases.map (·.1)
  · rw [release_of_mem present, Option.getD_some] at after
    rw [release_of_mem present, release_of_mem (held.mpr present), Option.map_some, Option.map_some,
      ← freeSlot_without lost after]
    simp only [without, renumbered_filter unleased apart]
  · rw [release_of_not_mem present, release_of_not_mem (mt held.mp present)]
    rfl

theorem release_getD_without {lease : Nat} (unleased : Spared (some lost) (s.leases.map (·.1)))
    (apart : some lost ≠ some lease) (after : Spared gap (((s.release lease now).getD (s, [])).1.handed.map (·.1))) :
    (((s.without lost gap).release (closeUp (some lost) lease) now).getD (s.without lost gap, [])).1 =
      ((s.release lease now).getD (s, [])).1.without lost gap := by
  have both := release_without unleased apart after
  cases freed : s.release lease now with
  | none =>
    rw [freed] at both
    rw [Option.map_eq_none_iff.mp both]
    rfl
  | some r =>
    rw [freed] at both
    obtain ⟨r', freed', same⟩ := Option.map_eq_some_iff.mp both
    rw [freed']
    exact same

/-- Leases expire in the same order, that of their numbers. -/
theorem expired_without (unleased : Spared (some lost) (s.leases.map (·.1))) (gap : Option Nat) (maxHold now : Nat) :
    (s.without lost gap).expired maxHold now = (s.expired maxHold now).map (closeUp (some lost)) := by
  have old : (s.leases.filter fun x => decide (now - x.2 > maxHold)).map (·.1) ⊆ s.leases.map (·.1) :=
    (List.filter_sublist.map _).subset
  simp only [expired, without, renumbered, List.filter_map, List.map_map]
  rw [List.map_mergeSort (r := fun a b => decide (a ≤ b)) (s := fun a b => decide (a ≤ b)), List.map_map]
  · rfl
  · intro a here b there
    simp only [closeUp_le_iff (unleased a (old here)) (unleased b (old there))]

theorem releaseAll_without {leases : List Nat} (unleased : Spared (some lost) (s.leases.map (·.1)))
    (apart : Spared (some lost) leases) (after : Spared gap ((releaseAll now leases s).1.handed.map (·.1))) :
    (releaseAll now (leases.map (closeUp (some lost))) (s.without lost gap)).1 =
      (releaseAll now leases s).1.without lost gap := by
  induction leases generalizing s with
  | nil => rfl
  | cons lease rest ih =>
    have first : Spared gap (((s.release lease now).getD (s, [])).1.handed.map (·.1)) := by
      intro n member
      refine after n ?_
      simp only [releaseAll, releaseAll_handed, List.map_append]
      exact List.mem_append_left _ member
    have others : Spared (some lost) (((s.release lease now).getD (s, [])).1.leases.map (·.1)) := by
      intro n member
      rw [release_leases] at member
      exact unleased n ((List.filter_sublist.map _).subset member)
    have here := release_getD_without unleased (apart lease (List.mem_cons_self ..)) first
    change (releaseAll now (rest.map (closeUp (some lost)))
      (((s.without lost gap).release (closeUp (some lost) lease) now).getD (s.without lost gap, [])).1).1 = _
    rw [here]
    exact ih others (fun n member => apart n (List.mem_cons_of_mem _ member)) after

theorem reclaim_without (unleased : Spared (some lost) (s.leases.map (·.1))) {maxHold : Nat}
    (after : Spared gap ((releaseAll now (s.expired maxHold now) s).1.handed.map (·.1))) :
    (releaseAll now ((s.without lost gap).expired maxHold now) (s.without lost gap)).1 =
      (releaseAll now (s.expired maxHold now) s).1.without lost gap := by
  rw [expired_without unleased]
  exact releaseAll_without unleased (fun n expired => unleased n (expired_held expired)) after

/-- Slots that somebody waits for are taken, so they are not idle without the caller either. -/
theorem isIdle_without (busy : s.Busy) (roomy : 0 < s.capacity) (lost : Nat) (gap : Option Nat) :
    (s.without lost gap).isIdle = s.isIdle := by
  by_cases waits : s.waiters = []
  · simp [isIdle, without, waits, queueWithout]
  · have taken : s.occupied ≠ 0 := by
      have full := busy waits
      omega
    simp [isIdle, without, taken]

/-! ### The operations of the caller -/

theorem queueWithout_of_lt {v : Nat} {ws : List Waiter} (earlier : ∀ x ∈ ws, x.id < v) :
    queueWithout (some v) ws = ws := by
  have stays : ws.filter (fun x => some v ≠ some x.id) = ws :=
    List.filter_eq_self.mpr fun x member => by simpa using Nat.ne_of_gt (earlier x member)
  rw [queueWithout, stays]
  refine (List.map_congr_left fun x member => ?_).trans (List.map_id ws)
  rw [Waiter.closeUp, closeUp_of_le (Nat.le_of_lt (earlier x member))]
  rfl

theorem queueWithout_none (ws : List Waiter) : queueWithout none ws = ws := by
  simp [queueWithout, Waiter.closeUp, closeUp]

/-- A caller that joins the queue leaves the slots without it as they were. -/
theorem without_joined (sound : s.Sound) (lost deadline : Nat) :
    without { s with
        waiters := s.waiters ++ [⟨s.nextWaiter, deadline, true⟩]
        nextWaiter := s.nextWaiter + 1 } lost (some s.nextWaiter) = s.without lost none := by
  have queue : queueWithout (some s.nextWaiter) (s.waiters ++ [⟨s.nextWaiter, deadline, true⟩]) = s.waiters := by
    rw [queueWithout, List.filter_append, List.map_append]
    refine (congrArg₂ _ (queueWithout_of_lt fun x member => ?_) (by simp)).trans (List.append_nil _)
    exact sound.issued x.id (List.mem_append_left _ (List.mem_map_of_mem member))
  have handed : renumbered (some s.nextWaiter) s.handed = s.handed :=
    renumbered_of_le fun n member => Nat.le_of_lt (sound.issued n (List.mem_append_right _ member))
  simp only [without, queue, handed, closeUp_next, queueWithout_none, renumbered_none, closeUp_none]

theorem without_hangUp (s : Slot) (lost v : Nat) : (s.hangUp v).without lost (some v) = s.without lost (some v) := by
  have queue : queueWithout (some v) (s.waiters.map (·.deafened v)) = (queueWithout (some v) s.waiters).map id := by
    refine queueWithout_map (Waiter.deafened_id v) (fun x stays => ?_) s.waiters
    rw [Waiter.deafened, if_neg fun same : x.id = v => stays (congrArg some same.symm)]
    rfl
  rw [List.map_id] at queue
  simp only [hangUp_eq, without, queue]

theorem without_leave {v : Nat} (unhanded : v ∉ s.handed.map (·.1)) (lost now : Nat) :
    (s.leave v now).1.without lost (some v) = s.without lost (some v) := by
  rcases leave_cases s v now with ⟨-, left⟩ | ⟨-, taken, -⟩ | ⟨-, -, same⟩
  · have others (x : Waiter) (stays : some v ≠ some x.id) : true = decide (x.id ≠ v) := by
      have other : x.id ≠ v := fun same => stays (congrArg some same.symm)
      exact (decide_eq_true other).symm
    have queue : (queueWithout (some v) s.waiters).filter (fun _ => true) =
        queueWithout (some v) (s.waiters.filter (·.id ≠ v)) := queueWithout_filter others s.waiters
    rw [List.filter_true] at queue
    rw [left]
    simp only [without, queue]
  · exact absurd taken unhanded
  · rw [same]

end Slot

end RelayRamp.Lease
