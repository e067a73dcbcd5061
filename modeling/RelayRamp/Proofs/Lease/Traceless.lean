import RelayRamp.Proofs.Lease.Absence
import RelayRamp.Proofs.Lease.Unserved

/-!
# Acquisitions that leave no trace

An acquisition that is never handed a slot can be erased from a run: its beginning and all that it does itself. Every
other acquisition then has the same outcome at the same instant, and the pool goes through the same states, without the
entry in the queue and with smaller numbers for what came later.
-/
namespace RelayRamp.Lease

open RelayRamp.Admission RelayRamp.Routing

/-- The number of the next lease after a move. -/
def Move.nextLease (next : Nat) : Move → Nat
  | acquire .. => next + 1
  | _ => next

namespace Pool

variable {p : Pool} {lost now n : Nat} {gap gap' : Option WaitKey} {key : WaitKey}

/-- Slots that are the same without the caller make the same pool without it. -/
theorem put_same (numbered : p.Numbered) {s s' : Slot} (found : p.slot? n = some s)
    (same : s'.without lost (gapIn gap' n) = s.without lost (gapIn gap n))
    (others : ∀ m, m ≠ n → gapIn gap' m = gapIn gap m) :
    (p.put n s').without lost gap' = p.without lost gap := by
  simp only [put_eq, without, mapSlots, List.map_map, Pool.mk.injEq, and_true]
  refine List.map_congr_left fun entry member => ?_
  simp only [Function.comp_apply]
  by_cases here : entry.2.number = n
  · have slot := slot?_of_mem numbered member
    rw [here, found] at slot
    cases slot
    rw [if_pos here, here, same]
  · rw [if_neg here, others _ here]

theorem adjust_same (numbered : p.Numbered) {f : Slot → Slot}
    (same : ∀ s, p.slot? n = some s → (f s).without lost (gapIn gap n) = s.without lost (gapIn gap n)) :
    (p.adjust n f).without lost gap = p.without lost gap := by
  unfold adjust
  cases found : p.slot? n with
  | none => rfl
  | some s => exact put_same numbered found (same s found) fun _ _ => rfl

theorem release_lost (numbered : p.Numbered) (clear : p.Clear lost gap) (name : TransportName) (now : Nat) :
    (p.release name lost now).1 = p := by
  cases found : p.find? name with
  | none => exact release_absent found lost now
  | some g =>
    have free : lost ∉ g.slot.leases.map (·.1) := fun held =>
      clear.unleased _ _ (slot?_of_find? numbered found) lost held rfl
    simp [release, found, Slot.release_of_not_mem free]

end Pool

/-- The place of a caller that leaves the queue is left out anyway. -/
theorem Acquisition.leave_own {p : Pool} (numbered : p.Numbered) {key : WaitKey} {lost : Nat}
    (clear : p.Clear lost (some key)) (now : Nat) :
    (leave p key now).1.without lost (some key) = p.without lost (some key) := by
  rw [leave_eq_adjust]
  refine Pool.adjust_same numbered fun s found => ?_
  have here : gapIn (some key) key.generation = some key.waiter := gapIn_eq_some.mpr rfl
  rw [here]
  refine Slot.without_leave (fun handed => ?_) lost now
  exact clear.unhanded _ s found _ handed here

theorem Acquisition.failed_placeless (fault : LeaseFault) (key : WaitKey) :
    none = some key ↔ ∃ ticket deadline, some (failed fault) = some (.queued ticket key deadline) := by
  constructor
  · intro impossible
    cases impossible
  · rintro ⟨_, _, impossible⟩
    cases impossible

/-- Acquisitions that wait further ahead keep their numbers. -/
theorem Acquisition.without_later {a : Acquisition} {lost n v : Nat}
    (ahead : ∀ ticket key deadline, a = .queued ticket key deadline → key.generation = n → key.waiter ≤ v) :
    a.without lost (some ⟨n, v⟩) = a.without lost none := by
  cases a with
  | queued ticket key deadline =>
    simp only [without, Acquisition.queued.injEq, true_and, and_true]
    by_cases here : key.generation = n
    · have gap : gapIn (some ⟨n, v⟩) key.generation = some v := gapIn_eq_some.mpr (here ▸ rfl)
      simp only [WaitKey.closeUp, gap, gapIn_none, closeUp_of_le (ahead _ _ _ rfl here), closeUp_none]
    · have elsewhere : gapIn (some ⟨n, v⟩) key.generation = none := by simp [gapIn, Ne.symm here]
      simp only [WaitKey.closeUp, elsewhere, gapIn_none]
  | _ => rfl

namespace Traffic

variable {t : Traffic} {moves : List (Nat × Move)} {lost now : Nat} {gap : Option WaitKey} {move : Move}

/-! ### What an acquisition does itself -/

theorem keep_own (t : Traffic) (p : Pool) (lost : Nat) (gap : Option WaitKey) (a : Option Acquisition) :
    (t.keep p lost a).without lost gap = ⟨p.without lost gap, (t.without lost gap).calls⟩ := by
  simp only [keep, without, if_neg (reopen_ne lost _)]

/-- A call that is not in the way of others changes nothing for them after it has begun. -/
theorem own_step (h : t.Parted lost gap) (mine : move.without? lost t.pool.nextLease = none)
    (begun : ∀ transport timeout, move ≠ .acquire transport timeout)
    (place : ∀ ticket key deadline, t.calls lost = some (.queued ticket key deadline) → gap = some key)
    (unleased : ∀ a, t.calls lost = some a → a.lease? = none) :
    (t.step now move).without lost gap = t.without lost gap := by
  have own {n : Nat} {m : Move} (mine : (if n = lost then none else some m) = none) : n = lost := by
    by_contra other
    rw [if_neg other] at mine
    cases mine
  cases move with
  | acquire transport timeout => exact absurd rfl (begun transport timeout)
  | resume call =>
    obtain rfl := own mine
    cases present : t.calls call with
    | none => simp only [step, present]
    | some a =>
      cases a with
      | requested transport timeout => simp only [step, present]
      | queued ticket key deadline =>
        have here := place ticket key deadline present
        subst here
        simp only [step, present, Acquisition.resume]
        rw [keep_own]
        rcases Acquisition.resumeQueued_cases t.pool now ticket key deadline with
          ⟨s, s', grant, found, claimed, -⟩ | ⟨s, -, -, -, result⟩ | ⟨-, effects, result⟩
        · rcases Slot.claim_cases s key.waiter ticket.leaseId with ⟨grant, handed, -, -⟩ | ⟨-, missing⟩
          · exact absurd (gapIn_eq_some.mpr rfl) (h.clear.unhanded _ s found _ (List.mem_map_of_mem handed))
          · rw [missing] at claimed
            cases claimed
        · rw [result]
          rfl
        · rw [result, Acquisition.leave_own h.sound.numbered h.clear]
          rfl
      | pacing ticket grant => cases unleased _ present
      | granted ticket instant => cases unleased _ present
      | failed fault =>
        simp only [step, present, Acquisition.resume]
        exact keep_own t _ _ _ _
  | hangUp call cause =>
    obtain rfl := own mine
    simp only [step]
    split
    next ticket key deadline present =>
      have here := place ticket key deadline present
      subst here
      split
      · rfl
      · have here : gapIn (some key) key.generation = some key.waiter := gapIn_eq_some.mpr rfl
        simp only [without, Traffic.mk.injEq, and_true]
        refine Pool.adjust_same h.sound.numbered fun s found => ?_
        rw [here]
        exact s.without_hangUp call key.waiter
    next => rfl
  | timeOut call =>
    obtain rfl := own mine
    simp only [step]
    split
    next ticket key deadline present =>
      have here := place ticket key deadline present
      subst here
      split
      · rfl
      · rw [keep_own, Acquisition.leave_own h.sound.numbered h.clear]
        rfl
    next => rfl
  | cancel call =>
    obtain rfl := own mine
    cases present : t.calls call with
    | none => simp only [step, present]
    | some a =>
      simp only [step, present]
      rw [keep_own]
      cases a with
      | queued ticket key deadline =>
        have here := place ticket key deadline present
        subst here
        rw [Acquisition.cancel, Acquisition.leave_own h.sound.numbered h.clear]
        rfl
      | pacing ticket grant => cases unleased _ present
      | granted ticket instant => cases unleased _ present
      | requested transport timeout => rfl
      | failed fault => rfl
  | detach call =>
    obtain rfl := own mine
    simp only [step]
    split
    next ticket instant present => cases unleased _ present
    next => rfl
  | release transport lease =>
    obtain rfl := own mine
    simp only [step, Pool.release_lost h.sound.numbered h.clear]
  | reclaim maxHold => cases mine
  | configure transport limits => cases mine
  | retain keep => cases mine

/-- The lease of an acquisition that begins is not given out without it. -/
theorem next_own (p : Pool) (gap : Option WaitKey) :
    Pool.without { p with nextLease := p.nextLease + 1 } p.nextLease gap = p.without p.nextLease gap := by
  simp only [Pool.without, Pool.mapSlots, closeUp_next, closeUp_of_le (Nat.le_refl _)]

/-- When it begins it takes its place in a queue, or none at all. -/
theorem begin_own (h : t.Parted t.pool.nextLease none) {transport : TransportName} {timeout : Nat}
    (placed : ∀ call ticket key deadline s, t.calls call = some (.queued ticket key deadline) →
      t.pool.slot? key.generation = some s → key.waiter < s.nextWaiter)
    (unleased : ∀ a, (t.step now (.acquire transport timeout)).calls t.pool.nextLease = some a → a.lease? = none) :
    ∃ gap, (∀ key, gap = some key ↔ ∃ ticket deadline,
        (t.step now (.acquire transport timeout)).calls t.pool.nextLease = some (.queued ticket key deadline)) ∧
      (t.step now (.acquire transport timeout)).without t.pool.nextLease gap = t.without t.pool.nextLease none := by
  simp only [step] at unleased ⊢
  simp only [keep_own]
  simp only [keep, if_true] at unleased ⊢
  cases found : t.pool.find? transport with
  | none =>
    rw [Acquisition.start_absent found]
    refine ⟨none, Acquisition.failed_placeless _, ?_⟩
    rw [next_own]
    rfl
  | some g =>
    have numbered : Pool.Numbered { t.pool with nextLease := t.pool.nextLease + 1 } :=
      ⟨h.sound.numbered.names_nodup, h.sound.numbered.numbers_nodup, h.sound.numbered.issued⟩
    have slot := Pool.slot?_of_find? h.sound.numbered found
    rw [Acquisition.start_found found] at unleased ⊢
    rcases Slot.enter_cases g.slot now t.pool.nextLease (now + timeout) with
      ⟨-, -, -, granted⟩ | ⟨-, -, -, refused⟩ | ⟨-, queued⟩
    · rw [granted] at unleased
      cases (Acquisition.paced_lease? ..).symm.trans (unleased _ rfl)
    · rw [refused]
      refine ⟨none, Acquisition.failed_placeless _, ?_⟩
      rw [Pool.put_same numbered (s := g.slot) slot rfl fun _ _ => rfl, next_own]
      rfl
    · rw [queued]
      refine ⟨some ⟨g.number, g.slot.nextWaiter⟩, fun key => ⟨?_, ?_⟩, ?_⟩
      · intro same
        cases same
        exact ⟨_, _, rfl⟩
      · rintro ⟨_, _, same⟩
        cases same
        rfl
      have here : gapIn (some ⟨g.number, g.slot.nextWaiter⟩) g.number = some g.slot.nextWaiter := gapIn_eq_some.mpr rfl
      have elsewhere (m : Nat) (other : m ≠ g.number) : gapIn (some ⟨g.number, g.slot.nextWaiter⟩) m = none := by
        simp [gapIn, Ne.symm other]
      have joined := Slot.without_joined (h.sound.slots _ _ slot) t.pool.nextLease (now + timeout)
      have pool : _ = Pool.without _ t.pool.nextLease none :=
        Pool.put_same numbered slot (by rw [here]; exact joined) elsewhere
      dsimp only
      rw [pool, next_own]
      simp only [without, Traffic.mk.injEq, true_and]
      funext n
      refine Option.map_congr fun a present => Acquisition.without_later fun ticket key deadline same place => ?_
      subst same
      exact Nat.le_of_lt (placed _ ticket key deadline g.slot present (place ▸ slot))

/-! ### Runs without an acquisition -/

/-- Every capacity that is configured has room for a lease. -/
def Roomy (moves : List (Nat × Move)) : Prop :=
  ∀ now transport limits, (now, .configure transport limits) ∈ moves → 0 < limits.concurrency

/-- The run without an acquisition, when the next one gets the given number: neither its beginning nor what it does
itself. -/
def erase (lost : Nat) : Nat → List (Nat × Move) → List (Nat × Move)
  | _, [] => []
  | next, (now, move) :: rest =>
    ((move.without? lost next).map (now, ·)).toList ++ erase lost (move.nextLease next) rest

variable {rest : List (Nat × Move)} {call n : Nat} {key : WaitKey} {s : Slot}

theorem nextLease_eq (t : Traffic) (now : Nat) (move : Move) :
    (t.step now move).pool.nextLease = move.nextLease t.pool.nextLease := by
  rcases nextLease_step t now move with ⟨other, same⟩ | ⟨transport, timeout, rfl, next⟩
  · rw [same]
    cases move with
    | acquire transport timeout => exact absurd rfl (other transport timeout)
    | _ => rfl
  · exact next

theorem erase_append (t : Traffic) (lost : Nat) (moves rest : List (Nat × Move)) :
    erase lost t.pool.nextLease (moves ++ rest) =
      erase lost t.pool.nextLease moves ++ erase lost (t.run moves).pool.nextLease rest := by
  induction moves generalizing t with
  | nil => rfl
  | cons head moves ih =>
    obtain ⟨now, move⟩ := head
    rw [List.cons_append, erase, erase, ← nextLease_eq t now, ih, List.append_assoc]
    rfl

theorem Roomy.before (roomy : Roomy (moves ++ rest)) : Roomy moves :=
  fun now transport limits member => roomy now transport limits (List.mem_append_left _ member)

theorem roomy_run (roomy : Roomy moves) (found : (empty.run moves).pool.slot? n = some s) : 0 < s.capacity := by
  induction moves using List.reverseRecOn generalizing s with
  | nil => cases found
  | append_singleton moves last ih =>
    obtain ⟨now, move⟩ := last
    have here (transport : TransportName) (limits : TransportLimits) (same : move = .configure transport limits) :
        0 < limits.concurrency := roomy now transport limits (by simp [same])
    rw [run_append] at found
    rcases slot?_step (run_sound moves).numbered now move n with same | ⟨_, _, -, -, -, gone⟩ |
      ⟨transport, limits, configured, -, -, fresh⟩
    · obtain ⟨old, there, rfl⟩ := Option.map_eq_some_iff.mp (same.symm.trans found)
      cases performed : (empty.run moves).operation? now move n with
      | none => exact ih roomy.before there
      | some op =>
        rcases Slot.step_capacity old now op with kept | ⟨limits, rfl, changed⟩
        · exact kept ▸ ih roomy.before there
        · generalize moved : move = m at performed
          cases performs performed with
          | configure found same => exact changed ▸ here _ limits moved
    · cases gone.symm.trans found
    · cases fresh.symm.trans found
      exact here transport limits configured

/-- An acquisition that is never served is apart from the others in every state. -/
theorem NeverServed.parted (never : NeverServed moves lost) (roomy : Roomy moves) {gap : Option WaitKey}
    (place : ∀ key, gap = some key → WaitedAt moves lost key) : (empty.run moves).Parted lost gap where
  sound := run_sound moves
  clear := by
    refine ⟨fun n s found lease held same => ?_, fun n s found v handed same => ?_⟩
    · cases same
      have leased : (empty.run moves).Leased n lost := ⟨s, found, held⟩
      rcases leased.inHand with ⟨a, ticket, present, holds⟩ | ⟨before, now, after, ticket, instant, rfl, granted⟩
      · cases holds.symm.trans (never.unleased present)
      · cases never.before.unleased granted
    · have waited := place _ (gapIn_eq_some.mp same)
      obtain ⟨call, ticket, deadline, waits⟩ := run_awaited moves found (List.mem_append_right _ handed)
      obtain rfl := waited.only waits found
      exact never.unhanded waits found handed
  busy := by
    intro n s found
    refine ⟨?_, roomy_run roomy found⟩
    obtain ⟨limits, ops, rfl⟩ := slot_history moves n s found
    exact Slot.run_busy limits ops
  opened := fun key same => (place key same).opened
  issued := by
    intro n s found same
    exact Nat.lt_irrefl _ ((place _ (gapIn_eq_some.mp same)).issued found)
  apart := by
    intro call ticket key deadline s other waits found same
    exact other ((place key same).only waits found)
  own := (run_ticketed moves).own

/-- The traffic of the run without the acquisition is that of the run, without the acquisition. -/
theorem run_erase (begun : 0 < lost) (roomy : Roomy moves) (never : NeverServed moves lost) :
    ∃ gap, (∀ key, gap = some key ↔ WaitedAt moves lost key) ∧
      empty.run (erase lost 1 moves) = (empty.run moves).without lost gap := by
  induction moves using List.reverseRecOn with
  | nil =>
    refine ⟨none, fun key => ⟨nofun, ?_⟩, ?_⟩
    · rintro ⟨earlier, ticket, deadline, leads, waits⟩
      cases List.prefix_nil.mp leads
      cases waits
    · have first : closeUp (some lost) 1 = 1 := closeUp_of_le begun
      simp [erase, run, empty, without, Pool.without, Pool.mapSlots, Pool.empty, first]
  | append_singleton moves last ih =>
    obtain ⟨now, move⟩ := last
    obtain ⟨gap, place, same⟩ := ih roomy.before never.before
    have parted := never.before.parted roomy.before fun key => (place key).mp
    have next : (empty.run (moves ++ [(now, move)])) = (empty.run moves).step now move := by rw [run_append]; rfl
    have erased := erase_append empty lost moves [(now, move)]
    change erase lost 1 _ = erase lost 1 moves ++ _ at erased
    simp only [erase, List.append_nil] at erased
    rw [erased, run_append, same, next]
    cases kept : move.without? lost (empty.run moves).pool.nextLease with
    | some move' =>
      have elsewhere (transport : TransportName) (timeout : Nat) (begins : move = .acquire transport timeout) :
          lost ≠ (empty.run moves).pool.nextLease := by
        rintro rfl
        rw [begins, Move.without?, if_pos rfl] at kept
        cases kept
      have place' (key : WaitKey) : gap = some key ↔ WaitedAt (moves ++ [(now, move)]) lost key :=
        (place key).trans (waitedAt_step elsewhere).symm
      have after := (never.parted roomy fun key => (place' key).mp).clear
      rw [next] at after
      exact ⟨gap, place', step_without parted kept after⟩
    | none =>
      by_cases begins : ∃ transport timeout, move = .acquire transport timeout
      · obtain ⟨transport, timeout, rfl⟩ := begins
        obtain rfl : (empty.run moves).pool.nextLease = lost := by
          by_contra other
          rw [Move.without?, if_neg other] at kept
          cases kept
        -- It cannot have waited before it began.
        have unplaced (key : WaitKey) : ¬ WaitedAt moves (empty.run moves).pool.nextLease key :=
          fun waited => Nat.lt_irrefl _ waited.begun
        obtain rfl : gap = none :=
          Option.eq_none_iff_forall_ne_some.mpr fun key same => unplaced key ((place key).mp same)
        obtain ⟨gap, place', same'⟩ := begin_own parted
          (fun call ticket key deadline s waits found => (waitedAt_now waits).issued found)
          (fun a present => never.unleased (next ▸ present))
        refine ⟨gap, fun key => (place' key).trans ⟨?_, ?_⟩, same'.symm⟩
        · rintro ⟨ticket, deadline, waits⟩
          exact waitedAt_now (next ▸ waits)
        · rintro ⟨earlier, ticket, deadline, leads, waits⟩
          rcases List.prefix_concat_iff.mp leads with rfl | before
          · exact ⟨ticket, deadline, next ▸ waits⟩
          · exact absurd ⟨earlier, ticket, deadline, before, waits⟩ (unplaced key)
      · have begun (transport : TransportName) (timeout : Nat) : move ≠ .acquire transport timeout :=
          fun same => begins ⟨transport, timeout, same⟩
        refine ⟨gap, fun key => (place key).trans (waitedAt_step fun _ _ same => absurd same (begun _ _)).symm, ?_⟩
        exact (own_step parted kept begun (fun _ _ _ waits => (place _).mpr (waitedAt_now waits))
          fun _ present => never.before.unleased present).symm

/-- An acquisition that is never handed a slot leaves no trace, whether it times out or is cancelled in the queue. In
the run without it every other acquisition is in every state what it is in the run, with the same grant instant, and
the slots are the same without its place in the queue. Only the numbers of leases and waiters after its own are smaller
by one, and the place is in the queue only while it waits. -/
theorem leaves_no_trace (begun : 0 < lost) (roomy : Roomy moves) (never : NeverServed moves lost)
    {before : List (Nat × Move)} (leads : before <+: moves) :
    let t := empty.run before
    let t' := empty.run (erase lost 1 before)
    ∃ gap, t' = t.without lost gap ∧
      (∀ call, call ≠ lost → t'.calls (closeUp (some lost) call) = (t.calls call).map (·.without lost gap)) ∧
      (∀ n, t'.pool.slot? n = (t.pool.slot? n).map (·.without lost (gapIn gap n))) ∧
      (∀ key, gap = some key ↔ WaitedAt before lost key) ∧
      ∀ key s, gap = some key → t.pool.slot? key.generation = some s → key.waiter ∈ s.waiters.map (·.id) →
        ∃ ticket deadline, t.calls lost = some (.queued ticket key deadline) := by
  intro t t'
  obtain ⟨rest, rfl⟩ := leads
  obtain ⟨gap, place, same⟩ := run_erase begun roomy.before never.before
  refine ⟨gap, same, fun call other => ?_, fun n => ?_, place, fun key s here found queued => ?_⟩
  · rw [show t' = t.without lost gap from same, calls_without _ gap (Ne.symm other)]
  · rw [show t' = t.without lost gap from same]
    exact Pool.slot?_without t.pool lost gap n
  · obtain ⟨call, ticket, deadline, waits⟩ := run_awaited before found (List.mem_append_left _ queued)
    obtain rfl := ((place key).mp here).only waits found
    exact ⟨ticket, deadline, waits⟩

/-- A caller waits in vain between two others; its turn comes after its deadline. The one behind it is granted its lease
at the same instant without it. -/
theorem leaves_no_trace_late :
    let relay : TransportName := ⟨"relay"⟩
    let moves : List (Nat × Move) :=
      [(0, .configure relay ⟨1, 0⟩), (0, .acquire relay 500), (1, .acquire relay 3), (2, .acquire relay 500),
        (3, .retain []), (5, .release relay 1), (6, .resume 2), (7, .resume 3)]
    (empty.run moves).calls 2 = some (.failed (.timedOut "relay")) ∧
      (empty.run moves).calls 3 = some (.granted ⟨relay, 3⟩ 7) ∧
      erase 2 1 moves = [(0, .configure relay ⟨1, 0⟩), (0, .acquire relay 500), (2, .acquire relay 500),
        (3, .retain []), (5, .release relay 1), (7, .resume 2)] ∧
      (empty.run (erase 2 1 moves)).calls 2 = some (.granted ⟨relay, 2⟩ 7) := by
  intro relay moves
  have roomy : Roomy moves := by
    intro now transport limits member
    simp only [moves, List.mem_cons, Prod.mk.injEq, Move.configure.injEq, reduceCtorEq, and_false, List.not_mem_nil,
      or_false] at member
    rw [member.2.2]
    decide
  -- When it goes on, the slot was handed to the caller behind it.
  have never : NeverServed moves 2 := by
    have waits : (empty.run (moves.take 6)).calls 2 = some (.queued ⟨relay, 2⟩ ⟨0, 0⟩ 4) := by decide +kernel
    refine (neverServed_of_waiting waits (by decide +kernel)).ended ?_ (by decide +kernel) [(7, .resume 3)]
    intro a present
    have failed : ((empty.run (moves.take 6)).step 6 (.resume 2)).calls 2 = some (.failed (.timedOut "relay")) := by
      decide +kernel
    exact ⟨_, Option.some.inj (present.symm.trans failed)⟩
  have granted : (empty.run moves).calls 3 = some (.granted ⟨relay, 3⟩ 7) := by decide +kernel
  obtain ⟨gap, -, calls, -⟩ := leaves_no_trace (by decide) roomy never List.prefix_rfl
  refine ⟨by decide +kernel, granted, by decide +kernel, ?_⟩
  have other := calls 3 (by decide)
  rw [granted] at other
  exact other

end Traffic

end RelayRamp.Lease
