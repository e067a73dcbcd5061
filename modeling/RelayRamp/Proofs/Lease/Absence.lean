import RelayRamp.Proofs.Lease.Removal
import RelayRamp.Proofs.Lease.History

/-!
# A pool without one caller

The pool and the acquisitions as they would be without one acquisition that has no slot. Its place is that of one
queue, or it has none; its lease number is not given out. Every move of the others does to this traffic what it does to
the real one.
-/
namespace RelayRamp.Lease

open RelayRamp.Admission RelayRamp.Routing

/-- The number of the place in the slots of a generation, if it is there. -/
def gapIn (gap : Option WaitKey) (n : Nat) : Option Nat := (gap.filter (·.generation = n)).map (·.waiter)

theorem gapIn_eq_some {gap : Option WaitKey} {n v : Nat} : gapIn gap n = some v ↔ gap = some ⟨n, v⟩ := by
  cases gap with
  | none => simp [gapIn]
  | some key =>
    cases key
    simp [gapIn]

@[simp] theorem gapIn_none (n : Nat) : gapIn none n = none := rfl

namespace Pool

def without (p : Pool) (lost : Nat) (gap : Option WaitKey) : Pool :=
  { p.mapSlots fun n s => s.without lost (gapIn gap n) with nextLease := closeUp (some lost) p.nextLease }

/-- The caller has no slot, neither for its lease nor at its place. -/
structure Clear (p : Pool) (lost : Nat) (gap : Option WaitKey) : Prop where
  unleased : ∀ n s, p.slot? n = some s → Spared (some lost) (s.leases.map (·.1))
  unhanded : ∀ n s, p.slot? n = some s → Spared (gapIn gap n) (s.handed.map (·.1))

variable {p : Pool} {lost now n : Nat} {gap : Option WaitKey} {name : TransportName}

theorem find?_without (p : Pool) (lost : Nat) (gap : Option WaitKey) (name : TransportName) :
    (p.without lost gap).find? name =
      (p.find? name).map fun g => { g with slot := g.slot.without lost (gapIn gap g.number) } :=
  find?_mapSlots p (fun n s => s.without lost (gapIn gap n)) name

theorem slot?_without (p : Pool) (lost : Nat) (gap : Option WaitKey) (n : Nat) :
    (p.without lost gap).slot? n = (p.slot? n).map (·.without lost (gapIn gap n)) :=
  slot?_mapSlots p (fun n s => s.without lost (gapIn gap n)) n

theorem put_without (p : Pool) (lost : Nat) (gap : Option WaitKey) (n : Nat) (s : Slot) :
    (p.without lost gap).put n (s.without lost (gapIn gap n)) = (p.put n s).without lost gap := by
  simp only [put_eq, without, mapSlots, List.map_map, Pool.mk.injEq, and_true]
  refine List.map_congr_left fun entry _ => ?_
  simp only [Function.comp_apply]
  split
  next same => rw [same]
  next => rfl

theorem adjust_without {f f' : Slot → Slot} (same : ∀ s, p.slot? n = some s →
      f' (s.without lost (gapIn gap n)) = (f s).without lost (gapIn gap n)) :
    (p.without lost gap).adjust n f' = (p.adjust n f).without lost gap := by
  unfold adjust
  rw [slot?_without]
  cases found : p.slot? n with
  | none => rfl
  | some s =>
    rw [Option.map_some]
    dsimp only
    rw [same s found, put_without]

theorem mapSlots_without {f f' : Nat → Slot → Slot} (numbered : p.Numbered) (same : ∀ n s, p.slot? n = some s →
      f' n (s.without lost (gapIn gap n)) = (f n s).without lost (gapIn gap n)) :
    (p.without lost gap).mapSlots f' = (p.mapSlots f).without lost gap := by
  simp only [without, mapSlots, List.map_map, Pool.mk.injEq, and_true]
  refine List.map_congr_left fun entry member => ?_
  simp only [Function.comp_apply]
  rw [same entry.2.number entry.2.slot (slot?_of_mem numbered member)]

theorem release_without (numbered : p.Numbered) (clear : p.Clear lost gap) {lease : Nat} (apart : lost ≠ lease)
    (after : (p.release name lease now).1.Clear lost gap) :
    ((p.without lost gap).release name (closeUp (some lost) lease) now).1 =
      (p.release name lease now).1.without lost gap := by
  cases found : p.find? name with
  | none =>
    have found' : (p.without lost gap).find? name = none := by rw [find?_without, found]; rfl
    rw [release_absent found, release_absent found']
  | some g =>
    have slot := slot?_of_find? numbered found
    have after' : Spared (gapIn gap g.number) (((g.slot.release lease now).getD (g.slot, [])).1.handed.map (·.1)) := by
      refine after.unhanded g.number _ ?_
      rw [release_eq_adjust numbered found, slot?_adjust, slot, Option.map_some, if_pos rfl]
    have both := Slot.release_without (clear.unleased _ _ slot) (fun same => apart (Option.some.inj same)) after'
    simp only [release, find?_without, found, Option.map_some, Option.bind_eq_bind, Option.bind_some]
    cases freed : g.slot.release lease now with
    | none =>
      rw [freed] at both
      rw [Option.map_eq_none_iff.mp both]
      rfl
    | some r =>
      rw [freed] at both
      obtain ⟨r', freed', same⟩ := Option.map_eq_some_iff.mp both
      rw [freed']
      simp only [Option.bind_some]
      rw [same, put_without]

theorem reclaim_without (numbered : p.Numbered) (clear : p.Clear lost gap) {maxHold : Nat}
    (after : (p.reclaim maxHold now).1.Clear lost gap) :
    ((p.without lost gap).reclaim maxHold now).1 = (p.reclaim maxHold now).1.without lost gap := by
  rw [reclaim_eq] at after
  rw [reclaim_eq, reclaim_eq]
  refine mapSlots_without numbered fun n s found => ?_
  refine Slot.reclaim_without (clear.unleased n s found) (after.unhanded n _ ?_)
  rw [slot?_mapSlots, found]
  rfl

theorem upsert_map (f : Generation → Generation) {g g' : Generation} (same : f g = g') (name : TransportName)
    (roster : Roster Generation) :
    Roster.upsert (fun _ => g') name (roster.map fun entry => (entry.1, f entry.2)) =
      (roster.upsert (fun _ => g) name).map fun entry => (entry.1, f entry.2) := by
  subst same
  induction roster with
  | nil => rfl
  | cons entry rest ih =>
    simp only [List.map_cons, Roster.upsert]
    split
    · rfl
    · split
      · rfl
      · rw [ih]
        rfl

theorem configure_without (numbered : p.Numbered) {limits : TransportLimits}
    (opened : ∀ v, gap ≠ some ⟨p.nextGeneration, v⟩)
    (after : (p.configure name limits now).1.Clear lost gap) :
    ((p.without lost gap).configure name limits now).1 = (p.configure name limits now).1.without lost gap := by
  cases found : p.find? name with
  | some g =>
    have found' := (find?_without p lost gap name).trans (congrArg _ found)
    rw [configure_found found] at after ⊢
    rw [configure_found found']
    have after' : Spared (gapIn gap g.number) ((g.slot.configure limits now).1.handed.map (·.1)) := by
      refine after.unhanded g.number _ ?_
      rw [slot?_put, slot?_of_find? numbered found, Option.map_some, if_pos rfl]
    rw [← put_without, ← Slot.configure_without lost limits after']
  | none =>
    have found' : (p.without lost gap).find? name = none := by rw [find?_without, found]; rfl
    have fresh : (Slot.fresh limits).without lost (gapIn gap p.nextGeneration) = .fresh limits := by
      have none : gapIn gap p.nextGeneration = none :=
        Option.eq_none_iff_forall_ne_some.mpr fun v same => opened v (gapIn_eq_some.mp same)
      rw [none]
      rfl
    have put := upsert_map (g := ⟨p.nextGeneration, .fresh limits⟩)
      (fun g => { g with slot := g.slot.without lost (gapIn gap g.number) })
      (congrArg (Generation.mk p.nextGeneration) fresh) name p.slots
    simp only [configure, found, found']
    exact congrArg (Pool.mk · _ _) put

theorem retain_without (numbered : p.Numbered) (busy : ∀ n s, p.slot? n = some s → s.Busy ∧ 0 < s.capacity)
    (keep : List TransportName) : (p.without lost gap).retain keep = (p.retain keep).without lost gap := by
  simp only [retain, without, mapSlots, List.filter_map, Pool.mk.injEq, and_true]
  congr 1
  refine List.filter_congr fun entry member => ?_
  obtain ⟨full, roomy⟩ := busy _ _ (slot?_of_mem numbered member)
  simp only [Function.comp_apply, Slot.isIdle_without full roomy]

end Pool

/-! ### Acquisitions -/

/-- The ticket when the lost lease is not given out. -/
def reticket (lost : Nat) (ticket : LeaseTicket) : LeaseTicket :=
  { ticket with leaseId := closeUp (some lost) ticket.leaseId }

def WaitKey.closeUp (gap : Option WaitKey) (key : WaitKey) : WaitKey :=
  { key with waiter := Lease.closeUp (gapIn gap key.generation) key.waiter }

namespace Acquisition

def without (lost : Nat) (gap : Option WaitKey) : Acquisition → Acquisition
  | requested transport timeout => requested transport timeout
  | queued ticket key deadline => queued (reticket lost ticket) (key.closeUp gap) deadline
  | pacing ticket grant => pacing (reticket lost ticket) grant
  | granted ticket instant => granted (reticket lost ticket) instant
  | failed fault => failed fault

variable {p : Pool} {lost now : Nat} {gap : Option WaitKey} {key : WaitKey}

theorem paced_without (lost : Nat) (gap : Option WaitKey) (ticket : LeaseTicket) (grant now : Nat) :
    (paced ticket grant now).without lost gap = paced (reticket lost ticket) grant now := by
  unfold paced
  split <;> rfl

theorem entered_without (lost : Nat) (gap : Option WaitKey) (ticket : LeaseTicket) (n deadline now : Nat)
    (entry : Entry) : (entered ticket n deadline now entry).without lost gap =
      entered (reticket lost ticket) n deadline now (entry.closeUp (gapIn gap n)) := by
  cases entry with
  | granted grant => exact paced_without lost gap ticket grant now
  | queued waiter => rfl
  | tooLate => rfl

theorem start_without (busy : ∀ n s, p.slot? n = some s → s.Busy) (numbered : p.Numbered)
    (issued : ∀ n s, p.slot? n = some s → gapIn gap n ≠ some s.nextWaiter) (apart : lost ≠ p.nextLease)
    (transport : TransportName) (timeout now : Nat) :
    start (p.without lost gap) transport timeout now =
      ((start p transport timeout now).1.without lost gap, (start p transport timeout now).2.without lost gap) := by
  have next : { p.without lost gap with nextLease := closeUp (some lost) p.nextLease + 1 } =
      Pool.without { p with nextLease := p.nextLease + 1 } lost gap := by
    rw [← closeUp_succ fun same => apart (Option.some.inj same)]
    rfl
  have found' := Pool.find?_without p lost gap transport
  cases found : p.find? transport with
  | none =>
    rw [found] at found'
    rw [start_absent found, start_absent found']
    exact congrArg (·, _) next
  | some g =>
    rw [found] at found'
    have slot := Pool.slot?_of_find? numbered found
    have entry := Slot.enter_without (busy _ _ slot) (issued _ _ slot) lost now p.nextLease (now + timeout)
    have here : (p.without lost gap).nextLease = closeUp (some lost) p.nextLease := rfl
    rw [start_found found, start_found found', entered_without, ← Pool.put_without, here]
    dsimp only
    rw [entry, next]
    rfl

theorem leave_without (clear : p.Clear lost gap) (apart : ∀ s, p.slot? key.generation = some s → gap ≠ some key)
    (after : (leave p key now).1.Clear lost gap) :
    (leave (p.without lost gap) (key.closeUp gap) now).1 = (leave p key now).1.without lost gap := by
  rw [leave_eq_adjust] at after
  rw [leave_eq_adjust, leave_eq_adjust]
  refine Pool.adjust_without fun s found => ?_
  have other : gapIn gap key.generation ≠ some key.waiter := fun same => apart s found (gapIn_eq_some.mp same)
  have found : p.slot? key.generation = some s := found
  refine Slot.leave_without (clear.unhanded _ s found) other (after.unhanded key.generation _ ?_)
  rw [Pool.slot?_adjust, found, Option.map_some, if_pos rfl]

theorem resumeQueued_without (clear : p.Clear lost gap) {ticket : LeaseTicket} {deadline : Nat}
    (apart : ∀ s, p.slot? key.generation = some s → gap ≠ some key)
    (after : (resumeQueued p now ticket key deadline).1.Clear lost gap) :
    (resumeQueued (p.without lost gap) now (reticket lost ticket) (key.closeUp gap) deadline).1 =
        (resumeQueued p now ticket key deadline).1.without lost gap ∧
      (resumeQueued (p.without lost gap) now (reticket lost ticket) (key.closeUp gap) deadline).2.2 =
        (resumeQueued p now ticket key deadline).2.2.without lost gap := by
  have found' : (p.without lost gap).slot? (key.closeUp gap).generation = _ :=
    Pool.slot?_without p lost gap key.generation
  cases found : p.slot? key.generation with
  | none =>
    rw [found] at found'
    simp only [resumeQueued, found, found', Option.map_none]
    exact ⟨trivial, rfl⟩
  | some s =>
    rw [found, Option.map_some] at found'
    have other : gapIn gap key.generation ≠ some key.waiter := fun same => apart s found (gapIn_eq_some.mp same)
    have claims : (s.without lost (gapIn gap key.generation)).claim (key.closeUp gap).waiter
        (reticket lost ticket).leaseId = _ :=
      Slot.claim_without (clear.unhanded _ s found) other
    have waits : ((s.without lost (gapIn gap key.generation)).waiters.any fun x => x.id = (key.closeUp gap).waiter) =
        s.waiters.any fun x => x.id = key.waiter := Slot.any_queueWithout other s.waiters
    cases claimed : s.claim key.waiter ticket.leaseId with
    | some taken =>
      rw [claimed] at claims
      simp only [resumeQueued, found, found', claims, claimed, Option.map_some, paced_without, and_true]
      exact Pool.put_without p lost gap _ _
    | none =>
      rw [claimed] at claims
      simp only [resumeQueued, found, found', claims, claimed, Option.map_none, waits] at after ⊢
      by_cases stays : s.waiters.any (·.id = key.waiter) ∧ now < deadline
      · rw [if_pos stays, if_pos stays]
        exact ⟨rfl, rfl⟩
      · rw [if_neg stays] at after ⊢
        rw [if_neg stays]
        exact ⟨leave_without clear apart after, rfl⟩

theorem resume_without {a : Acquisition} (clear : p.Clear lost gap)
    (begun : ∀ transport timeout, a ≠ .requested transport timeout)
    (apart : ∀ ticket key deadline s, a = .queued ticket key deadline → p.slot? key.generation = some s →
      gap ≠ some key)
    (after : (a.resume p now).1.Clear lost gap) :
    ((a.without lost gap).resume (p.without lost gap) now).1 = (a.resume p now).1.without lost gap ∧
      ((a.without lost gap).resume (p.without lost gap) now).2.2 = (a.resume p now).2.2.without lost gap := by
  cases a with
  | requested transport timeout => exact absurd rfl (begun transport timeout)
  | queued ticket key deadline => exact resumeQueued_without clear (apart ticket key deadline · rfl) after
  | pacing ticket grant => exact ⟨rfl, (paced_without lost gap ticket grant now).symm⟩
  | granted ticket instant => exact ⟨rfl, rfl⟩
  | failed fault => exact ⟨rfl, rfl⟩

theorem cancel_without {a : Acquisition} (numbered : p.Numbered) (clear : p.Clear lost gap)
    (apart : ∀ ticket key deadline s, a = .queued ticket key deadline → p.slot? key.generation = some s →
      gap ≠ some key)
    (own : ∀ ticket, a.lease? = some ticket → lost ≠ ticket.leaseId) (after : (a.cancel p now).1.Clear lost gap) :
    ((a.without lost gap).cancel (p.without lost gap) now).1 = (a.cancel p now).1.without lost gap := by
  cases a with
  | queued ticket key deadline => exact leave_without clear (apart ticket key deadline · rfl) after
  | pacing ticket grant => exact Pool.release_without numbered clear (own ticket rfl) after
  | granted ticket instant => exact Pool.release_without numbered clear (own ticket rfl) after
  | requested transport timeout => rfl
  | failed fault => rfl

end Acquisition

/-! ### Traffic -/

/-- Where a number is found again that has moved up. -/
def reopen (lost n : Nat) : Nat := if n < lost then n else n + 1

theorem reopen_ne (lost n : Nat) : reopen lost n ≠ lost := by
  unfold reopen
  split <;> omega

theorem reopen_eq_iff {lost n call : Nat} (apart : lost ≠ call) :
    reopen lost n = call ↔ n = closeUp (some lost) call := by
  simp only [reopen, closeUp]
  split
  · split <;> omega
  · split <;> omega

theorem reopen_closeUp {lost call : Nat} (apart : lost ≠ call) : reopen lost (closeUp (some lost) call) = call :=
  (reopen_eq_iff apart).mpr rfl

/-- A move when a call is not made and its lease is not given out; the moves of the call are left out. The next lease
is that of an acquisition that begins. -/
def Move.without? (lost next : Nat) : Move → Option Move
  | acquire transport timeout => if next = lost then none else some (acquire transport timeout)
  | resume call => if call = lost then none else some (resume (closeUp (some lost) call))
  | hangUp call cause => if call = lost then none else some (hangUp (closeUp (some lost) call) cause)
  | timeOut call => if call = lost then none else some (timeOut (closeUp (some lost) call))
  | cancel call => if call = lost then none else some (cancel (closeUp (some lost) call))
  | detach call => if call = lost then none else some (detach (closeUp (some lost) call))
  | release transport lease =>
    if lease = lost then none else some (release transport (closeUp (some lost) lease))
  | move => some move

namespace Traffic

def without (t : Traffic) (lost : Nat) (gap : Option WaitKey) : Traffic :=
  ⟨t.pool.without lost gap, fun n => (t.calls (reopen lost n)).map (·.without lost gap)⟩

/-- What is known of the traffic when the place is that of one acquisition. -/
structure Parted (t : Traffic) (lost : Nat) (gap : Option WaitKey) : Prop where
  sound : t.Sound
  clear : t.pool.Clear lost gap
  busy : ∀ n s, t.pool.slot? n = some s → s.Busy ∧ 0 < s.capacity
  opened : ∀ key, gap = some key → key.generation < t.pool.nextGeneration
  issued : ∀ n s, t.pool.slot? n = some s → gapIn gap n ≠ some s.nextWaiter
  /-- The others wait elsewhere. -/
  apart : ∀ call ticket key deadline s, call ≠ lost → t.calls call = some (.queued ticket key deadline) →
    t.pool.slot? key.generation = some s → gap ≠ some key
  /-- The others have other leases. -/
  own : ∀ call a ticket, t.calls call = some a → a.lease? = some ticket → ticket.leaseId = call

variable {t : Traffic} {lost now call : Nat} {gap : Option WaitKey}

theorem calls_without (t : Traffic) (gap : Option WaitKey) (apart : lost ≠ call) :
    (t.without lost gap).calls (closeUp (some lost) call) = (t.calls call).map (·.without lost gap) := by
  simp only [without, reopen_closeUp apart]

theorem keep_without (t : Traffic) (p : Pool) (apart : lost ≠ call) (a : Option Acquisition) :
    (t.without lost gap).keep (p.without lost gap) (closeUp (some lost) call) (a.map (·.without lost gap)) =
      (t.keep p call a).without lost gap := by
  simp only [keep, without, Traffic.mk.injEq, true_and]
  funext n
  by_cases same : n = closeUp (some lost) call
  · rw [if_pos same, if_pos ((reopen_eq_iff apart).mpr same)]
  · rw [if_neg same, if_neg (mt (reopen_eq_iff apart).mp same)]

/-- Every move of the others goes as it would go without the acquisition. -/
theorem step_without (h : t.Parted lost gap) {move move' : Move}
    (kept : move.without? lost t.pool.nextLease = some move') (after : (t.step now move).pool.Clear lost gap) :
    (t.without lost gap).step now move' = (t.step now move).without lost gap := by
  have other {n : Nat} {m : Move} (kept : (if n = lost then none else some m) = some move') :
      lost ≠ n ∧ m = move' := by
    split at kept
    · cases kept
    next apart =>
      cases kept
      exact ⟨fun same => apart same.symm, rfl⟩
  cases move with
  | acquire transport timeout =>
    obtain ⟨apart, rfl⟩ := other kept
    have begins := Acquisition.start_without (fun n s found => (h.busy n s found).1) h.sound.numbered h.issued apart
      transport timeout now
    have pool : (t.without lost gap).pool = t.pool.without lost gap := rfl
    simp only [step, pool, begins]
    exact t.keep_without _ apart (some _)
  | resume call =>
    obtain ⟨apart, rfl⟩ := other kept
    cases present : t.calls call with
    | none => simp only [step, calls_without t gap apart, present, Option.map_none]
    | some a =>
      have present' : (t.without lost gap).calls (closeUp (some lost) call) = some (a.without lost gap) := by
        rw [calls_without t gap apart, present, Option.map_some]
      by_cases begun : ∀ transport timeout, a ≠ .requested transport timeout
      · have begun' : ∀ transport timeout, a.without lost gap ≠ .requested transport timeout := by
          intro transport timeout same
          cases a with
          | requested transport timeout => exact begun transport timeout rfl
          | _ => cases same
        rw [step_resume present begun] at after ⊢
        obtain ⟨pool, next⟩ := Acquisition.resume_without h.clear begun
          (fun _ _ _ s same => h.apart call _ _ _ s (Ne.symm apart) (same ▸ present)) after
        rw [step_resume present' begun', ← keep_without t _ apart, ← pool, Option.map_some, ← next]
        rfl
      · simp only [not_forall, not_not] at begun
        obtain ⟨transport, timeout, rfl⟩ := begun
        simp only [step, present, present', Acquisition.without]
  | hangUp call cause =>
    obtain ⟨apart, rfl⟩ := other kept
    have here := t.calls_without gap apart
    simp only [step, here]
    cases present : t.calls call with
    | none => rfl
    | some a =>
      cases a with
      | queued ticket key deadline =>
        simp only [Option.map_some, Acquisition.without]
        split
        · rfl
        · simp only [without, Traffic.mk.injEq, and_true]
          refine Pool.adjust_without fun s found => Slot.hangUp_without fun same => ?_
          exact h.apart call ticket key deadline s (Ne.symm apart) present found (gapIn_eq_some.mp same)
      | _ => rfl
  | timeOut call =>
    obtain ⟨apart, rfl⟩ := other kept
    have here := t.calls_without gap apart
    simp only [step, here] at after ⊢
    cases present : t.calls call with
    | none => rfl
    | some a =>
      cases a with
      | queued ticket key deadline =>
        rw [present] at after
        simp only [Option.map_some, Acquisition.without] at after ⊢
        by_cases early : now < deadline
        · rw [if_pos early, if_pos early]
        · rw [if_neg early] at after ⊢
          rw [if_neg early, ← keep_without t _ apart,
            ← Acquisition.leave_without h.clear (h.apart call ticket key deadline · (Ne.symm apart) present) after]
          rfl
      | _ => rfl
  | cancel call =>
    obtain ⟨apart, rfl⟩ := other kept
    have here := t.calls_without gap apart
    simp only [step, here] at after ⊢
    cases present : t.calls call with
    | none => rfl
    | some a =>
      rw [present] at after
      have pool := Acquisition.cancel_without h.sound.numbered h.clear
        (fun _ _ _ s same => h.apart call _ _ _ s (Ne.symm apart) (same ▸ present))
        (fun ticket holds same => apart (same.trans (h.own call a ticket present holds))) after
      simp only [Option.map_some]
      rw [← keep_without t _ apart, ← pool]
      rfl
  | detach call =>
    obtain ⟨apart, rfl⟩ := other kept
    have here := t.calls_without gap apart
    simp only [step, here]
    cases present : t.calls call with
    | none => rfl
    | some a =>
      cases a with
      | granted ticket instant => exact t.keep_without _ apart none
      | _ => rfl
  | release transport lease =>
    obtain ⟨apart, rfl⟩ := other kept
    simp only [step, without, Traffic.mk.injEq, and_true]
    exact Pool.release_without h.sound.numbered h.clear apart after
  | reclaim maxHold =>
    cases kept
    simp only [step, without, Traffic.mk.injEq, and_true]
    exact Pool.reclaim_without h.sound.numbered h.clear after
  | configure transport limits =>
    cases kept
    simp only [step, without, Traffic.mk.injEq, and_true]
    exact Pool.configure_without h.sound.numbered (fun v same => Nat.lt_irrefl _ (h.opened _ same)) after
  | retain keep =>
    cases kept
    simp only [step, without, Traffic.mk.injEq, and_true]
    exact Pool.retain_without h.sound.numbered h.busy keep

end Traffic

end RelayRamp.Lease
