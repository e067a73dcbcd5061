import RelayRamp.Proofs.Lease.Order
import RelayRamp.Proofs.Lease.Outstanding

/-!
# Arrivals at a pool

A lease pool with the record of the callers of each generation. `Diary.Sound` ties the acquisitions to the
record: one that waits is in it under its number in the queue, and one that holds a lease or returned with it
has a grant reserved there and does not return before that instant. Every run preserves it, so the acquisitions
of a transport are granted in the order in which they entered, with the spacing that was in force, whatever
order they are taken up in.
-/
namespace RelayRamp.Lease

open RelayRamp.Admission RelayRamp.Routing Caller

structure Diary where
  traffic : Traffic
  /-- The callers of a generation in order of arrival. -/
  callers : Nat → List Caller

namespace Diary

def empty : Diary := ⟨.empty, fun _ => []⟩

def step (d : Diary) (now : Nat) (move : Move) : Diary where
  traffic := d.traffic.step now move
  callers n :=
    match d.traffic.pool.slot? n, d.traffic.operation? now move n with
    | some s, some op => s.register now op (d.callers n)
    | _, _ => d.callers n

def run (d : Diary) : List (Nat × Move) → Diary
  | [] => d
  | (now, move) :: rest => (d.step now move).run rest

/-- The record follows the traffic and does not change it. -/
theorem run_traffic (d : Diary) (moves : List (Nat × Move)) :
    (d.run moves).traffic = d.traffic.run moves := by
  induction moves generalizing d with
  | nil => rfl
  | cons head rest ih => exact ih _

end Diary

/-- It holds a lease with this grant instant, or returned with it no earlier. -/
def Acquisition.HeldFrom (grant : Nat) : Acquisition → Prop
  | .pacing _ instant => instant = grant
  | .granted _ instant => grant ≤ instant
  | .requested .. | .queued .. | .failed _ => False

theorem Acquisition.paced_heldFrom (ticket : LeaseTicket) (grant now : Nat) :
    (paced ticket grant now).HeldFrom grant := by
  unfold paced
  split
  next reached => exact reached
  next => rfl

namespace Diary

/-- The caller of an acquisition has a grant reserved that the acquisition keeps to. -/
def Holds (d : Diary) (call : Nat) (a : Acquisition) : Prop :=
  ∃ n, ∃ c ∈ d.callers n, c.lease = call ∧ ∃ grant delay, c.fate = .promised grant delay ∧ a.HeldFrom grant

structure Sound (d : Diary) : Prop where
  traffic : d.traffic.Sound
  registered : ∀ n s, d.traffic.pool.slot? n = some s → Registered s (d.callers n)
  spaced : ∀ n, (d.callers n).Pairwise Before
  arrivals : ∀ n, ((d.callers n).map (·.lease)).Pairwise (· < ·)
  issued : ∀ n, ∀ lease ∈ (d.callers n).map (·.lease), lease < d.traffic.pool.nextLease
  /-- An acquisition enters one generation only. -/
  once : ∀ n m lease, lease ∈ (d.callers n).map (·.lease) → lease ∈ (d.callers m).map (·.lease) → n = m
  unopened : ∀ n, d.traffic.pool.nextGeneration ≤ n → d.callers n = []
  queued : ∀ call ticket key deadline, d.traffic.calls call = some (.queued ticket key deadline) →
    ∃ c ∈ d.callers key.generation, c.lease = call ∧ c.waiter = some key.waiter ∧ c.deadline = deadline
  held : ∀ call a, d.traffic.calls call = some a → a.lease? ≠ none → d.Holds call a

theorem empty_sound : empty.Sound where
  traffic := Traffic.empty_sound
  registered := by simp [empty, Traffic.empty, Pool.empty, Pool.slot?]
  spaced := fun _ => List.Pairwise.nil
  arrivals := fun _ => List.Pairwise.nil
  issued := by simp [empty]
  once := by simp [empty]
  unopened := fun _ _ => rfl
  queued := by simp [empty, Traffic.empty]
  held := by simp [empty, Traffic.empty]

variable {d : Diary}

/-- The record of a generation changes only with an operation on it. -/
theorem callers_step (d : Diary) (now : Nat) (move : Move) (n : Nat) :
    (d.step now move).callers n = d.callers n ∧
        (d.traffic.pool.slot? n = none ∨ d.traffic.operation? now move n = none) ∨
      ∃ s op, d.traffic.pool.slot? n = some s ∧ d.traffic.operation? now move n = some op ∧
        (d.step now move).callers n = s.register now op (d.callers n) := by
  simp only [step]
  cases found : d.traffic.pool.slot? n with
  | none => exact Or.inl ⟨rfl, Or.inl rfl⟩
  | some s =>
    cases performed : d.traffic.operation? now move n with
    | none => exact Or.inl ⟨rfl, Or.inr rfl⟩
    | some op => exact Or.inr ⟨s, op, rfl, rfl, rfl⟩

theorem callers_follow (d : Diary) (now : Nat) (move : Move) {n : Nat} {c : Caller}
    (member : c ∈ d.callers n) : ∃ c' ∈ (d.step now move).callers n, c.Follows c' := by
  rcases callers_step d now move n with ⟨same, -⟩ | ⟨s, op, -, -, changed⟩
  · exact ⟨c, same ▸ member, Follows.refl c⟩
  · rw [changed]
    exact s.register_follows now op member


/-- A number in the queue is that of one caller. -/
theorem waiter_unique {s : Slot} {callers : List Caller} (h : Registered s callers) {a b : Caller}
    (here : a ∈ callers) (there : b ∈ callers) {w : Nat} (number : a.waiter = some w)
    (number' : b.waiter = some w) : a = b := by
  have distinct : callers.Pairwise fun a b => ∀ v, a.waiter = some v → b.waiter = some v → a = b :=
    h.numbered.imp fun less v mine other => absurd (less v v mine other) (Nat.lt_irrefl v)
  have flipped := distinct.imp fun same v other mine => (same v mine other).symm
  exact distinct.forall_of_forall_of_flip (fun _ _ _ _ _ => rfl) flipped here there w number number'

/-- The caller of an acquisition that waits. -/
theorem Sound.caller_of_queued (h : d.Sound) {call : Nat} {ticket : LeaseTicket} {key : WaitKey}
    {deadline : Nat} (waits : d.traffic.calls call = some (.queued ticket key deadline)) {s : Slot}
    (found : d.traffic.pool.slot? key.generation = some s) {c : Caller}
    (member : c ∈ d.callers key.generation) (number : c.waiter = some key.waiter) :
    c.lease = call ∧ c.deadline = deadline := by
  obtain ⟨c', member', lease, number', due⟩ := h.queued call ticket key deadline waits
  have same := waiter_unique (h.registered _ s found) member member' number number'
  exact ⟨same ▸ lease, same ▸ due⟩

/-- What a move does fits the record. -/
theorem Sound.fits (h : d.Sound) {now n : Nat} {move : Move} {op : Operation} {s : Slot}
    (found : d.traffic.pool.slot? n = some s) (performed : d.traffic.Performs now n move op) :
    op.Fits now (d.callers n) := by
  cases performed with
  | claim waits place =>
    subst place
    intro c member number
    rw [h.traffic.tickets _ _ _ _ waits]
    exact (h.caller_of_queued waits found member number).1
  | hangUp waits place due =>
    subst place
    intro expired c member number _
    rw [(h.caller_of_queued waits found member number).2]
    exact due expired
  | giveUp waits place due =>
    subst place
    intro _ c member number waiting
    obtain ⟨w, queued, -, number', -⟩ := (h.registered _ s found).awaited c member waiting
    rw [number] at number'
    rw [(h.caller_of_queued waits found member number).2]
    exact due s found (Option.some.inj number' ▸ List.mem_map_of_mem queued)
  | timeOut waits place due =>
    subst place
    intro _ c member number _
    rw [(h.caller_of_queued waits found member number).2]
    exact due
  | cancel waits place =>
    intro expired
    cases expired
  | _ => exact trivial

theorem registered_step (h : d.Sound) (now : Nat) (move : Move) (n : Nat) (s' : Slot)
    (found' : (d.step now move).traffic.pool.slot? n = some s') :
    Registered s' ((d.step now move).callers n) := by
  rcases Traffic.slot?_step h.traffic.numbered now move n with same | ⟨_, _, -, -, -, gone⟩ |
    ⟨transport, limits, -, absent, last, fresh⟩
  · change (d.traffic.step now move).pool.slot? n = some s' at found'
    rw [found'] at same
    obtain ⟨s, found, rfl⟩ := Option.map_eq_some_iff.mp same.symm
    rcases callers_step d now move n with ⟨unchanged, absent | idle⟩ | ⟨s₀, op, found₀, performed, changed⟩
    · rw [found] at absent
      cases absent
    · rw [unchanged, idle]
      exact h.registered n s found
    · rw [found] at found₀
      cases found₀
      rw [changed, performed]
      exact step_registered (h.registered n s found) now op (h.fits found (Traffic.performs performed))
  · change (d.traffic.step now move).pool.slot? n = some s' at found'
    rw [gone] at found'
    cases found'
  · change (d.traffic.step now move).pool.slot? n = some s' at found'
    rw [fresh] at found'
    cases found'
    rcases callers_step d now move n with ⟨unchanged, -⟩ | ⟨s₀, op, found₀, -⟩
    · rw [unchanged, h.unopened n (Nat.le_of_eq last.symm)]
      exact fresh_registered limits
    · rw [absent] at found₀
      cases found₀

theorem spaced_step (h : d.Sound) (now : Nat) (move : Move) (n : Nat) :
    ((d.step now move).callers n).Pairwise Before := by
  rcases callers_step d now move n with ⟨unchanged, -⟩ | ⟨s, op, found, performed, changed⟩
  · exact unchanged ▸ h.spaced n
  · rw [changed]
    exact (step_registered (h.registered n s found) now op (h.fits found (Traffic.performs performed))).spaced

/-- A move adds a caller to a record only for an acquisition that begins on its transport. -/
theorem leases_step (d : Diary) (now : Nat) (move : Move) (n : Nat) :
    ((d.step now move).callers n).map (·.lease) = (d.callers n).map (·.lease) ∨
      ((d.step now move).callers n).map (·.lease) =
          (d.callers n).map (·.lease) ++ [d.traffic.pool.nextLease] ∧
        ∃ transport timeout g, move = .acquire transport timeout ∧
          d.traffic.pool.find? transport = some g ∧ n = g.number := by
  rcases callers_step d now move n with ⟨unchanged, -⟩ | ⟨s, op, found, performed, changed⟩
  · exact Or.inl (by rw [unchanged])
  · rw [changed, Slot.register_leases]
    cases Traffic.performs performed with
    | @enter transport timeout g present place =>
      exact Or.inr ⟨rfl, transport, timeout, g, rfl, present, place⟩
    | _ => exact Or.inl (List.append_nil _)

theorem arrivals_step (h : d.Sound) (now : Nat) (move : Move) (n : Nat) :
    (((d.step now move).callers n).map (·.lease)).Pairwise (· < ·) := by
  rcases leases_step d now move n with same | ⟨more, -⟩
  · exact same ▸ h.arrivals n
  · rw [more]
    exact pairwise_snoc (h.arrivals n) (h.issued n)

theorem issued_step (h : d.Sound) (now : Nat) (move : Move) (n lease : Nat)
    (member : lease ∈ ((d.step now move).callers n).map (·.lease)) :
    lease < (d.step now move).traffic.pool.nextLease := by
  have grows : d.traffic.pool.nextLease ≤ (d.step now move).traffic.pool.nextLease :=
    Traffic.nextLease_le d.traffic now move
  rcases leases_step d now move n with same | ⟨more, transport, timeout, _, rfl, -, -⟩
  · exact Nat.lt_of_lt_of_le (h.issued n lease (same ▸ member)) grows
  · rw [more] at member
    rcases List.mem_append.mp member with old | new
    · exact Nat.lt_of_lt_of_le (h.issued n lease old) grows
    · rcases Traffic.nextLease_step d.traffic now (.acquire transport timeout) with
        ⟨other, -⟩ | ⟨_, _, -, next⟩
      · exact absurd rfl (other transport timeout)
      · rw [List.mem_singleton.mp new]
        exact next ▸ Nat.lt_succ_self _

theorem once_step (h : d.Sound) (now : Nat) (move : Move) (n m lease : Nat)
    (here : lease ∈ ((d.step now move).callers n).map (·.lease))
    (there : lease ∈ ((d.step now move).callers m).map (·.lease)) : n = m := by
  have unissued : ∀ k, d.traffic.pool.nextLease ∉ (d.callers k).map (·.lease) :=
    fun k member => Nat.lt_irrefl _ (h.issued k _ member)
  rcases leases_step d now move n with same | ⟨more, _, _, g, rfl, found, place⟩
  · rw [same] at here
    rcases leases_step d now move m with same' | ⟨more', -⟩
    · exact h.once n m lease here (same' ▸ there)
    · rw [more'] at there
      rcases List.mem_append.mp there with old | new
      · exact h.once n m lease here old
      · exact absurd (List.mem_singleton.mp new ▸ here) (unissued n)
  · rw [more] at here
    rcases leases_step d now (.acquire _ _) m with same' | ⟨more', _, _, g', begins, found', place'⟩
    · rw [same'] at there
      rcases List.mem_append.mp here with old | new
      · exact h.once n m lease old there
      · exact absurd (List.mem_singleton.mp new ▸ there) (unissued m)
    · cases begins
      rw [found] at found'
      cases found'
      exact place.trans place'.symm

theorem unopened_step (h : d.Sound) (now : Nat) (move : Move) (n : Nat)
    (new : (d.step now move).traffic.pool.nextGeneration ≤ n) : (d.step now move).callers n = [] := by
  have old : d.traffic.pool.nextGeneration ≤ n :=
    Nat.le_trans (Traffic.nextGeneration_le h.traffic.numbered now move) new
  rcases callers_step d now move n with ⟨unchanged, -⟩ | ⟨s, op, found, -⟩
  · rw [unchanged]
    exact h.unopened n old
  · have issued := Pool.slot?_issued h.traffic.numbered found
    omega

/-- An acquisition that enters is written down last. -/
theorem callers_acquire (h : d.Sound) {transport : TransportName} {g : Generation}
    (found : d.traffic.pool.find? transport = some g) (timeout now : Nat) :
    (d.step now (.acquire transport timeout)).callers g.number =
      d.callers g.number ++ [g.slot.enrol now d.traffic.pool.nextLease (now + timeout)] := by
  simp only [step, Pool.slot?_of_find? h.traffic.numbered found, Traffic.operation?, Traffic.onTransport,
    found, if_true]
  rfl

theorem queued_step (h : d.Sound) (now : Nat) (move : Move) (call : Nat) (ticket : LeaseTicket)
    (key : WaitKey) (deadline : Nat)
    (waits : (d.step now move).traffic.calls call = some (.queued ticket key deadline)) :
    ∃ c ∈ (d.step now move).callers key.generation,
      c.lease = call ∧ c.waiter = some key.waiter ∧ c.deadline = deadline := by
  rcases Traffic.queued_step waits with ⟨waited, -⟩ |
    ⟨transport, timeout, g, rfl, rfl, -, found, place, rfl, entry⟩
  · obtain ⟨c, member, lease, number, due⟩ := h.queued call ticket key deadline waited
    obtain ⟨c', member', lease', due', number', -⟩ := callers_follow d now move member
    exact ⟨c', member', lease'.trans lease, number'.trans number, due'.trans due⟩
  · refine ⟨g.slot.enrol now d.traffic.pool.nextLease (now + timeout), ?_, ?_⟩
    · rw [place, callers_acquire h found]
      exact mem_snoc_iff.mpr (Or.inr rfl)
    · simp only [Slot.enrol, entry, and_self]

theorem Holds.step {call : Nat} {a : Acquisition} (held : d.Holds call a) (now : Nat) (move : Move) :
    (d.step now move).Holds call a := by
  obtain ⟨n, c, member, lease, grant, delay, fate, from_⟩ := held
  obtain ⟨c', member', lease', -, -, fate'⟩ := callers_follow d now move member
  have decided : c'.fate = c.fate := fate' (by simp [fate])
  exact ⟨n, c', member', lease'.trans lease, grant, delay, decided.trans fate, from_⟩

/-- A claimed slot comes with the grant instant that was reserved for the acquisition. -/
theorem Sound.holds_claimed (h : d.Sound) {call : Nat} {ticket : LeaseTicket} {key : WaitKey}
    {deadline : Nat} (waits : d.traffic.calls call = some (.queued ticket key deadline)) {s s' : Slot}
    {grant : Nat} (found : d.traffic.pool.slot? key.generation = some s)
    (claimed : s.claim key.waiter ticket.leaseId = some (s', grant)) (now : Nat) :
    d.Holds call (.paced ticket grant now) := by
  rcases Slot.claim_cases s key.waiter ticket.leaseId with ⟨given, pending, -, taken⟩ | ⟨-, missing⟩
  · rw [taken] at claimed
    cases claimed
    obtain ⟨c, member, number, delay, fate⟩ := (h.registered _ s found).handed _ pending
    exact ⟨key.generation, c, member, (h.caller_of_queued waits found member number).1, grant, delay, fate,
      Acquisition.paced_heldFrom ticket grant now⟩
  · rw [missing] at claimed
    cases claimed

theorem holds_step (h : d.Sound) (now : Nat) (move : Move) (call : Nat) (a : Acquisition)
    (present : (d.step now move).traffic.calls call = some a) (holds : a.lease? ≠ none) :
    (d.step now move).Holds call a := by
  obtain ⟨ticket, holds⟩ := Option.ne_none_iff_exists'.mp holds
  rcases Traffic.in_hand_step present holds with ⟨old, waits, holds', rfl | ⟨grant, rfl, rfl⟩⟩ |
    ⟨transport, timeout, g, grant, rfl, rfl, rfl, found, granted, rfl⟩ |
    ⟨key, deadline, s, s', grant, rfl, waits, found, claimed, rfl⟩
  · exact (h.held call a waits (by simp [holds])).step now move
  · obtain ⟨n, c, member, lease, reserved, delay, fate, from_⟩ := h.held call _ waits (by simp [holds'])
    have same : grant = reserved := from_
    subst same
    have kept : d.Holds call (.paced ticket grant now) :=
      ⟨n, c, member, lease, grant, delay, fate, Acquisition.paced_heldFrom ticket grant now⟩
    exact kept.step now move
  · refine ⟨g.number, g.slot.enrol now d.traffic.pool.nextLease (now + timeout), ?_,
      (g.slot.enrol_lease now _ _).1, grant, g.slot.rateDelay, ?_, Acquisition.paced_heldFrom _ grant now⟩
    · rw [callers_acquire h found]
      exact mem_snoc_iff.mpr (Or.inr rfl)
    · simp only [Slot.enrol, granted]
  · exact (h.holds_claimed waits found claimed now).step now (.resume call)

theorem sound_step (h : d.Sound) (now : Nat) (move : Move) : (d.step now move).Sound where
  traffic := Traffic.sound_step h.traffic now move
  registered := registered_step h now move
  spaced := spaced_step h now move
  arrivals := arrivals_step h now move
  issued := issued_step h now move
  once := once_step h now move
  unopened := unopened_step h now move
  queued := queued_step h now move
  held := holds_step h now move

theorem run_sound (moves : List (Nat × Move)) : (empty.run moves).Sound := by
  suffices kept : ∀ d : Diary, d.Sound → (d.run moves).Sound from kept empty empty_sound
  induction moves with
  | nil => exact fun _ h => h
  | cons head rest ih => exact fun d h => ih _ (sound_step h head.1 head.2)

/-- The last grant of a generation never goes back. -/
theorem lastGrant_step (h : d.Sound) {now n : Nat} {move : Move} {s s' : Slot}
    (found : d.traffic.pool.slot? n = some s)
    (found' : (d.step now move).traffic.pool.slot? n = some s') : s.GrantsOn s' := by
  rw [Traffic.slot?_both h.traffic.numbered found found']
  cases d.traffic.operation? now move n with
  | none => exact .of_eq rfl
  | some op => exact s.step_grantsOn now op

/-- How a move that leads to the slots brings a fate: a grant is reserved with the rate delay in force, a caller
is late only when the earliest grant is past its deadline, and it gives up by a move of its own acquisition,
out of time only at its deadline. -/
def Decided (s : Slot) (now : Nat) (move : Move) (c : Caller) : Prop :=
  match c.fate with
  | .waiting => ∃ transport timeout, move = .acquire transport timeout
  | .promised _ delay => delay = s.rateDelay
  | .late earliest => c.deadline < earliest ∧ earliest ≤ s.nextGrant now
  | .gone .cancelled instant =>
    instant = now ∧ (move = .cancel c.lease ∨ move = .hangUp c.lease .cancelled)
  | .gone .expired instant =>
    instant = now ∧ c.deadline ≤ now ∧
      (move = .hangUp c.lease .expired ∨ move = .timeOut c.lease ∨ move = .resume c.lease)

theorem decided_step (h : d.Sound) {now n : Nat} {move : Move} {s' : Slot}
    (found' : (d.step now move).traffic.pool.slot? n = some s') {c : Caller}
    (member : c ∈ (d.step now move).callers n) (new : c ∉ d.callers n) :
    Decided s' now move c := by
  rcases callers_step d now move n with ⟨unchanged, -⟩ | ⟨s, op, found, performed, changed⟩
  · exact absurd (unchanged ▸ member) new
  · have fair := (registered_step h now move n s' found').decided c member
    have both := Traffic.slot?_both h.traffic.numbered found found'
    have makes := Traffic.performs performed
    rw [performed] at both
    change s' = (s.step now op).1 at both
    subst both
    -- A late caller is past its deadline by the invariant, however it came to be late.
    have late : ∀ earliest, c.fate = .late earliest → earliest ≤ (s.step now op).1.nextGrant now →
        Decided (s.step now op).1 now move c := by
      intro earliest fate bound
      rcases fair with waits | ⟨grant, delay, last, promised, -⟩ | excused
      · simp [fate] at waits
      · simp [fate] at promised
      · have past : c.deadline < earliest := by simpa only [Excused, fate] using excused
        simp only [Decided, fate]
        exact ⟨past, bound⟩
    rw [changed] at member
    rcases Slot.register_changes member with old | ⟨lease, deadline, rfl, same⟩ |
      ⟨waiter, cause, quits, old, inside, number, same⟩ | ⟨grant, promised⟩ | ⟨earliest, past, bound⟩
    · exact absurd old new
    · rcases s.enrol_fate now lease deadline with waits | ⟨grant, promised⟩ | past
      · cases makes with
        | @enter transport timeout g _ _ =>
          rw [← same] at waits
          simp only [Decided, waits]
          exact ⟨transport, timeout, rfl⟩
      · rw [← same] at promised
        simp only [Decided, promised]
        rfl
      · exact late _ (same ▸ past) (Nat.le_refl _)
    · subst same
      have due : cause = .expired → old.deadline ≤ now := by
        rintro rfl
        rcases fair with waits | ⟨grant, delay, last, promised, -⟩ | excused
        · cases waits
        · cases promised
        · exact excused
      have own : ∀ call ticket key deadline, n = key.generation → waiter = key.waiter →
          d.traffic.calls call = some (.queued ticket key deadline) → old.lease = call := by
        rintro call ticket key deadline rfl rfl waits
        exact (h.caller_of_queued waits found inside number).1
      rcases quits with rfl | rfl
      · cases makes with
        | hangUp waits place _ =>
          have mine := own _ _ _ _ place rfl waits
          subst mine
          cases cause with
          | cancelled => exact ⟨rfl, Or.inr rfl⟩
          | expired => exact ⟨rfl, due rfl, Or.inl rfl⟩
      · cases makes with
        | giveUp waits place _ =>
          have mine := own _ _ _ _ place rfl waits
          subst mine
          exact ⟨rfl, due rfl, Or.inr (Or.inr rfl)⟩
        | timeOut waits place _ =>
          have mine := own _ _ _ _ place rfl waits
          subst mine
          exact ⟨rfl, due rfl, Or.inr (Or.inl rfl)⟩
        | cancel waits place =>
          have mine := own _ _ _ _ place rfl waits
          subst mine
          exact ⟨rfl, Or.inl rfl⟩
    · simp only [Decided, promised]
    · exact late earliest past bound

/-- The caller of an acquisition that holds a lease, or returned with it. -/
theorem Sound.promised (h : d.Sound) {n : Nat} {c : Caller} (member : c ∈ d.callers n) {a : Acquisition}
    (present : d.traffic.calls c.lease = some a) (holds : a.lease? ≠ none) :
    ∃ grant delay, c.fate = .promised grant delay ∧ a.HeldFrom grant := by
  obtain ⟨m, c', member', lease, grant, delay, fate, from_⟩ := h.held c.lease a present holds
  have place := h.once n m c.lease (List.mem_map_of_mem member) (lease ▸ List.mem_map_of_mem member')
  subst place
  have nodup : ((d.callers n).map (·.lease)).Nodup := (h.arrivals n).imp fun less => Nat.ne_of_lt less
  have same := List.inj_on_of_nodup_map nodup member' member lease
  subst same
  exact ⟨grant, delay, fate, from_⟩

/-- In every state of every run, with the callers of a generation in the order in which they entered: the grant
of a later caller is at least the rate delay in force when it was reserved after the grant of an earlier one,
and a later caller has a grant only if each earlier one has a grant or an excuse. The grants are those of the
outstanding leases, and no acquisition returns before its own. Each further move writes a caller that enters
last, decides fates as `Decided` says, and does not set the last grant back. -/
theorem grants_follow_arrivals (moves : List (Nat × Move)) (n : Nat) :
    let d := empty.run moves
    d.traffic = Traffic.empty.run moves ∧
    (d.callers n).Pairwise (fun a b => a.lease < b.lease ∧
      (∀ earlier inForce grant delay, a.fate = .promised earlier inForce →
        b.fate = .promised grant delay → earlier + delay ≤ grant) ∧
      (∀ grant delay, b.fate = .promised grant delay →
        (∃ earlier inForce, a.fate = .promised earlier inForce) ∨ a.Excused)) ∧
    (∀ s, d.traffic.pool.slot? n = some s → ∀ entry ∈ s.leases,
      ∃ c ∈ d.callers n, c.lease = entry.1 ∧ ∃ delay, c.fate = .promised entry.2 delay) ∧
    (∀ c ∈ d.callers n, ∀ a, d.traffic.calls c.lease = some a → a.lease? ≠ none →
      ∃ grant delay, c.fate = .promised grant delay ∧ a.HeldFrom grant) ∧
    (∀ now transport timeout g, d.traffic.pool.find? transport = some g → g.number = n →
      ∃ c, (d.step now (.acquire transport timeout)).callers n = d.callers n ++ [c] ∧
        c.lease = d.traffic.pool.nextLease ∧ c.deadline = now + timeout) ∧
    (∀ now move s', (d.step now move).traffic.pool.slot? n = some s' →
      (∀ c ∈ (d.step now move).callers n, c ∉ d.callers n → Decided s' now move c) ∧
      (∀ s, d.traffic.pool.slot? n = some s → s.GrantsOn s')) := by
  intro d
  have h : d.Sound := run_sound moves
  refine ⟨run_traffic empty moves, ?_, ?_, ?_, ?_, ?_⟩
  · have order := List.pairwise_map.mp (h.arrivals n)
    refine (order.and (h.spaced n)).imp ?_
    rintro a b ⟨less, before⟩
    refine ⟨less, ?_, ?_⟩
    · intro earlier inForce grant delay here there
      rcases before grant delay there with ⟨earlier', inForce', here', spaced⟩ | excused
      · rw [here] at here'
        cases here'
        exact spaced
      · simp [Excused, here] at excused
    · intro grant delay there
      rcases before grant delay there with ⟨earlier, inForce, here, -⟩ | excused
      · exact Or.inl ⟨earlier, inForce, here⟩
      · exact Or.inr excused
  · intro s found
    exact (h.registered n s found).leases
  · intro c member a present holds
    exact h.promised member present holds
  · rintro now transport timeout g found rfl
    exact ⟨_, callers_acquire h found timeout now, g.slot.enrol_lease now _ _⟩
  · intro now move s' found'
    refine ⟨fun c member new => decided_step h found' member new, fun s found => ?_⟩
    exact lastGrant_step h found found'

/-- Of two callers that wait behind a lease, the first is too late for the spacing when the slot is released and
the second is granted. -/
theorem grants_follow_arrivals_passed :
    let relay : TransportName := ⟨"relay"⟩
    let moves : List (Nat × Move) :=
      [(0, .configure relay ⟨1, 1⟩), (0, .acquire relay 9000), (5, .acquire relay 500),
        (6, .acquire relay 9000), (10, .release relay 1), (11, .resume 3), (12, .resume 2)]
    (empty.run moves).callers 0 =
        [⟨1, 9000, none, .promised 0 1000⟩, ⟨2, 505, some 0, .late 1000⟩,
          ⟨3, 9006, some 1, .promised 1000 1000⟩] ∧
      0 + 1000 ≤ 1000 ∧ Excused ⟨2, 505, some 0, .late 1000⟩ := by
  intro relay moves
  have recorded : (empty.run moves).callers 0 =
      [⟨1, 9000, none, .promised 0 1000⟩, ⟨2, 505, some 0, .late 1000⟩,
        ⟨3, 9006, some 1, .promised 1000 1000⟩] := by decide
  have order := (grants_follow_arrivals moves 0).2.1
  rw [recorded, List.pairwise_cons, List.pairwise_cons] at order
  obtain ⟨first, second, -⟩ := order
  have spaced := (first _ (List.mem_cons_of_mem _ (List.mem_singleton_self _))).2.1
  have passed := (second _ (List.mem_singleton_self _)).2.2
  refine ⟨recorded, spaced 0 1000 1000 1000 rfl rfl, ?_⟩
  rcases passed 1000 1000 rfl with ⟨_, _, promised⟩ | excused
  · cases promised
  · exact excused

end Diary

end RelayRamp.Lease
