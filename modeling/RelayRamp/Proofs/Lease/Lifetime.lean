import Mathlib.Data.List.Induction
import RelayRamp.Proofs.Lease.Release

/-!
# The lifetime of a lease

From the moment it is granted a lease is outstanding on its own transport, until one of three things ends it: its
release there, the drop of its holder, or a reclaim. After that no move brings it back, so that everything else
done with its id is an anomaly. A transport with an outstanding lease stays in the pool.
-/
namespace RelayRamp.Lease

open RelayRamp.Admission RelayRamp.Routing

namespace Traffic

variable {t : Traffic}

/-! ### Outstanding on a transport and in a generation -/

theorem leased_of_found (h : t.pool.Numbered) {transport : TransportName} {g : Generation} {lease : Nat}
    (found : t.pool.find? transport = some g) (held : lease ∈ g.slot.leases.map (·.1)) :
    t.Leased g.number lease :=
  ⟨g.slot, Pool.slot?_of_find? h found, held⟩

theorem Leased.holds (h : t.pool.Numbered) {n lease : Nat} (leased : t.Leased n lease) :
    ∃ transport g, t.pool.find? transport = some g ∧ g.number = n ∧ lease ∈ g.slot.leases.map (·.1) := by
  obtain ⟨s, found, held⟩ := leased
  obtain ⟨transport, member⟩ := Pool.slot?_mem found
  exact ⟨transport, ⟨n, s⟩, Pool.find?_of_mem h member, rfl, held⟩

theorem Sound.holds_unique (h : t.Sound) {transport other : TransportName} {lease : Nat}
    (here : t.pool.Holds transport lease) (there : t.pool.Holds other lease) : transport = other := by
  obtain ⟨g, found, held⟩ := here
  obtain ⟨g', found', held'⟩ := there
  have same := h.leased_once _ _ lease (leased_of_found h.numbered found held)
    (leased_of_found h.numbered found' held')
  exact Pool.name_unique h.numbered found found' same

/-- Slots with a lease are taken. -/
theorem Sound.not_idle (h : t.Sound) {n lease : Nat} {s : Slot} (found : t.pool.slot? n = some s)
    (held : lease ∈ s.leases.map (·.1)) : s.isIdle = false := by
  have balance := (h.slots n s found).balance
  obtain ⟨entry, member, -⟩ := List.mem_map.mp held
  have some_lease := List.length_pos_of_mem member
  have taken : s.occupied ≠ 0 := by omega
  simp [Slot.isIdle, taken]

/-! ### What ends a lease -/

/-- The move ends the lease: by its release, with its holder, or because it is held for too long. -/
inductive FreedBy (t : Traffic) (now lease : Nat) : Move → Prop where
  | released {transport} (held : t.pool.Holds transport lease) : FreedBy t now lease (.release transport lease)
  | dropped {call a ticket} (present : t.calls call = some a) (holds : a.lease? = some ticket)
      (same : ticket.leaseId = lease) (held : t.pool.Holds ticket.transport lease) :
      FreedBy t now lease (.cancel call)
  | reclaimed {maxHold transport g} (found : t.pool.find? transport = some g)
      (expired : lease ∈ g.slot.expired maxHold now) : FreedBy t now lease (.reclaim maxHold)

theorem Sound.freedBy_of_lost (h : t.Sound) {now n lease : Nat} {move : Move} (held : t.Leased n lease)
    (lost : ¬ (t.step now move).Leased n lease) : t.FreedBy now lease move := by
  obtain ⟨transport, g, present, rfl, member⟩ := held.holds h.numbered
  have found := Pool.slot?_of_find? h.numbered present
  rcases slot?_step h.numbered now move g.number with same | ⟨keep, s, -, found', idle, -⟩ |
    ⟨_, _, -, absent, -, -⟩
  · rw [found, Option.map_some] at same
    cases performed : t.operation? now move g.number with
    | none =>
      rw [performed] at same
      exact absurd ⟨g.slot, same, member⟩ lost
    | some op =>
      rw [performed] at same
      have gone : lease ∉ (g.slot.step now op).1.leases.map (·.1) := fun stays => lost ⟨_, same, stays⟩
      rcases Slot.lease_lost member gone with rfl | ⟨maxHold, rfl, expired⟩
      · cases performs performed with
        | @drop call a ticket g' present' holds found' place =>
          have own := Pool.name_unique h.numbered present found' place
          exact .dropped present' holds rfl ⟨g, own ▸ present, member⟩
        | @release name lease' g' found' place =>
          have own := Pool.name_unique h.numbered present found' place
          exact .released ⟨g, own ▸ present, member⟩
      · cases performs performed with
        | reclaim => exact .reclaimed present expired
  · rw [found] at found'
    cases found'
    rw [h.not_idle found member] at idle
    cases idle
  · rw [found] at absent
    cases absent

theorem step_release_gone (s : Slot) (lease now : Nat) :
    lease ∉ (s.step now (.release lease)).1.leases.map (·.1) := by
  simp only [Slot.step, Slot.release_leases, map_key_filter, List.mem_filter]
  rintro ⟨-, other⟩
  simp at other

/-- A move that performs the release of a lease on its generation ends it. -/
theorem Sound.lost_of_release (h : t.Sound) {now n lease : Nat} {move : Move} (held : t.Leased n lease)
    (performed : t.operation? now move n = some (.release lease)) :
    ¬ (t.step now move).Leased n lease := by
  rintro ⟨s', found', member⟩
  obtain ⟨s, found, -⟩ := held
  rw [slot?_both h.numbered found found', performed] at member
  exact step_release_gone s lease now member

theorem Sound.lost_of_freedBy (h : t.Sound) {now n lease : Nat} {move : Move} (held : t.Leased n lease)
    (freed : t.FreedBy now lease move) : ¬ (t.step now move).Leased n lease := by
  have place : ∀ transport g, t.pool.find? transport = some g → lease ∈ g.slot.leases.map (·.1) →
      n = g.number := fun transport g found member =>
    h.leased_once _ _ lease held (leased_of_found h.numbered found member)
  cases freed with
  | released held' =>
    obtain ⟨g, found, member⟩ := held'
    refine h.lost_of_release held ?_
    simp only [operation?, onTransport, found, if_pos (place _ g found member)]
  | @dropped call a ticket present holds same held' =>
    obtain ⟨g, found, member⟩ := held'
    refine h.lost_of_release held ?_
    have here := place _ g found member
    cases a with
    | pacing ticket' grant =>
      cases holds
      simp only [operation?, present, onTransport, found, if_pos here, same]
    | granted ticket' instant =>
      cases holds
      simp only [operation?, present, onTransport, found, if_pos here, same]
    | _ => cases holds
  | @reclaimed maxHold transport g found expired =>
    rintro ⟨s', found', member⟩
    have here := place _ g found (Slot.expired_held expired)
    subst here
    rw [slot?_both h.numbered (Pool.slot?_of_find? h.numbered found) found'] at member
    simp only [operation?, Slot.after, Slot.step, Slot.releaseAll_leases] at member
    obtain ⟨entry, inside, same⟩ := List.mem_map.mp member
    have stays := (List.mem_filter.mp inside).2
    rw [same] at stays
    simp [expired] at stays

/-! ### A lease that has ended -/

/-- The id is used up: it is not outstanding and nobody waits for it. -/
structure Spent (t : Traffic) (lease : Nat) : Prop where
  issued : lease < t.pool.nextLease
  unleased : ∀ n, ¬ t.Leased n lease
  unqueued : ∀ ticket key deadline, t.calls lease ≠ some (.queued ticket key deadline)

theorem Spent.step (h : t.Sound) {lease : Nat} (spent : t.Spent lease) (now : Nat) (move : Move) :
    (t.step now move).Spent lease where
  issued := Nat.lt_of_lt_of_le spent.issued (nextLease_le t now move)
  unleased := by
    intro n held
    rcases leased_step h.numbered held with old | made
    · exact spent.unleased n old
    · cases made with
      | entered found place granted => exact Nat.lt_irrefl _ spent.issued
      | @claimed call ticket key deadline s taken queued place found claimed =>
        have own := h.tickets _ _ _ _ queued
        exact spent.unqueued ticket key deadline (own ▸ queued)
  unqueued := by
    intro ticket key deadline waits
    rcases queued_step waits with ⟨queued, -⟩ | ⟨_, _, _, -, new, -⟩
    · exact spent.unqueued ticket key deadline queued
    · exact Nat.lt_irrefl _ (new ▸ spent.issued)

theorem Spent.run (h : t.Sound) {lease : Nat} (spent : t.Spent lease) (moves : List (Nat × Move)) :
    (t.run moves).Spent lease := by
  induction moves generalizing t with
  | nil => exact spent
  | cons head rest ih => exact ih (sound_step h head.1 head.2) (spent.step h head.1 head.2)

/-- A lease that a move ends is spent. -/
theorem Sound.spent_of_lost (h : t.Sound) {now n lease : Nat} {move : Move} (held : t.Leased n lease)
    (lost : ¬ (t.step now move).Leased n lease) : (t.step now move).Spent lease where
  issued := Nat.lt_of_lt_of_le (h.leased_issued n lease held) (nextLease_le t now move)
  unleased := by
    intro m held'
    rcases leased_step h.numbered held' with old | made
    · exact lost (h.leased_once m n lease old held ▸ held')
    · exact h.makes_new made n held
  unqueued := by
    intro ticket key deadline waits
    rcases queued_step waits with ⟨queued, -⟩ | ⟨_, _, _, -, new, -⟩
    · exact h.queued_unleased lease ticket key deadline n queued held
    · exact h.unleased_next n (new ▸ held)

theorem Spent.unheld (h : t.pool.Numbered) {lease : Nat} (spent : t.Spent lease)
    (transport : TransportName) : ¬ t.pool.Holds transport lease := by
  rintro ⟨g, found, held⟩
  exact spent.unleased g.number (leased_of_found h found held)

/-! ### A lease in hand -/

/-- The generation of a transport in the pool keeps its name. -/
theorem Sound.holds_of_leased (h : t.Sound) {transport : TransportName} {g : Generation} {now lease : Nat}
    {move : Move} (found : t.pool.find? transport = some g) (held : (t.step now move).Leased g.number lease) :
    (t.step now move).pool.Holds transport lease := by
  obtain ⟨other, g', found', same, member⟩ := held.holds (numbered_step h.numbered now move)
  rcases find?_step h.numbered found' with ⟨g'', found'', number⟩ | ⟨limits, -, -, rfl⟩
  · have own := Pool.name_unique h.numbered found found'' (same.symm.trans number.symm)
    exact own ▸ ⟨g', found', member⟩
  · have issued := Pool.slot?_issued h.numbered (Pool.slot?_of_find? h.numbered found)
    exact absurd issued (Nat.not_lt.mpr (Nat.le_of_eq same))

/-- A lease stays outstanding on its transport as long as no move ends it. -/
theorem Sound.holds_step (h : t.Sound) {transport : TransportName} {lease : Nat}
    (held : t.pool.Holds transport lease) (now : Nat) (move : Move) :
    (t.step now move).pool.Holds transport lease ∨ t.FreedBy now lease move := by
  obtain ⟨g, found, member⟩ := held
  have leased := leased_of_found h.numbered found member
  by_cases stays : (t.step now move).Leased g.number lease
  · exact Or.inl (h.holds_of_leased found stays)
  · exact Or.inr (h.freedBy_of_lost leased stays)

/-- Acquisitions are kept under their tickets, and wait at their transports. -/
structure Ticketed (t : Traffic) : Prop where
  opened : ∀ call ticket key deadline, t.calls call = some (.queued ticket key deadline) →
    key.generation < t.pool.nextGeneration
  transport : ∀ call ticket key deadline, t.calls call = some (.queued ticket key deadline) →
    ∀ name g, t.pool.find? name = some g → g.number = key.generation → name = ticket.transport
  own : ∀ call a ticket, t.calls call = some a → a.lease? = some ticket → ticket.leaseId = call

theorem empty_ticketed : empty.Ticketed where
  opened := by simp [empty]
  transport := by simp [empty]
  own := by simp [empty]

/-- A caller that is granted a slot on entry has its lease outstanding. -/
theorem leased_of_granted (h : t.pool.Numbered) {transport : TransportName} {timeout now grant : Nat}
    {g : Generation} (found : t.pool.find? transport = some g)
    (granted : (g.slot.enter now t.pool.nextLease (now + timeout)).2 = .granted grant) :
    (t.step now (.acquire transport timeout)).Leased g.number t.pool.nextLease := by
  refine ⟨(g.slot.enter now t.pool.nextLease (now + timeout)).1, ?_, ?_⟩
  · rw [slot?_acquire h, Pool.slot?_of_find? h found]
    simp only [operation?, onTransport, found, if_true]
    rfl
  · rcases Slot.enter_cases g.slot now t.pool.nextLease (now + timeout) with
      ⟨-, -, -, taken⟩ | ⟨-, -, -, refused⟩ | ⟨-, queued⟩
    · rw [taken, List.map_append]
      exact List.mem_append_right _ (List.mem_singleton_self _)
    · rw [refused] at granted
      cases granted
    · rw [queued] at granted
      cases granted

/-- An acquisition that claims its slot has its lease outstanding. -/
theorem leased_of_claimed {call grant : Nat} {ticket : LeaseTicket} {key : WaitKey} {deadline : Nat}
    (waits : t.calls call = some (.queued ticket key deadline)) {s s' : Slot}
    (found : t.pool.slot? key.generation = some s)
    (claimed : s.claim key.waiter ticket.leaseId = some (s', grant)) (now : Nat) :
    (t.step now (.resume call)).Leased key.generation ticket.leaseId := by
  refine ⟨s', ?_, ?_⟩
  · rw [slot?_resume, found]
    simp [operation?, waits, found, onResume, claimed, Slot.after, Slot.step]
  · rcases Slot.claim_cases s key.waiter ticket.leaseId with ⟨given, -, -, taken⟩ | ⟨-, missing⟩
    · rw [taken] at claimed
      cases claimed
      rw [List.map_append]
      exact List.mem_append_right _ (List.mem_singleton_self _)
    · rw [missing] at claimed
      cases claimed

/-- An acquisition with a lease in hand had it before, or was just granted it on its transport. -/
theorem Ticketed.in_hand (tickets : t.Ticketed) (h : t.Sound) {now call : Nat} {move : Move}
    {a : Acquisition} {ticket : LeaseTicket} (present : (t.step now move).calls call = some a)
    (holds : a.lease? = some ticket) :
    (∃ old, t.calls call = some old ∧ old.lease? = some ticket) ∨
      ticket.leaseId = call ∧ (t.step now move).pool.Holds ticket.transport call := by
  rcases in_hand_step present holds with ⟨old, waits, holds', -⟩ |
    ⟨transport, timeout, g, grant, rfl, rfl, rfl, found, granted, -⟩ |
    ⟨key, deadline, s, s', grant, rfl, waits, found, claimed, -⟩
  · exact Or.inl ⟨old, waits, holds'⟩
  · exact Or.inr ⟨rfl, h.holds_of_leased found (leased_of_granted h.numbered found granted)⟩
  · have own := h.tickets _ _ _ _ waits
    obtain ⟨name, member⟩ := Pool.slot?_mem found
    have there := Pool.find?_of_mem h.numbered member
    have place := tickets.transport _ _ _ _ waits name _ there rfl
    subst place
    have held := h.holds_of_leased there (leased_of_claimed waits found claimed now)
    rw [own] at held
    exact Or.inr ⟨own, held⟩

theorem ticketed_step (h : t.Sound) (tickets : t.Ticketed) (now : Nat) (move : Move) :
    (t.step now move).Ticketed where
  opened := by
    intro call ticket key deadline waits
    have grows := nextGeneration_le h.numbered now move
    rcases queued_step waits with ⟨queued, -⟩ | ⟨_, _, g, -, -, -, found, place, -⟩
    · exact Nat.lt_of_lt_of_le (tickets.opened _ _ _ _ queued) grows
    · rw [place]
      exact Nat.lt_of_lt_of_le (Pool.slot?_issued h.numbered (Pool.slot?_of_find? h.numbered found)) grows
  transport := by
    intro call ticket key deadline waits name g' found' number
    rcases queued_step waits with ⟨queued, -⟩ | ⟨transport, _, g, rfl, -, rfl, found, place, -⟩
    · rcases find?_step h.numbered found' with ⟨g, found, same⟩ | ⟨limits, -, -, rfl⟩
      · exact tickets.transport _ _ _ _ queued name g found (same.trans number)
      · exact absurd (tickets.opened _ _ _ _ queued) (Nat.not_lt.mpr (Nat.le_of_eq number))
    · rcases find?_step h.numbered found' with ⟨g'', found'', same⟩ | ⟨limits, other, -, -⟩
      · exact Pool.name_unique h.numbered found'' found (same.trans (number.trans place))
      · cases other
  own := by
    intro call a ticket present holds
    rcases tickets.in_hand h present holds with ⟨old, waits, holds'⟩ | ⟨own, -⟩
    · exact tickets.own call old ticket waits holds'
    · exact own

theorem run_ticketed (moves : List (Nat × Move)) : (empty.run moves).Ticketed :=
  (run_induction (motive := fun t => t.Sound ∧ t.Ticketed) empty ⟨empty_sound, empty_ticketed⟩
    (fun _ now move both => ⟨sound_step both.1 now move, ticketed_step both.1 both.2 now move⟩) moves).2

/-- A lease in hand is outstanding on its transport unless an earlier move ended it. -/
theorem in_hand_run (moves : List (Nat × Move)) {call : Nat} {a : Acquisition} {ticket : LeaseTicket}
    (present : (empty.run moves).calls call = some a) (holds : a.lease? = some ticket) :
    (empty.run moves).pool.Holds ticket.transport call ∨
      ∃ before now move after, moves = before ++ (now, move) :: after ∧
        (empty.run before).FreedBy now call move := by
  induction moves using List.reverseRecOn generalizing a with
  | nil => simp [run, empty] at present
  | append_singleton moves last ih =>
    obtain ⟨now, move⟩ := last
    have h := run_sound moves
    rw [run_append] at present ⊢
    rcases (run_ticketed moves).in_hand h present holds with ⟨old, waits, holds'⟩ | ⟨-, held⟩
    · rcases ih waits holds' with held | ⟨before, now', move', after, rfl, freed⟩
      · rcases h.holds_step held now move with stays | freed
        · exact Or.inl stays
        · exact Or.inr ⟨moves, now, move, [], rfl, freed⟩
      · exact Or.inr ⟨before, now', move', after ++ [(now, move)], by simp, freed⟩
    · exact Or.inl held

/-! ### Exactly one release -/

theorem FreedBy.holds {now lease : Nat} {move : Move} (freed : t.FreedBy now lease move) :
    ∃ transport, t.pool.Holds transport lease := by
  cases freed with
  | released held => exact ⟨_, held⟩
  | dropped present holds same held => exact ⟨_, held⟩
  | reclaimed found expired => exact ⟨_, _, found, Slot.expired_held expired⟩

/-- Dropping a lease is releasing it. -/
theorem cancel_eq_release {a : Acquisition} {ticket : LeaseTicket} (holds : a.lease? = some ticket)
    (p : Pool) (now : Nat) :
    a.cancel p now =
      ((p.release ticket.transport ticket.leaseId now).1,
        (p.release ticket.transport ticket.leaseId now).2.1) := by
  cases a with
  | pacing ticket' grant =>
    cases holds
    rfl
  | granted ticket' instant =>
    cases holds
    rfl
  | _ => cases holds

theorem Sound.lost_iff_freedBy (h : t.Sound) {now lease : Nat} {move : Move} {transport : TransportName}
    (held : t.pool.Holds transport lease) :
    (∀ other, ¬ (t.step now move).pool.Holds other lease) ↔ t.FreedBy now lease move := by
  obtain ⟨g, found, member⟩ := held
  have leased := leased_of_found h.numbered found member
  constructor
  · intro lost
    refine h.freedBy_of_lost leased fun stays => ?_
    exact lost transport (h.holds_of_leased found stays)
  · rintro freed other ⟨g', found', member'⟩
    have spent := h.spent_of_lost leased (h.lost_of_freedBy leased freed)
    exact spent.unheld (numbered_step h.numbered now move) other ⟨g', found', member'⟩

theorem Sound.unheld_after (h : t.Sound) {now lease : Nat} {move : Move}
    (freed : t.FreedBy now lease move) (after : List (Nat × Move)) (transport : TransportName) :
    ¬ ((t.step now move).run after).pool.Holds transport lease := by
  obtain ⟨_, g, found, member⟩ := freed.holds
  have leased := leased_of_found h.numbered found member
  have spent := h.spent_of_lost leased (h.lost_of_freedBy leased freed)
  have sound : ((t.step now move).run after).Sound :=
    run_induction _ (sound_step h now move) (fun _ now move h => sound_step h now move) after
  exact (spent.run (sound_step h now move) after).unheld sound.numbered transport

/-- A transport with an outstanding lease is not dropped. -/
theorem Sound.retained (h : t.Sound) {transport : TransportName} {lease : Nat}
    (held : t.pool.Holds transport lease) (keep : List TransportName) :
    (t.pool.retain keep).find? transport = t.pool.find? transport := by
  obtain ⟨g, found, member⟩ := held
  have busy := h.not_idle (Pool.slot?_of_find? h.numbered found) member
  rw [found]
  refine Pool.find?_of_mem (Pool.retain_numbered h.numbered keep) ?_
  exact List.mem_filter.mpr ⟨Pool.find?_mem found, by simp [busy]⟩

/-- In every state of every run, the release of an outstanding lease on its transport ends it, frees one slot
and reports nothing; any other release changes nothing and is reported as one anomaly. Dropping a lease is
releasing it, and a reclaim ends the leases that are held for too long. A lease is outstanding on one transport
only, these are the only moves that end it, and afterwards it is outstanding nowhere for the rest of the run.
Its transport is never dropped before, so a lease in hand that no earlier move ended is outstanding. -/
theorem lease_freed_once (moves : List (Nat × Move)) :
    let t := empty.run moves
    (∀ transport lease now,
      (t.pool.Holds transport lease →
        ∃ q wakes, t.pool.release transport lease now = (q, ⟨wakes, []⟩, .released) ∧
          t.pool.Ends q transport lease) ∧
      (¬ t.pool.Holds transport lease →
        t.pool.release transport lease now =
          (t.pool, .report (Pool.anomaly transport lease), .anomalous))) ∧
    (∀ call a ticket now, t.calls call = some a → a.lease? = some ticket →
      a.cancel t.pool now =
        ((t.pool.release ticket.transport ticket.leaseId now).1,
          (t.pool.release ticket.transport ticket.leaseId now).2.1)) ∧
    (∀ maxHold now transport g, t.pool.find? transport = some g →
      ∃ slot given,
        (t.step now (.reclaim maxHold)).pool.find? transport = some { g with slot := slot } ∧
        slot.leases = g.slot.leases.filter (·.1 ∉ g.slot.expired maxHold now) ∧
        slot.handed = g.slot.handed ++ given ∧
        slot.occupied + (g.slot.expired maxHold now).length = g.slot.occupied + given.length) ∧
    (∀ transport lease, t.pool.Holds transport lease →
      (∀ other, t.pool.Holds other lease → transport = other) ∧
      (∀ now move,
        (∀ other, ¬ (t.step now move).pool.Holds other lease) ↔ t.FreedBy now lease move) ∧
      ∀ keep, (t.pool.retain keep).find? transport = t.pool.find? transport) ∧
    (∀ lease now move, t.FreedBy now lease move → ∀ after : List (Nat × Move),
      (∀ transport, ¬ ((t.step now move).run after).pool.Holds transport lease) ∧
      ∀ now' move', ¬ ((t.step now move).run after).FreedBy now' lease move') ∧
    (∀ call a ticket, t.calls call = some a → a.lease? = some ticket →
      ticket.leaseId = call ∧
        (t.pool.Holds ticket.transport call ∨
          ∃ before now move after, moves = before ++ (now, move) :: after ∧
            (empty.run before).FreedBy now call move)) := by
  intro t
  have h : t.Sound := run_sound moves
  refine ⟨fun transport lease now => ⟨?_, fun unheld => Pool.release_unheld unheld now⟩, ?_, ?_, ?_, ?_, ?_⟩
  · rintro ⟨g, found, held⟩
    exact Pool.release_ends found held (h.slots _ _ (Pool.slot?_of_find? h.numbered found)) now
  · intro call a ticket now _ holds
    exact cancel_eq_release holds t.pool now
  · intro maxHold now transport g found
    exact Pool.reclaim_ends found (h.slots _ _ (Pool.slot?_of_find? h.numbered found)) maxHold now
  · intro transport lease held
    exact ⟨fun other there => h.holds_unique held there, fun now move => h.lost_iff_freedBy held,
      h.retained held⟩
  · intro lease now move freed after
    refine ⟨h.unheld_after freed after, fun now' move' again => ?_⟩
    obtain ⟨transport, held⟩ := again.holds
    exact h.unheld_after freed after transport held
  · intro call a ticket present holds
    exact ⟨(run_ticketed moves).own call a ticket present holds, in_hand_run moves present holds⟩

/-- A lease is reclaimed and its slot goes to a caller that waits. The late release of the first lease leaves the
second alone, which is released itself. -/
theorem lease_freed_once_reclaimed :
    let relay : TransportName := ⟨"relay"⟩
    let moves : List (Nat × Move) :=
      [(0, .configure relay ⟨1, 0⟩), (0, .acquire relay 500), (1, .acquire relay 500), (10, .reclaim 5),
        (11, .resume 2)]
    let t := empty.run moves
    t.pool.release relay 1 12 = (t.pool, .report (Pool.anomaly relay 1), .anomalous) ∧
      ∃ q wakes, t.pool.release relay 2 12 = (q, ⟨wakes, []⟩, .released) ∧ t.pool.Ends q relay 2 := by
  intro relay moves t
  have found : t.pool.find? relay = some ⟨0, ⟨1, 0, 1, [(2, 10)], [], [], some 10, 1⟩⟩ := by decide +kernel
  have releases := (lease_freed_once moves).1
  refine ⟨(releases relay 1 12).2 ?_, (releases relay 2 12).1 ⟨_, found, by decide⟩⟩
  rintro ⟨g, found', held⟩
  rw [found] at found'
  cases found'
  exact absurd held (by decide)

end Traffic

end RelayRamp.Lease
