import RelayRamp.Proofs.Lease.Custody

/-!
# What a run remembers of a lease

A lease is outstanding where it was granted for as long as nothing ended it, and a place in a queue stays that
of the acquisition that waited there. So an entry of the pool can be traced to its acquisition through a whole run.
A lease that is in hand before its grant instant is safe from a reclaim: the instant on record is the same.
-/
namespace RelayRamp.Lease

open RelayRamp.Admission RelayRamp.Routing

/-- An element of two lists in sequence is in the first or in the second. -/
theorem split_append {α : Type} {xs ys before after : List α} {x : α} (same : xs ++ ys = before ++ x :: after) :
    (∃ rest, xs = before ++ x :: rest) ∨ ∃ earlier, before = xs ++ earlier ∧ ys = earlier ++ x :: after := by
  rcases List.append_eq_append_iff.mp same with ⟨earlier, first, second⟩ | ⟨rest, first, second⟩
  · exact Or.inr ⟨earlier, first, second⟩
  · cases rest with
    | nil => exact Or.inr ⟨[], by simpa using first.symm, by simpa using second.symm⟩
    | cons y rest =>
      cases second
      exact Or.inl ⟨rest, first⟩

namespace Traffic

variable {t : Traffic} {moves rest : List (Nat × Move)} {transport : TransportName} {lease : Nat}

/-! ### What ended a lease, and when -/

theorem Ended.more (ended : Ended moves lease) (rest : List (Nat × Move)) : Ended (moves ++ rest) lease := by
  obtain ⟨before, now, move, after, rfl, freed⟩ := ended
  exact ⟨before, now, move, after ++ rest, by simp, freed⟩

theorem ended_append (ended : Ended (moves ++ rest) lease) :
    Ended moves lease ∨ ∃ before now move after, rest = before ++ (now, move) :: after ∧
      (empty.run (moves ++ before)).FreedBy now lease move := by
  obtain ⟨before, now, move, after, same, freed⟩ := ended
  rcases split_append same with ⟨between, rfl⟩ | ⟨earlier, rfl, rfl⟩
  · exact Or.inl ⟨before, now, move, between, rfl, freed⟩
  · exact Or.inr ⟨earlier, now, move, after, rfl, freed⟩

theorem Ended.spent (ended : Ended moves lease) : (empty.run moves).Spent lease := by
  obtain ⟨before, now, move, after, rfl, freed⟩ := ended
  have h := run_sound before
  obtain ⟨_, g, found, member⟩ := freed.holds
  have held := leased_of_found h.numbered found member
  rw [run_append]
  exact (h.spent_of_lost held (h.lost_of_freedBy held freed)).run (sound_step h now move) after

/-- A lease that nothing ended is where it was. -/
theorem holds_spared (held : (empty.run moves).pool.Holds transport lease)
    (unended : ¬ Ended (moves ++ rest) lease) :
    (empty.run (moves ++ rest)).pool.Holds transport lease := by
  induction rest using List.reverseRecOn with
  | nil => simpa using held
  | append_singleton rest last ih =>
    obtain ⟨now, move⟩ := last
    rw [← List.append_assoc] at unended ⊢
    have before := ih fun ended => unended (ended.more _)
    rw [run_append]
    rcases (run_sound _).holds_step before now move with stays | freed
    · exact stays
    · exact absurd ⟨_, now, move, [], rfl, freed⟩ unended

/-- An outstanding lease is in the hand of its acquisition, or the acquisition had it when it was kept out. -/
theorem holds_owner (held : (empty.run moves).pool.Holds transport lease) :
    (∃ a, (empty.run moves).calls lease = some a ∧ a.lease? = some ⟨transport, lease⟩) ∨
      ∃ before now after instant, moves = before ++ (now, .detach lease) :: after ∧
        (empty.run before).calls lease = some (.granted ⟨transport, lease⟩ instant) := by
  have h := run_sound moves
  obtain ⟨g, found, member⟩ := held
  have leased := leased_of_found h.numbered found member
  rcases leased.inHand with ⟨a, ticket, present, holds⟩ | ⟨before, now, after, ticket, instant, rfl, granted⟩
  · have own := (run_ticketed moves).own lease a ticket present holds
    rcases in_hand_run moves present holds with there | ended
    · have place := h.holds_unique ⟨g, found, member⟩ there
      subst place
      subst own
      exact Or.inl ⟨a, present, holds⟩
    · exact absurd ended leased.unended
  · have own := (run_ticketed before).own lease _ ticket granted rfl
    have unended := leased.unended
    rcases in_hand_run before granted rfl with there | ended
    · have place := h.holds_unique ⟨g, found, member⟩ (holds_spared there unended)
      subst place
      subst own
      exact Or.inr ⟨before, now, after, instant, rfl, granted⟩
    · exact absurd (Ended.more ended _) unended

/-- Whoever has a lease in hand that had ended by then had it in hand then. -/
theorem in_hand_back {call : Nat} {a : Acquisition} {ticket : LeaseTicket}
    (spent : (empty.run moves).Spent call) (present : (empty.run (moves ++ rest)).calls call = some a)
    (holds : a.lease? = some ticket) :
    ∃ old, (empty.run moves).calls call = some old ∧ old.lease? = some ticket := by
  induction rest using List.reverseRecOn generalizing a with
  | nil => exact ⟨a, by simpa using present, holds⟩
  | append_singleton rest last ih =>
    obtain ⟨now, move⟩ := last
    have h := run_sound (moves ++ rest)
    have before := spent.run (run_sound moves) rest
    rw [← run_append] at before
    rw [← List.append_assoc, run_append] at present
    rcases (run_ticketed (moves ++ rest)).in_hand h present holds with ⟨old, waits, holds'⟩ | ⟨-, held⟩
    · exact ih waits holds'
    · exact absurd held ((before.step h now move).unheld (numbered_step h.numbered now move) ticket.transport)

/-! ### Places -/

theorem diary_traffic (moves : List (Nat × Move)) : (Diary.empty.run moves).traffic = empty.run moves :=
  Diary.run_traffic .empty moves

theorem callers_run (d : Diary) {n : Nat} {c : Caller} (member : c ∈ d.callers n) (moves : List (Nat × Move)) :
    ∃ c' ∈ (d.run moves).callers n, c.Follows c' := by
  induction moves generalizing d c with
  | nil => exact ⟨c, member, .refl c⟩
  | cons head rest ih =>
    obtain ⟨c', member', follows⟩ := Diary.callers_follow d head.1 head.2 member
    obtain ⟨c'', member'', follows'⟩ := ih _ member'
    exact ⟨c'', member'', follows.trans follows'⟩

theorem diary_run_append (d : Diary) (moves more : List (Nat × Move)) :
    d.run (moves ++ more) = (d.run moves).run more := by
  induction moves generalizing d with
  | nil => rfl
  | cons head rest ih => exact ih _

/-- A place for which an acquisition waited is never that of another one. -/
theorem place_once {call other : Nat} {ticket ticket' : LeaseTicket} {key : WaitKey} {deadline deadline' : Nat}
    {s : Slot} (waited : (empty.run moves).calls call = some (.queued ticket key deadline))
    (waits : (empty.run (moves ++ rest)).calls other = some (.queued ticket' key deadline'))
    (found : (empty.run (moves ++ rest)).pool.slot? key.generation = some s) : other = call := by
  rw [← diary_traffic] at waited waits found
  obtain ⟨c, member, mine, number, -⟩ := (Diary.run_sound moves).queued _ _ _ _ waited
  obtain ⟨c', member', lease, -, waiter, -⟩ := callers_run _ member rest
  rw [← diary_run_append] at member'
  have same := (Diary.run_sound (moves ++ rest)).caller_of_queued waits found member' (waiter.trans number)
  exact same.1.symm.trans (lease.trans mine)

/-! ### Sleeping until the grant instant -/

/-- A lease whose grant instant is not past is not reclaimed. -/
theorem sleeping_unexpired {call maxHold now grant : Nat} {ticket : LeaseTicket} {g : Generation}
    (sleeps : (empty.run moves).calls call = some (.pacing ticket grant)) (early : now ≤ grant)
    (found : (empty.run moves).pool.find? transport = some g) : call ∉ g.slot.expired maxHold now := by
  intro expired
  have h := Diary.run_sound moves
  rw [← diary_traffic] at sleeps found
  obtain ⟨entry, inside, rfl⟩ := List.mem_map.mp (List.mem_mergeSort.mp expired)
  obtain ⟨held, late⟩ := List.mem_filter.mp inside
  have slot := Pool.slot?_of_find? h.traffic.numbered found
  obtain ⟨c, member, lease, delay, fate⟩ := (h.registered _ _ slot).leases entry held
  have holds : (Acquisition.pacing ticket grant).lease? ≠ none := nofun
  obtain ⟨grant', delay', promised, reserved⟩ := h.promised member (lease ▸ sleeps) holds
  rw [fate] at promised
  cases promised
  have same : grant = entry.2 := reserved
  have late : now - entry.2 > maxHold := by simpa using late
  omega

/-! ### Beginning and going on at once -/

theorem keep_keep (t : Traffic) (p q : Pool) (call : Nat) (a b : Option Acquisition) :
    (t.keep p call a).keep q call b = t.keep q call b := by
  simp only [keep, Traffic.mk.injEq, true_and]
  funext n
  split <;> rfl

theorem keep_call (t : Traffic) (p : Pool) (call : Nat) (a : Option Acquisition) :
    (t.keep p call a).calls call = a := if_pos rfl

theorem step_resume {call : Nat} {a : Acquisition} (present : t.calls call = some a)
    (begun : ∀ transport timeout, a ≠ .requested transport timeout) (now : Nat) :
    t.step now (.resume call) = t.keep (a.resume t.pool now).1 call (some (a.resume t.pool now).2.2) := by
  cases a with
  | requested transport timeout => exact absurd rfl (begun transport timeout)
  | _ => simp only [step, present]

theorem start_cases (p : Pool) (transport : TransportName) (timeout now : Nat) :
    (∃ ticket grant, (Acquisition.start p transport timeout now).2 = .paced ticket grant now) ∨
      (∃ ticket key deadline, (Acquisition.start p transport timeout now).2 = .queued ticket key deadline) ∨
      ∃ fault, (Acquisition.start p transport timeout now).2 = .failed fault := by
  cases found : p.find? transport with
  | none => exact Or.inr (Or.inr ⟨_, by rw [Acquisition.start_absent found]⟩)
  | some g =>
    rw [Acquisition.start_found found]
    cases (g.slot.enter now p.nextLease (now + timeout)).2 with
    | granted grant => exact Or.inl ⟨_, grant, rfl⟩
    | queued waiter => exact Or.inr (Or.inl ⟨_, _, _, rfl⟩)
    | tooLate => exact Or.inr (Or.inr ⟨_, rfl⟩)

/-- An acquisition that has just begun goes on as one that is about to begin. -/
theorem resume_begun (p : Pool) (transport : TransportName) (timeout now : Nat) :
    let begun := Acquisition.start p transport timeout now
    (∀ transport timeout, begun.2 ≠ .requested transport timeout) ∧
      (begun.2.resume begun.1 now).1 = ((Acquisition.requested transport timeout).resume p now).1 ∧
      (begun.2.resume begun.1 now).2.2 = ((Acquisition.requested transport timeout).resume p now).2.2 := by
  have shape := start_cases p transport timeout now
  rcases started : Acquisition.start p transport timeout now with ⟨q, begun⟩
  rw [started] at shape
  simp only [Acquisition.resume, started]
  rcases shape with ⟨ticket, grant, rfl⟩ | ⟨ticket, key, deadline, rfl⟩ | ⟨fault, rfl⟩
  · by_cases reached : grant ≤ now
    · simp [Acquisition.paced, reached]
    · simp [Acquisition.paced, reached]
  · exact ⟨by simp, rfl, rfl⟩
  · exact ⟨by simp, rfl, rfl⟩

/-- An acquisition that begins and goes on at once is kept under the next lease. -/
theorem run_acquire (t : Traffic) (transport : TransportName) (timeout now : Nat) :
    t.run [(now, .acquire transport timeout), (now, .resume t.pool.nextLease)] =
      let begun := (Acquisition.requested transport timeout).resume t.pool now
      t.keep begun.1 t.pool.nextLease (some begun.2.2) := by
  obtain ⟨begins, pool, same⟩ := resume_begun t.pool transport timeout now
  have entered : t.step now (.acquire transport timeout) =
      t.keep (Acquisition.start t.pool transport timeout now).1 t.pool.nextLease
        (some (Acquisition.start t.pool transport timeout now).2) := rfl
  simp only [run]
  rw [entered, step_resume (keep_call t _ _ _) begins, keep_keep, ← pool, ← same]
  rfl

end Traffic

end RelayRamp.Lease
