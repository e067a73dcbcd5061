import Mathlib.Tactic.IntervalCases
import RelayRamp.Proofs.Lease.Deadlines

/-!
# Acquisitions meet their deadlines

On an exact clock an acquisition that is not called off is answered by its deadline. A lease is returned at the very
instant that was reserved for it. It is refused before its deadline only when no grant within its time was left: on
entry, or in its turn, when the last grant and the spacing in force at that moment put the next one past its deadline.
-/
namespace RelayRamp.Lease

open RelayRamp.Admission RelayRamp.Routing Caller

namespace Traffic

/-- The acquisition was answered in the run, at an instant. -/
def Answered (moves : List (Nat × Move)) (call instant : Nat) (a : Acquisition) : Prop :=
  ∃ before move after, moves = before ++ (instant, move) :: after ∧
    ((empty.run before).step instant move).calls call = some a ∧ a.isDone = true ∧
    ∀ b, (empty.run before).calls call = some b → b.isDone = false

/-- The grant instant is reserved for the acquisition. -/
def ReservedFor (moves : List (Nat × Move)) (call grant : Nat) : Prop :=
  ∃ n, ∃ c ∈ (Diary.empty.run moves).callers n, c.lease = call ∧ ∃ delay, c.fate = .promised grant delay

/-- The answers that an acquisition may get at an instant. -/
inductive Due (moves : List (Nat × Move)) (call start : Nat) (transport : TransportName) (deadline instant : Nat) :
    Acquisition → Prop where
  | granted (reserved : ReservedFor moves call instant) :
      Due moves call start transport deadline instant (.granted ⟨transport, call⟩ instant)
  | timedOut (early : instant < deadline → Refused moves call deadline instant) :
      Due moves call start transport deadline instant (.failed (.timedOut transport.text))
  | unknown (immediate : instant = start) :
      Due moves call start transport deadline instant (.failed (.unknownTransport transport.text))

variable {moves : List (Nat × Move)} {call start timeout deadline now : Nat}
  {transport : TransportName} {key : WaitKey} {ticket : LeaseTicket} {move : Move} {s : Slot} {a : Acquisition}

theorem Answered.more {instant : Nat} (answered : Answered moves call instant a) (more : List (Nat × Move)) :
    Answered (moves ++ more) call instant a := by
  obtain ⟨before, move, after, rfl, answers⟩ := answered
  exact ⟨before, move, after ++ more, by simp, answers⟩

theorem ReservedFor.more {grant : Nat} (reserved : ReservedFor moves call grant) (more : List (Nat × Move)) :
    ReservedFor (moves ++ more) call grant := by
  obtain ⟨n, c, member, lease, delay, fate⟩ := reserved
  obtain ⟨c', member', lease', -, -, decided⟩ := callers_run _ member more
  rw [← diary_run_append] at member'
  exact ⟨n, c', member', lease'.trans lease, delay, (decided (by simp [fate])).trans fate⟩

theorem Due.more {instant : Nat} (due : Due moves call start transport deadline instant a)
    (more : List (Nat × Move)) : Due (moves ++ more) call start transport deadline instant a := by
  cases due with
  | granted reserved => exact .granted (reserved.more more)
  | timedOut early => exact .timedOut fun before => (early before).more more
  | unknown immediate => exact .unknown immediate

/-! ### The answer -/

theorem reserved_pacing {grant : Nat} (present : (empty.run moves).calls call = some (.pacing ticket grant)) :
    ReservedFor moves call grant := by
  rw [← diary_traffic] at present
  obtain ⟨n, c, member, lease, grant', delay, fate, same⟩ :=
    (Diary.run_sound moves).held call _ present (by simp [Acquisition.lease?])
  cases (same : grant = grant')
  exact ⟨n, c, member, lease, delay, fate⟩

theorem reserved_claimed (waits : (empty.run moves).calls call = some (.queued ticket key deadline))
    (found : (empty.run moves).pool.slot? key.generation = some s) {s' : Slot} {grant : Nat}
    (claimed : s.claim key.waiter ticket.leaseId = some (s', grant)) : ReservedFor moves call grant := by
  rw [← diary_traffic] at waits found
  have h := Diary.run_sound moves
  obtain ⟨c, member, number, delay, fate⟩ := (h.registered _ s found).handed _ (Slot.claimed_handed claimed)
  exact ⟨key.generation, c, member, (h.caller_of_queued waits found member number).1, delay, fate⟩

theorem reserved_entered {g : Generation} (found : (empty.run moves).pool.find? transport = some g) {grant : Nat}
    (granted : (g.slot.enter now (empty.run moves).pool.nextLease (now + timeout)).2 = .granted grant) :
    ReservedFor (moves ++ [(now, .acquire transport timeout)]) (empty.run moves).pool.nextLease grant := by
  rw [← diary_traffic] at found granted ⊢
  refine ⟨g.number, g.slot.enrol now (Diary.empty.run moves).traffic.pool.nextLease (now + timeout), ?_,
    (g.slot.enrol_lease now _ _).1, g.slot.rateDelay, ?_⟩
  · rw [diary_run_append]
    change _ ∈ ((Diary.empty.run moves).step now (.acquire transport timeout)).callers g.number
    rw [Diary.callers_acquire (Diary.run_sound moves) found]
    exact mem_snoc_iff.mpr (Or.inr rfl)
  · simp only [Slot.enrol, granted]

/-- An acquisition fails as it begins, at its deadline, or when it has lost its place. -/
theorem failed_step {t : Traffic} {fault : LeaseFault} (present : (t.step now move).calls call = some (.failed fault))
    (unfinished : ∀ b, t.calls call = some b → b.isDone = false) :
    (∃ transport timeout, move = .acquire transport timeout ∧ call = t.pool.nextLease ∧
      (Acquisition.start t.pool transport timeout now).2 = .failed fault) ∨
    ∃ ticket key deadline, t.calls call = some (.queued ticket key deadline) ∧
      fault = .timedOut ticket.transport.text ∧
      (deadline ≤ now ∨ ∀ s, t.pool.slot? key.generation = some s → key.waiter ∉ s.waiterIds) := by
  obtain ⟨b, same, turned⟩ : ∃ b, some (Acquisition.failed fault) = b ∧ t.Becomes now call move b :=
    ⟨_, present.symm, becomes t now move call⟩
  cases turned with
  | same apart => cases unfinished _ same.symm
  | @begun transport timeout new => exact Or.inl ⟨transport, timeout, rfl, new, (Option.some.inj same).symm⟩
  | @resumed old waits begun =>
    cases old with
    | requested transport timeout => exact absurd rfl (begun transport timeout)
    | queued ticket key deadline =>
      exact Or.inr ⟨ticket, key, deadline, waits, Acquisition.resumeQueued_fails (Option.some.inj same).symm⟩
    | pacing ticket grant => exact absurd (Option.some.inj same) (Acquisition.paced_not_failed ticket grant now fault)
    | granted ticket instant => cases unfinished _ waits
    | failed fault' => cases unfinished _ waits
  | timedOut queued due =>
    cases same
    exact Or.inr ⟨_, _, _, queued, rfl, Or.inl due⟩
  | cancelled waits => cases same
  | detached granted => cases same

/-- Whoever lost its place before its deadline was refused at this instant. -/
theorem InTime.refused (h : InTime moves now call transport deadline (.queued ticket key deadline))
    (waits : (empty.run moves).calls call = some (.queued ticket key deadline)) (early : now < deadline)
    (lost : ∀ s, (empty.run moves).pool.slot? key.generation = some s → key.waiter ∉ s.waiterIds) :
    Refused moves call deadline now := by
  cases h with
  | queued _ handed stands =>
    cases stands with
    | listening found queued =>
      exact absurd (List.mem_append_left _ (List.mem_map_of_mem queued)) (lost _ found)
    | served served =>
      simp only [Traffic.served, waits, Option.any_eq_true] at served
      obtain ⟨s, found, pending⟩ := served
      exact absurd (List.mem_append_right _ (any_key_iff.mp pending)) (lost s found)
    | refused refused gone => exact refused
    | due reached => exact absurd early (Nat.not_lt.mpr reached)

/-- What an acquisition, not answered before a move, is known to be when the clock has come to the move. -/
structure Stood (moves : List (Nat × Move)) (now : Nat) (move : Move) (call start : Nat) (transport : TransportName)
    (timeout : Nat) : Prop where
  waiting {a : Acquisition} (present : (empty.run moves).calls call = some a) :
    InTime moves now call transport (start + timeout) a
  beginning {name : TransportName} {span : Nat} (new : call = (empty.run moves).pool.nextLease)
    (enters : move = .acquire name span) : now = start ∧ name = transport ∧ span = timeout

theorem Prompt.stood (prompt : Prompt moves now) (began : Began (moves ++ [(now, move)]) call start transport timeout)
    (kept : ¬ CalledOff (moves ++ [(now, move)]) call)
    (unfinished : ∀ b, (empty.run moves).calls call = some b → b.isDone = false) :
    Stood moves now move call start transport timeout where
  waiting {a} present := by
    rcases began.cases with began | ⟨-, mine⟩
    · exact prompt.inTime began (fun calledOff => kept (calledOff.more _)) present (unfinished a present)
    · exact absurd (mine ▸ (run_sound moves).calls_issued call a present) (Nat.lt_irrefl _)
  beginning new enters := by
    rcases began.cases with began | ⟨last, -⟩
    · exact absurd (new ▸ began.issued) (Nat.lt_irrefl _)
    · cases last
      cases enters
      exact ⟨rfl, rfl, rfl⟩

/-- A lease is returned at the instant that was reserved for it. -/
theorem Stood.granted (stood : Stood moves now move call start transport timeout)
    (unfinished : ∀ b, (empty.run moves).calls call = some b → b.isDone = false) {instant : Nat}
    (present : ((empty.run moves).step now move).calls call = some (.granted ticket instant)) :
    now ≤ start + timeout ∧
      Due (moves ++ [(now, move)]) call start transport (start + timeout) now (.granted ticket instant) := by
  rcases in_hand_step present rfl with ⟨old, waits, -, rfl | ⟨grant, rfl, returns⟩⟩ |
    ⟨_, _, g, grant, enters, new, rfl, found, granted, returns⟩ |
    ⟨key, due, s, s', grant, -, waits, found, claimed, returns⟩
  · cases unfinished _ waits
  · obtain ⟨-, rfl, reached⟩ := Acquisition.paced_granted returns
    cases stood.waiting waits with
    | pacing early inTime =>
      obtain rfl := Nat.le_antisymm reached early
      exact ⟨inTime, .granted ((reserved_pacing waits).more _)⟩
  · obtain ⟨rfl, rfl, rfl⟩ := stood.beginning new enters
    obtain ⟨-, rfl, reached⟩ := Acquisition.paced_granted returns
    obtain ⟨early, inTime⟩ := Slot.enter_bounds granted
    obtain rfl := Nat.le_antisymm reached early
    refine ⟨inTime, .granted ?_⟩
    rw [enters, new]
    exact reserved_entered found granted
  · obtain ⟨-, rfl, reached⟩ := Acquisition.paced_granted returns
    cases stood.waiting waits with
    | queued early handed stands =>
      obtain ⟨early, inTime⟩ := InTime.claimed (.queued early handed stands) found claimed
      obtain rfl := Nat.le_antisymm reached early
      exact ⟨inTime, .granted ((reserved_claimed waits found claimed).more _)⟩

/-- An acquisition that fails as it begins does not know its transport, or is refused there and then. -/
theorem due_entered {fault : LeaseFault} (mine : call = (empty.run moves).pool.nextLease)
    (fails : (Acquisition.start (empty.run moves).pool transport timeout now).2 = .failed fault) :
    Due (moves ++ [(now, .acquire transport timeout)]) call now transport (now + timeout) now (.failed fault) := by
  cases found : (empty.run moves).pool.find? transport with
  | none =>
    rw [Acquisition.start_absent found] at fails
    cases fails
    exact .unknown rfl
  | some g =>
    rw [Acquisition.start_found found] at fails
    dsimp only at fails
    rcases Slot.enter_cases g.slot now (empty.run moves).pool.nextLease (now + timeout) with
      ⟨-, -, -, granted⟩ | ⟨-, -, past, refused⟩ | ⟨-, queued⟩
    · rw [granted] at fails
      exact absurd fails.symm (Acquisition.paced_not_failed _ _ now fault)
    · rw [refused] at fails
      cases fails
      exact .timedOut fun _ => .onEntry rfl mine found (by rw [mine, refused]) past
    · rw [queued] at fails
      cases fails

theorem Stood.failed (stood : Stood moves now move call start transport timeout)
    (unfinished : ∀ b, (empty.run moves).calls call = some b → b.isDone = false) {fault : LeaseFault}
    (present : ((empty.run moves).step now move).calls call = some (.failed fault)) :
    now ≤ start + timeout ∧
      Due (moves ++ [(now, move)]) call start transport (start + timeout) now (.failed fault) := by
  rcases failed_step present unfinished with ⟨name, span, enters, new, fails⟩ | ⟨ticket, key, due, waits, rfl, lost⟩
  · obtain ⟨rfl, rfl, rfl⟩ := stood.beginning new enters
    rw [enters]
    exact ⟨Nat.le_add_right .., due_entered new fails⟩
  · have standing := stood.waiting waits
    have early := standing.early
    cases standing with
    | queued _ handed stands =>
      refine ⟨early, .timedOut fun before => ?_⟩
      rcases lost with due | lost
      · exact absurd before (Nat.not_lt.mpr due)
      · exact (InTime.refused (.queued early handed stands) waits before lost).more _

theorem Prompt.answer (prompt : Prompt moves now) (began : Began (moves ++ [(now, move)]) call start transport timeout)
    (kept : ¬ CalledOff (moves ++ [(now, move)]) call)
    (present : ((empty.run moves).step now move).calls call = some a) (done : a.isDone = true)
    (unfinished : ∀ b, (empty.run moves).calls call = some b → b.isDone = false) :
    now ≤ start + timeout ∧ Due (moves ++ [(now, move)]) call start transport (start + timeout) now a := by
  have stood := prompt.stood began kept unfinished
  cases a with
  | granted ticket instant => exact stood.granted unfinished present
  | failed fault => exact stood.failed unfinished present
  | requested name span => cases done
  | queued ticket key due => cases done
  | pacing ticket grant => cases done

/-! ### An answer comes -/

theorem answered_or_in_progress (began : Began moves call start transport timeout) (kept : ¬ CalledOff moves call) :
    (∃ instant a, Answered moves call instant a) ∨ (empty.run moves).InProgress call := by
  induction moves using List.reverseRecOn with
  | nil =>
    obtain ⟨before, after, none, -⟩ := began
    simp at none
  | append_singleton moves last ih =>
    obtain ⟨now, move⟩ := last
    have kept' : ¬ CalledOff moves call := fun calledOff => kept (calledOff.more _)
    have after : empty.run (moves ++ [(now, move)]) = (empty.run moves).step now move := run_append ..
    -- Whatever it is kept as after the move, it is the answer or still in progress.
    have either {a : Acquisition} (present : ((empty.run moves).step now move).calls call = some a)
        (unfinished : ∀ b, (empty.run moves).calls call = some b → b.isDone = false) :
        (∃ instant a, Answered (moves ++ [(now, move)]) call instant a) ∨
          (empty.run (moves ++ [(now, move)])).InProgress call := by
      cases done : a.isDone with
      | true => exact Or.inl ⟨now, a, moves, move, [], rfl, present, done, unfinished⟩
      | false => exact Or.inr ⟨a, after ▸ present, done⟩
    rcases began.cases with earlier | ⟨last, mine⟩
    · rcases ih earlier kept' with ⟨instant, a, answered⟩ | ⟨a, waits, unfinished⟩
      · exact Or.inl ⟨instant, a, answered.more _⟩
      · have only : ∀ b, (empty.run moves).calls call = some b → b.isDone = false := by
          intro b present
          cases waits.symm.trans present
          exact unfinished
        obtain ⟨b, present, turned⟩ : ∃ b, ((empty.run moves).step now move).calls call = b ∧
            (empty.run moves).Becomes now call move b := ⟨_, rfl, becomes _ now move call⟩
        cases turned with
        | same apart => exact either (present.trans waits) only
        | begun new => exact absurd (new ▸ earlier.issued) (Nat.lt_irrefl _)
        | resumed _ _ => exact either present only
        | timedOut _ _ => exact either present only
        | cancelled _ => exact absurd ⟨moves, now, _, [], rfl, Or.inl rfl, a, waits, unfinished⟩ kept
        | detached granted =>
          cases waits.symm.trans granted
          cases unfinished
    · cases last
      refine either (by rw [mine]; exact keep_call ..) fun b present => ?_
      exact absurd (mine ▸ (run_sound moves).calls_issued call b present) (Nat.lt_irrefl _)

/-- Acquisitions that go on call nobody off. -/
theorem calledOff_of_resumes {more : List (Nat × Move)} (resumes : ∀ entry ∈ more, ∃ other, entry.2 = .resume other)
    (calledOff : CalledOff (moves ++ more) call) : CalledOff moves call := by
  obtain ⟨before, now, move, after, split, ends, progress⟩ := calledOff
  rcases split_append split with ⟨rest, inside⟩ | ⟨earlier, -, inside⟩
  · exact ⟨before, now, move, rest, inside, ends, progress⟩
  · obtain ⟨other, same⟩ := resumes (now, move) (inside ▸ List.mem_append_right _ (List.mem_cons_self ..))
    cases same
    rcases ends with ends | ends <;> cases ends

/-- Nothing more than that acquisitions go on is needed for an answer. -/
theorem Prompt.answers (prompt : Prompt moves now) (began : Began moves call start transport timeout)
    (kept : ¬ CalledOff moves call) :
    ∃ more later, (∀ entry ∈ more, ∃ other, entry.2 = .resume other) ∧ Prompt (moves ++ more) later ∧
      ∃ instant a, Answered (moves ++ more) call instant a := by
  induction left : start + timeout - now using Nat.strong_induction_on generalizing moves now with
  | h n ih =>
    obtain ⟨more, settles, prompt', rests⟩ := prompt.settles
    have resumes : ∀ entry ∈ more, ∃ other, entry.2 = .resume other := by
      intro entry member
      obtain ⟨other, rfl⟩ := settles entry member
      exact ⟨other, rfl⟩
    have kept' : ¬ CalledOff (moves ++ more) call := fun calledOff => kept (calledOff_of_resumes resumes calledOff)
    rcases answered_or_in_progress (began.more more) kept' with answered | ⟨a, waits, unfinished⟩
    · exact ⟨more, now, resumes, prompt', answered⟩
    · -- The clock can tick, and the acquisition is in time then, too.
      have ticked := prompt'.tick rests
      have inTime := (ticked.inTime (began.more more) kept' waits unfinished).early
      obtain ⟨rest, later, resumes', prompt'', answered⟩ := ih _ (by omega) ticked (began.more more) kept' rfl
      rw [List.append_assoc] at prompt'' answered
      refine ⟨more ++ rest, later, fun entry member => ?_, prompt'', answered⟩
      rcases List.mem_append.mp member with here | there
      · exact resumes entry here
      · exact resumes' entry there

/-- On an exact clock, an acquisition that is not cancelled is answered by its deadline. The clock does not pass the
deadline before that, and an answer comes if only the acquisitions go on. -/
theorem deadline_met (prompt : Prompt moves now) (began : Began moves call start transport timeout)
    (kept : ¬ CalledOff moves call) :
    (now ≤ start + timeout ∨ ∃ instant a, Answered moves call instant a) ∧
    (∃ more later, (∀ entry ∈ more, ∃ other, entry.2 = .resume other) ∧ Prompt (moves ++ more) later ∧
      ∃ instant a, Answered (moves ++ more) call instant a) ∧
    ∀ instant a, Answered moves call instant a →
      instant ≤ start + timeout ∧ Due moves call start transport (start + timeout) instant a := by
  refine ⟨?_, prompt.answers began kept, ?_⟩
  · rcases answered_or_in_progress began kept with answered | ⟨a, waits, unfinished⟩
    · exact Or.inr answered
    · exact Or.inl (prompt.inTime began kept waits unfinished).early
  · rintro instant a ⟨before, move, after, rfl, present, done, unfinished⟩
    have split : before ++ (instant, move) :: after = (before ++ [(instant, move)]) ++ after := by simp
    have calledOff (early : CalledOff (before ++ [(instant, move)]) call) :
        CalledOff (before ++ (instant, move) :: after) call := split ▸ early.more after
    -- It had begun by the time of the answer.
    have begun : Began (before ++ [(instant, move)]) call start transport timeout := by
      obtain ⟨earlier, later, same, mine⟩ := began
      rcases split_append (split ▸ same) with ⟨rest, inside⟩ | ⟨rest, rfl, -⟩
      · exact ⟨earlier, rest, inside, mine⟩
      · have issued := sound_step (run_sound before) instant move |>.calls_issued call a present
        have grows := nextLease_run_le ((empty.run before).step instant move) rest
        rw [run_append, run_append] at mine
        exact absurd (mine ▸ issued) (Nat.not_lt.mpr grows)
    obtain ⟨inTime, due⟩ := prompt.before.answer begun (fun early => kept (calledOff early)) present done unfinished
    rw [split]
    exact ⟨inTime, due.more after⟩

/-- Two acquisitions wait behind a lease. When it is released, the spacing leaves no grant within the time of the first,
and it is refused at once. The second sleeps until the instant that was reserved for it. -/
theorem deadline_met_spaced :
    let relay : TransportName := ⟨"relay"⟩
    let moves : List (Nat × Move) :=
      [(0, .configure relay ⟨1, 1⟩), (0, .acquire relay 9000), (0, .acquire relay 500), (0, .acquire relay 2000),
        (0, .release relay 1), (0, .resume 2), (0, .resume 3), (1000, .resume 3)]
    Prompt moves 1000 ∧ Began moves 2 0 relay 500 ∧ Began moves 3 0 relay 2000 ∧
      ¬ CalledOff moves 2 ∧ ¬ CalledOff moves 3 ∧ Refused moves 2 500 0 ∧ 1000 ≤ 0 + 2000 ∧
      ReservedFor moves 3 1000 := by
  intro relay moves
  let early : List (Nat × Move) :=
    [(0, .configure relay ⟨1, 1⟩), (0, .acquire relay 9000), (0, .acquire relay 500), (0, .acquire relay 2000),
      (0, .release relay 1), (0, .resume 2), (0, .resume 3)]
  have begun : Prompt early 0 :=
    ((((((Prompt.start.move _).move _).move _).move _).move _).move _).move _
  have rests (instant : Nat) (before : instant < 1000) : (empty.run early).Rests instant := by
    intro call a present
    have next : (empty.run early).pool.nextLease = 4 := by decide
    have calls : (empty.run early).calls 0 = none ∧ (empty.run early).calls 1 = some (.granted ⟨relay, 1⟩ 0) ∧
        (empty.run early).calls 2 = some (.failed (.timedOut "relay")) ∧
        (empty.run early).calls 3 = some (.pacing ⟨relay, 3⟩ 1000) := by decide
    obtain ⟨zero, one, two, three⟩ := calls
    have issued := next ▸ (run_sound early).calls_issued call a present
    interval_cases call
    · cases zero.symm.trans present
    · cases one.symm.trans present
      rfl
    · cases two.symm.trans present
      rfl
    · cases three.symm.trans present
      simp [Acquisition.resume, Acquisition.paced, Nat.not_le.mpr before]
  have prompt : Prompt moves 1000 := (begun.wait (Nat.zero_le _) fun instant _ => rests instant).move (.resume 3)
  have kept (call : Nat) : ¬ CalledOff moves call := by
    rintro ⟨before, now, move, after, split, ends, -⟩
    have member : (now, move) ∈ moves := split ▸ List.mem_append_right _ (List.mem_cons_self ..)
    simp only [moves, List.mem_cons, Prod.mk.injEq, List.not_mem_nil, or_false] at member
    rcases ends with rfl | rfl <;> simp at member
  have second : Began moves 2 0 relay 500 := ⟨early.take 2, moves.drop 3, rfl, by decide⟩
  have third : Began moves 3 0 relay 2000 := ⟨early.take 3, moves.drop 4, rfl, by decide⟩
  have refused := (deadline_met prompt second (kept 2)).2.2 0 (.failed (.timedOut "relay"))
    ⟨early.take 5, .resume 2, moves.drop 6, rfl, by decide, rfl, by decide⟩
  have granted := (deadline_met prompt third (kept 3)).2.2 1000 (.granted ⟨relay, 3⟩ 1000)
    ⟨early, .resume 3, [], rfl, by decide, rfl, by decide⟩
  refine ⟨prompt, second, third, kept 2, kept 3, ?_, granted.1, ?_⟩
  · cases refused.2 with
    | timedOut early => exact early (by decide)
  · cases granted.2 with
    | granted reserved => exact reserved

end Traffic

end RelayRamp.Lease
