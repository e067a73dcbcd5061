import Mathlib.Algebra.Order.BigOperators.Group.Finset
import RelayRamp.Proofs.Lease.History

/-!
# Runs on an exact clock

The clock of a run goes on only when nothing is left to do at the instant that it shows: whoever was handed a slot,
passed over, or has come to its deadline or its grant instant has been taken up before. It never goes back. An instant
is settled after finitely many moves, since an acquisition goes on at most twice.
-/
namespace RelayRamp.Lease

open RelayRamp.Admission RelayRamp.Routing

namespace Acquisition

/-- How often it can still go on. -/
def pending : Acquisition → Nat
  | .queued .. => 2
  | .pacing .. => 1
  | .requested .. | .granted .. | .failed _ => 0

/-- A lease in hand is returned at its grant instant or later, and else waits for it. -/
theorem paced_cases (ticket : LeaseTicket) (grant now : Nat) :
    (now < grant ∧ paced ticket grant now = .pacing ticket grant) ∨
      (grant ≤ now ∧ paced ticket grant now = .granted ticket now) := by
  unfold paced
  split
  next reached => exact Or.inr ⟨reached, rfl⟩
  next waits => exact Or.inl ⟨Nat.not_le.mp waits, rfl⟩

theorem paced_pacing {ticket ticket' : LeaseTicket} {grant grant' now : Nat}
    (paces : .pacing ticket grant = paced ticket' grant' now) : ticket = ticket' ∧ grant = grant' ∧ now < grant := by
  rcases paced_cases ticket' grant' now with ⟨waits, same⟩ | ⟨-, same⟩
  · cases paces.trans same
    exact ⟨rfl, rfl, waits⟩
  · cases paces.trans same

theorem paced_granted {ticket ticket' : LeaseTicket} {instant grant now : Nat}
    (returns : .granted ticket instant = paced ticket' grant now) : ticket = ticket' ∧ instant = now ∧ grant ≤ now := by
  rcases paced_cases ticket' grant now with ⟨-, same⟩ | ⟨reached, same⟩
  · cases returns.trans same
  · cases returns.trans same
    exact ⟨rfl, rfl, reached⟩

theorem paced_not_failed (ticket : LeaseTicket) (grant now : Nat) (fault : LeaseFault) :
    .failed fault ≠ paced ticket grant now := by
  rcases paced_cases ticket grant now with ⟨-, same⟩ | ⟨-, same⟩
  · rw [same]
    exact Acquisition.noConfusion
  · rw [same]
    exact Acquisition.noConfusion

theorem paced_pending (ticket : LeaseTicket) (grant now : Nat) : (paced ticket grant now).pending ≤ 1 := by
  unfold paced
  split <;> simp [pending]

theorem resume_pending {a : Acquisition} (begun : ∀ transport timeout, a ≠ .requested transport timeout) {p : Pool}
    {now : Nat} (goesOn : (a.resume p now).2.2 ≠ a) : (a.resume p now).2.2.pending < a.pending := by
  cases a with
  | requested transport timeout => exact absurd rfl (begun transport timeout)
  | queued ticket key deadline =>
    simp only [resume] at goesOn ⊢
    rcases resumeQueued_cases p now ticket key deadline with
      ⟨_, _, grant, -, -, result⟩ | ⟨_, -, -, -, result⟩ | ⟨-, _, result⟩
    · rw [result]
      exact Nat.lt_succ_of_le (paced_pending ticket grant now)
    · rw [result] at goesOn
      exact absurd rfl goesOn
    · rw [result]
      exact Nat.zero_lt_two
  | pacing ticket grant =>
    simp only [resume, paced] at goesOn ⊢
    split at goesOn
    next reached => simp [reached, pending]
    next => exact absurd rfl goesOn
  | granted ticket instant => exact absurd rfl goesOn
  | failed fault => exact absurd rfl goesOn

end Acquisition

namespace Traffic

variable {t : Traffic} {moves : List (Nat × Move)} {now : Nat}

/-- Nobody can go on at the instant: whoever is taken up waits on. -/
def Rests (t : Traffic) (now : Nat) : Prop :=
  ∀ call a, t.calls call = some a → (a.resume t.pool now).2.2 = a

/-- A run from the empty pool up to an instant of the clock. -/
inductive Prompt : List (Nat × Move) → Nat → Prop where
  | start : Prompt [] 0
  | tick {moves : List (Nat × Move)} {now : Nat} (prompt : Prompt moves now) (rests : (empty.run moves).Rests now) :
    Prompt moves (now + 1)
  | move {moves : List (Nat × Move)} {now : Nat} (prompt : Prompt moves now) (move : Move) :
    Prompt (moves ++ [(now, move)]) now

/-- The clock runs on as long as nobody can go on. -/
theorem Prompt.wait (prompt : Prompt moves now) {later : Nat} (order : now ≤ later)
    (rests : ∀ instant, now ≤ instant → instant < later → (empty.run moves).Rests instant) : Prompt moves later := by
  induction later, order using Nat.le_induction with
  | base => exact prompt
  | succ later order ih =>
    have waited := ih fun instant after before => rests instant after (Nat.lt_succ_of_lt before)
    exact waited.tick (rests later order (Nat.lt_succ_self _))

/-- The instants of the moves are those that the clock showed. -/
theorem Prompt.before {before after : List (Nat × Move)} {move : Move} {instant : Nat}
    (prompt : Prompt (before ++ (instant, move) :: after) now) : Prompt before instant := by
  generalize split : before ++ (instant, move) :: after = moves at prompt
  induction prompt generalizing after with
  | start => simp at split
  | tick _ _ ih => exact ih split
  | move prompt last ih =>
    rcases split_append split.symm with ⟨rest, inside⟩ | ⟨earlier, rfl, lasts⟩
    · exact ih inside.symm
    · cases earlier with
      | nil =>
        cases lasts
        exact List.append_nil _ ▸ prompt
      | cons _ earlier => simp at lasts

/-! ### Settling an instant -/

/-- All acquisitions that are kept have begun. -/
theorem run_begun (moves : List (Nat × Move)) {call : Nat} {a : Acquisition}
    (present : (empty.run moves).calls call = some a) (transport : TransportName) (timeout : Nat) :
    a ≠ .requested transport timeout := by
  refine run_induction (motive := fun t => ∀ call a, t.calls call = some a →
    ∀ transport timeout, a ≠ .requested transport timeout) empty (by simp [empty]) ?_ moves call a present transport
    timeout
  intro t now move begun call a present transport timeout
  obtain ⟨b, same, turned⟩ : ∃ b, some a = b ∧ t.Becomes now call move b := ⟨_, present.symm, becomes t now move call⟩
  have paced (ticket : LeaseTicket) (grant : Nat) :
      Acquisition.paced ticket grant now ≠ .requested transport timeout := by
    unfold Acquisition.paced
    split <;> simp
  cases turned with
  | same apart => exact begun call a same.symm transport timeout
  | @begun name span new =>
    cases same
    rcases start_cases t.pool name span now with ⟨ticket, grant, paces⟩ | ⟨_, _, _, queues⟩ | ⟨_, fails⟩
    · exact paces ▸ paced ticket grant
    · simp [queues]
    · simp [fails]
  | @resumed old waits started =>
    cases same
    cases old with
    | requested name span => exact absurd rfl (started name span)
    | queued ticket key deadline =>
      simp only [Acquisition.resume]
      rcases Acquisition.resumeQueued_cases t.pool now ticket key deadline with
        ⟨_, _, grant, -, -, result⟩ | ⟨_, -, -, -, result⟩ | ⟨-, _, result⟩
      · exact result ▸ paced ticket grant
      · simp [result]
      · simp [result]
    | pacing ticket grant => exact paced ticket grant
    | granted ticket instant => simp [Acquisition.resume]
    | failed fault => simp [Acquisition.resume]
  | timedOut queued due => simp [Option.some.inj same]
  | cancelled waits => cases same
  | detached granted => cases same

/-- How often the acquisitions can still go on, all together. -/
def pending (t : Traffic) : Nat :=
  ∑ call ∈ Finset.range t.pool.nextLease, ((t.calls call).map (·.pending)).getD 0

theorem pending_step {call : Nat} {a : Acquisition} (present : t.calls call = some a)
    (issued : call < t.pool.nextLease) (begun : ∀ transport timeout, a ≠ .requested transport timeout)
    (goesOn : (a.resume t.pool now).2.2 ≠ a) : (t.step now (.resume call)).pending < t.pending := by
  have next : (t.step now (.resume call)).pool.nextLease = t.pool.nextLease := by
    rcases nextLease_step t now (.resume call) with ⟨-, same⟩ | ⟨_, _, other, -⟩
    · exact same
    · cases other
  have less := Acquisition.resume_pending begun goesOn
  rw [pending, pending, next, step_resume present begun now]
  refine Finset.sum_lt_sum (fun other _ => ?_) ⟨call, Finset.mem_range.mpr issued, ?_⟩
  · by_cases mine : other = call
    · subst mine
      simpa [keep, present] using Nat.le_of_lt less
    · simp [keep, mine]
  · simpa [keep, present] using less

/-- After finitely many moves at an instant nobody can go on. -/
theorem Prompt.settles (prompt : Prompt moves now) :
    ∃ more, (∀ entry ∈ more, ∃ call, entry = (now, .resume call)) ∧ Prompt (moves ++ more) now ∧
      (empty.run (moves ++ more)).Rests now := by
  induction rank : (empty.run moves).pending using Nat.strong_induction_on generalizing moves with
  | h n ih =>
    by_cases rests : (empty.run moves).Rests now
    · exact ⟨[], by simp, by rwa [List.append_nil], by rwa [List.append_nil]⟩
    · simp only [Rests, not_forall] at rests
      obtain ⟨call, a, present, goesOn⟩ := rests
      have less := pending_step present ((run_sound moves).calls_issued call a present) (run_begun moves present) goesOn
      obtain ⟨more, resumes, prompt', rests⟩ :=
        ih _ (rank ▸ less) (prompt.move (.resume call)) (by rw [run_append]; rfl)
      refine ⟨(now, .resume call) :: more, fun entry member => ?_, ?_, ?_⟩
      · rcases List.mem_cons.mp member with rfl | later
        · exact ⟨call, rfl⟩
        · exact resumes entry later
      · rwa [List.append_assoc] at prompt'
      · rwa [List.append_assoc] at rests

end Traffic

end RelayRamp.Lease
