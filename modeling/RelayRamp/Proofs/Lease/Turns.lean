import Mathlib.Data.List.Nodup
import RelayRamp.Proofs.Lease.Balance

/-!
# The turns of an operation

Whichever operation serves a queue, each turn in it is decided by the grants made up to then: what a waiter is handed,
or comes too late for, is the earliest instant that keeps the rate delay in force to the last grant at that moment.
Nobody leaves the queue without a turn or by itself, and whoever is handed a slot has it pending afterwards.
-/
namespace RelayRamp.Lease

open RelayRamp.Routing

namespace Slot

/-- The slots after turns, taken one after the other. -/
def takeAll (s : Slot) (turns : List Turn) : Slot := turns.foldl take s

/-- The earliest grants are the same. -/
def SamePace (s s' : Slot) : Prop := s'.lastGrant = s.lastGrant ∧ s'.rateDelay = s.rateDelay

theorem SamePace.nextGrant {s s' : Slot} (same : s.SamePace s') (now : Nat) : s'.nextGrant now = s.nextGrant now := by
  rw [Slot.nextGrant, Slot.nextGrant, same.1, same.2]

theorem SamePace.turn {s s' : Slot} (same : s.SamePace s') (now : Nat) (w : Waiter) : s'.turn now w = s.turn now w := by
  rw [Slot.turn, Slot.turn, same.nextGrant]

theorem SamePace.takeAll {s s' : Slot} (same : s.SamePace s') (turns : List Turn) :
    (s.takeAll turns).SamePace (s'.takeAll turns) := by
  induction turns generalizing s s' with
  | nil => exact same
  | cons turn rest ih =>
    refine ih ?_
    cases turn with
    | handed waiter grant => exact ⟨rfl, same.2⟩
    | late waiter earliest => exact same
    | deaf waiter => exact same

theorem takeAll_append (s : Slot) (turns more : List Turn) :
    s.takeAll (turns ++ more) = (s.takeAll turns).takeAll more :=
  List.foldl_append

theorem nextGrant_ge (s : Slot) (now : Nat) : now ≤ s.nextGrant now := by
  unfold nextGrant
  cases s.lastGrant with
  | none => exact Nat.le_refl _
  | some last => exact Nat.le_max_right _ _

/-- What serving does to a queue and to the last grant: the head of the queue takes turns in order, the rest waits. -/
structure Passes (now : Nat) (s : Slot) (r : Slot × List Turn) : Prop where
  pace : (s.takeAll r.2).SamePace r.1
  rest : r.1.waiters = s.waiters.drop r.2.length
  turns : ∀ before turn after, r.2 = before ++ turn :: after →
    ∃ w, s.waiters[before.length]? = some w ∧ turn = (s.takeAll before).turn now w

namespace Passes

variable {now : Nat} {s : Slot} {r : Slot × List Turn}

theorem refl (s : Slot) : Passes now s (s, []) where
  pace := ⟨rfl, rfl⟩
  rest := rfl
  turns := fun before turn after none => by simp at none

theorem trans {r' : Slot × List Turn} (first : Passes now s r) (next : Passes now r.1 r') :
    Passes now s (r'.1, r.2 ++ r'.2) where
  pace := by
    have along := first.pace.takeAll r'.2
    rw [← takeAll_append] at along
    exact ⟨next.pace.1.trans along.1, next.pace.2.trans along.2⟩
  rest := by
    rw [next.rest, first.rest, List.drop_drop, List.length_append]
  turns := by
    intro before turn after split
    rcases List.append_eq_append_iff.mp split with ⟨earlier, rfl, later⟩ | ⟨rest, taken, later⟩
    · obtain ⟨w, member, same⟩ := next.turns earlier turn after later
      rw [first.rest, List.getElem?_drop] at member
      refine ⟨w, by rw [List.length_append, member], ?_⟩
      rw [takeAll_append, same, (first.pace.takeAll earlier).turn]
    · cases rest with
      | nil =>
        rw [List.append_nil] at taken
        obtain ⟨w, member, same⟩ := next.turns [] turn after later.symm
        rw [first.rest, List.getElem?_drop, taken] at member
        refine ⟨w, member, same.trans ?_⟩
        rw [← taken]
        exact first.pace.turn now w
      | cons turn' rest =>
        cases later
        exact first.turns before turn rest taken

/-- Only the queue, the last grant and the spacing matter for what is served. -/
theorem of_same {s' : Slot} (passes : Passes now s' r) (same : s.SamePace s') (waiters : s'.waiters = s.waiters) :
    Passes now s r where
  pace := by
    have along := same.takeAll r.2
    exact ⟨passes.pace.1.trans along.1, passes.pace.2.trans along.2⟩
  rest := waiters ▸ passes.rest
  turns := by
    intro before turn after split
    obtain ⟨w, member, taken⟩ := passes.turns before turn after split
    exact ⟨w, waiters ▸ member, taken.trans ((same.takeAll before).turn now w)⟩

/-- The turns are those of the waiters at the head, in their order. -/
theorem order (passes : Passes now s r) : r.2.map Turn.waiter ++ r.1.waiters.map (·.id) = s.waiters.map (·.id) := by
  have heads : r.2.map Turn.waiter = (s.waiters.take r.2.length).map (·.id) := by
    refine List.ext_getElem? fun i => ?_
    rw [List.getElem?_map, List.getElem?_map, List.getElem?_take]
    split
    next inside =>
      have split : r.2 = r.2.take i ++ r.2[i] :: r.2.drop (i + 1) := by
        rw [List.getElem_cons_drop, List.take_append_drop]
      obtain ⟨w, member, same⟩ := passes.turns _ _ _ split
      rw [List.length_take, Nat.min_eq_left (Nat.le_of_lt inside)] at member
      rw [member, List.getElem?_eq_getElem inside, same]
      exact congrArg some (turn_waiter _ now w)
    next outside => rw [List.getElem?_eq_none (Nat.not_lt.mp outside), Option.map_none, Option.map_none]
  rw [heads, passes.rest, ← List.map_append, List.take_append_drop]

/-- Whoever leaves the queue has had its turn. -/
theorem left (passes : Passes now s r) {w : Waiter} (queued : w ∈ s.waiters) :
    w ∈ r.1.waiters ∨ ∃ turn ∈ r.2, turn.waiter = w.id := by
  rw [← List.take_append_drop r.2.length s.waiters] at queued
  rcases List.mem_append.mp queued with head | later
  · refine Or.inr (List.mem_map.mp ?_)
    have order := passes.order
    rw [passes.rest, ← List.take_append_drop r.2.length s.waiters, List.map_append,
      List.take_append_drop] at order
    exact List.append_cancel_right order ▸ List.mem_map_of_mem head
  · exact Or.inl (passes.rest ▸ later)

end Passes

theorem serve_passes (now : Nat) (ws : List Waiter) (s : Slot) :
    Passes now { s with waiters := ws } (serve now ws s) := by
  induction ws, s using serve_induction now with
  | done s => exact .refl _
  | full w rest s full => exact .refl _
  | free w rest s free ih =>
    have first : Passes now { s with waiters := w :: rest }
        ({ s.take (s.turn now w) with waiters := rest }, [s.turn now w]) := by
      refine ⟨?_, rfl, ?_⟩
      · rcases turn_cases s now w with ⟨-, late⟩ | ⟨-, hands⟩ | ⟨-, deaf⟩
        · rw [late]
          exact ⟨rfl, rfl⟩
        · rw [hands]
          exact ⟨rfl, rfl⟩
        · rw [deaf]
          exact ⟨rfl, rfl⟩
      · intro before turn after split
        cases before with
        | nil =>
          cases split
          exact ⟨w, rfl, rfl⟩
        | cons other before => simp at split
    exact first.trans ih

/-- A turn comes only while a slot is free. -/
theorem serve_roomy {now : Nat} {ws : List Waiter} {s : Slot} {before after : List Turn} {turn : Turn}
    (taken : (serve now ws s).2 = before ++ turn :: after) : (s.takeAll before).occupied < s.capacity := by
  induction ws generalizing s before with
  | nil => simp [serve] at taken
  | cons w rest ih =>
    rcases Nat.lt_or_ge s.occupied s.capacity with free | full
    · rw [serve_free free] at taken
      cases before with
      | nil => exact free
      | cons first before =>
        obtain ⟨rfl, later⟩ := List.cons.inj taken
        exact (take_frame s _).1 ▸ ih later
    · rw [serve_full full] at taken
      simp at taken

theorem dispatch_passes (s : Slot) (now : Nat) : Passes now s (s.dispatch now) :=
  serve_passes now s.waiters s

theorem freeSlot_passes (s : Slot) (now : Nat) : Passes now s (s.freeSlot now) :=
  (dispatch_passes { s with occupied := s.occupied - 1 } now).of_same ⟨rfl, rfl⟩ rfl

theorem release_passes (s : Slot) (lease now : Nat) : Passes now s ((s.release lease now).getD (s, [])) := by
  by_cases held : lease ∈ s.leases.map (·.1)
  · rw [release_of_mem held]
    exact (freeSlot_passes { s with leases := s.leases.filter (·.1 ≠ lease) } now).of_same ⟨rfl, rfl⟩ rfl
  · rw [release_of_not_mem held]
    exact .refl s

theorem releaseAll_passes (now : Nat) (leases : List Nat) (s : Slot) : Passes now s (releaseAll now leases s) := by
  induction leases generalizing s with
  | nil => exact .refl s
  | cons lease rest ih => exact (release_passes s lease now).trans (ih _)

/-- The slots with the spacing that is in force when the operation serves the queue. -/
def pacedFor (s : Slot) (now : Nat) (op : Operation) : Slot := { s with rateDelay := (s.step now op).1.rateDelay }

/-- An operation serves the queue or takes no turns. -/
theorem step_passes (s : Slot) (now : Nat) (op : Operation) :
    Passes now (s.pacedFor now op) (s.step now op) ∨ (s.step now op).2 = [] := by
  have same (served : Passes now s (s.step now op)) (delay : (s.step now op).1.rateDelay = s.rateDelay) :
      Passes now (s.pacedFor now op) (s.step now op) := served.of_same ⟨rfl, delay.symm⟩ rfl
  cases op with
  | enter lease deadline => exact Or.inr rfl
  | claim waiter lease => exact Or.inr rfl
  | hangUp waiter cause => exact Or.inr rfl
  | leave waiter cause =>
    have delay := (leave_serves s waiter now).rateDelay
    rcases leave_cases s waiter now with ⟨-, left⟩ | ⟨-, -, given⟩ | ⟨-, -, gone⟩
    · exact Or.inr (congrArg Prod.snd left)
    · refine Or.inl (same ?_ delay)
      rw [step, given]
      exact (freeSlot_passes { s with handed := s.handed.filter (·.1 ≠ waiter) } now).of_same ⟨rfl, rfl⟩ rfl
    · exact Or.inr (congrArg Prod.snd gone)
  | release lease => exact Or.inl (same (release_passes s lease now) (release_serves s lease now).rateDelay)
  | reclaim maxHold => exact Or.inl (same (releaseAll_passes now _ s) (releaseAll_serves now _ s).rateDelay)
  | configure limits =>
    refine Or.inl ?_
    have served := dispatch_passes { s with capacity := limits.concurrency, rateDelay := limits.rateDelay } now
    exact served.of_same ⟨rfl, (configure_serves s limits now).rateDelay.symm⟩ rfl

/-- A turn in an operation is that of a waiter in the queue, decided by the grants made up to then. -/
theorem step_turn {s : Slot} {now : Nat} {op : Operation} {before after : List Turn} {turn : Turn}
    (taken : (s.step now op).2 = before ++ turn :: after) :
    ∃ w ∈ s.waiters, turn = ((s.pacedFor now op).takeAll before).turn now w := by
  rcases step_passes s now op with served | none
  · obtain ⟨w, member, same⟩ := served.turns before turn after taken
    exact ⟨w, List.mem_of_getElem? member, same⟩
  · simp [none] at taken

/-- A slot is handed out for an instant that is neither past nor after the deadline of its waiter, and only to one that
listens. -/
theorem handOff_bounds {s : Slot} {now : Nat} {op : Operation} {entry : Nat × Nat}
    (made : entry ∈ (s.step now op).2.filterMap Turn.handOff?) :
    now ≤ entry.2 ∧ ∃ w ∈ s.waiters, w.id = entry.1 ∧ w.listening = true ∧ entry.2 ≤ w.deadline := by
  obtain ⟨turn, taken, hands⟩ := List.mem_filterMap.mp made
  obtain ⟨before, after, split⟩ := List.append_of_mem taken
  obtain ⟨w, queued, same⟩ := step_turn split
  unfold Slot.turn at same
  split at same
  · rw [same] at hands
    cases hands
  next inTime =>
    split at same
    next listens =>
      rw [same] at hands
      cases hands
      exact ⟨nextGrant_ge _ now, w, queued, rfl, listens, Nat.not_lt.mp inTime⟩
    next =>
      rw [same] at hands
      cases hands

theorem enter_bounds {s : Slot} {now lease deadline grant : Nat}
    (granted : (s.enter now lease deadline).2 = .granted grant) : now ≤ grant ∧ grant ≤ deadline := by
  rcases enter_cases s now lease deadline with ⟨-, -, inTime, taken⟩ | ⟨-, -, -, refused⟩ | ⟨-, queued⟩
  · rw [taken] at granted
    cases granted
    exact ⟨nextGrant_ge s now, inTime⟩
  · rw [refused] at granted
    cases granted
  · rw [queued] at granted
    cases granted

/-- Whoever is no longer in the queue had its turn, or it went by itself. -/
theorem queue_kept {s : Slot} {w : Waiter} {op : Operation} (queued : w ∈ s.waiters) (now : Nat)
    (listens : ∀ cause, op ≠ .hangUp w.id cause) (stays : ∀ cause, op ≠ .leave w.id cause) :
    w ∈ (s.step now op).1.waiters ∨ ∃ turn ∈ (s.step now op).2, turn.waiter = w.id := by
  cases op with
  | enter lease deadline =>
    refine Or.inl ?_
    simp only [step]
    rcases enter_cases s now lease deadline with ⟨-, -, -, granted⟩ | ⟨-, -, -, refused⟩ | ⟨-, joined⟩
    · rwa [granted]
    · rwa [refused]
    · rw [joined]
      exact List.mem_append_left _ queued
  | claim waiter lease =>
    refine Or.inl ?_
    simp only [step]
    rcases claim_cases s waiter lease with ⟨grant, -, -, claimed⟩ | ⟨-, missing⟩
    · rwa [claimed]
    · rwa [missing]
  | hangUp waiter cause =>
    have other : w.id ≠ waiter := fun same => listens cause (same ▸ rfl)
    exact Or.inl (List.mem_map.mpr ⟨w, queued, if_neg other⟩)
  | leave waiter cause =>
    have other : w.id ≠ waiter := fun same => stays cause (same ▸ rfl)
    simp only [step]
    rcases leave_cases s waiter now with ⟨-, left⟩ | ⟨-, -, given⟩ | ⟨-, -, gone⟩
    · rw [left]
      exact Or.inl (List.mem_filter.mpr ⟨queued, by simpa using other⟩)
    · rw [given]
      exact (freeSlot_passes { s with handed := s.handed.filter (·.1 ≠ waiter) } now).left queued
    · rw [gone]
      exact Or.inl queued
  | release lease => exact (release_passes s lease now).left queued
  | reclaim maxHold => exact (releaseAll_passes now _ s).left queued
  | configure limits =>
    exact (dispatch_passes { s with capacity := limits.concurrency, rateDelay := limits.rateDelay } now).left queued

/-- Whoever claims a slot was handed it with the grant instant. -/
theorem claimed_handed {s s' : Slot} {waiter lease grant : Nat} (claimed : s.claim waiter lease = some (s', grant)) :
    (waiter, grant) ∈ s.handed := by
  rcases claim_cases s waiter lease with ⟨given, pending, -, taken⟩ | ⟨-, missing⟩
  · cases claimed.symm.trans taken
    exact pending
  · cases claimed.symm.trans missing

theorem unclaimed_unhanded {s : Slot} {waiter lease : Nat} (unclaimed : s.claim waiter lease = none) :
    waiter ∉ s.handed.map (·.1) := by
  rcases claim_cases s waiter lease with ⟨_, -, -, taken⟩ | ⟨absent, -⟩
  · cases unclaimed.symm.trans taken
  · exact absent

/-- A hand-off that an operation makes is pending afterwards. -/
theorem handOff_pending {s : Slot} {now : Nat} {op : Operation} {entry : Nat × Nat}
    (made : entry ∈ (s.step now op).2.filterMap Turn.handOff?) : entry ∈ (s.step now op).1.handed := by
  cases op with
  | enter lease deadline => simp [step] at made
  | claim waiter lease => simp [step] at made
  | hangUp waiter cause => simp [step] at made
  | leave waiter cause =>
    simp only [step] at made ⊢
    rcases leave_cases s waiter now with ⟨-, left⟩ | ⟨-, -, given⟩ | ⟨-, -, gone⟩
    · simp [left] at made
    · rw [given] at made ⊢
      simp only [freeSlot, dispatch, serve_handed]
      exact List.mem_append_right _ made
    · simp [gone] at made
  | release lease =>
    have all := releaseAll_handed now [lease] s
    simp only [releaseAll, List.append_nil] at all
    simp only [step, all]
    exact List.mem_append_right _ made
  | reclaim maxHold =>
    simp only [step, releaseAll_handed]
    exact List.mem_append_right _ made
  | configure limits =>
    simp only [step, configure, dispatch, serve_handed]
    exact List.mem_append_right _ made

/-- Whoever was passed over as late has no place any more. -/
theorem late_gone {s : Slot} (sound : s.Sound) {now : Nat} {op : Operation} {waiter earliest : Nat}
    (late : .late waiter earliest ∈ (s.step now op).2) : waiter ∉ (s.step now op).1.waiterIds := by
  rcases step_passes s now op with served | none
  · have places := List.nodup_append.mp sound.waiters_nodup
    have order : (s.step now op).2.map Turn.waiter ++ (s.step now op).1.waiters.map (·.id) = s.waiters.map (·.id) :=
      served.order
    have nodup := List.nodup_append.mp (order ▸ places.1)
    have queued : waiter ∈ s.waiters.map (·.id) :=
      order ▸ List.mem_append_left _ (List.mem_map_of_mem (f := Turn.waiter) late)
    intro member
    rcases List.mem_append.mp member with waits | pending
    · exact nodup.2.2 _ (List.mem_map_of_mem (f := Turn.waiter) late) _ waits rfl
    · obtain ⟨⟨owner, grant⟩, inside, rfl⟩ := List.mem_map.mp pending
      rcases mem_handed_step inside with old | new
      · exact places.2.2 _ queued _ (List.mem_map_of_mem old) rfl
      · obtain ⟨turn, taken, hands⟩ := List.mem_filterMap.mp new
        have same : turn.waiter = owner := by
          cases turn with
          | handed waiter' grant' => exact congrArg Prod.fst (Option.some.inj hands)
          | late waiter' earliest' => cases hands
          | deaf waiter' => cases hands
        rw [List.inj_on_of_nodup_map nodup.1 taken late same] at hands
        cases hands
  · simp [none] at late

end Slot

end RelayRamp.Lease
