import RelayRamp.Proofs.Lease.Callers

/-!
# Grants follow the order of arrival

`Registered` ties the record of the callers to the slots: the callers that wait are those in the queue that
still listen, in the same order, and every hand-off and every lease has the grant instant that was reserved for
its caller. A caller has a grant reserved only after every earlier caller has one that is a rate delay earlier,
or has an excuse. Every operation preserves this, turn by turn.
-/
namespace RelayRamp.Lease

open RelayRamp.Routing Caller

/-- The grant of a caller is reserved and is not after the last one. -/
def Slot.Reserved (s : Slot) (c : Caller) : Prop :=
  ∃ grant delay last, c.fate = .promised grant delay ∧ s.lastGrant = some last ∧ grant ≤ last

structure Registered (s : Slot) (callers : List Caller) : Prop where
  spaced : callers.Pairwise Before
  decided : ∀ c ∈ callers, c.fate = .waiting ∨ s.Reserved c ∨ c.Excused
  numbered : callers.Pairwise fun a b => ∀ v w, a.waiter = some v → b.waiter = some w → v < w
  issued : ∀ c ∈ callers, ∀ w, c.waiter = some w → w < s.nextWaiter
  queue_sorted : (s.waiters.map (·.id)).Pairwise (· < ·)
  queue_issued : ∀ w ∈ s.waiters, w.id < s.nextWaiter
  /-- Who waits is in the queue and listens. -/
  awaited : ∀ c ∈ callers, c.fate = .waiting →
    ∃ w ∈ s.waiters, w.listening = true ∧ c.waiter = some w.id ∧ c.deadline = w.deadline
  /-- Who is in the queue and listens waits. -/
  heard : ∀ w ∈ s.waiters, w.listening = true → ∃ c ∈ callers, c.waiter = some w.id ∧ c.fate = .waiting
  handed : ∀ entry ∈ s.handed,
    ∃ c ∈ callers, c.waiter = some entry.1 ∧ ∃ delay, c.fate = .promised entry.2 delay
  leases : ∀ entry ∈ s.leases,
    ∃ c ∈ callers, c.lease = entry.1 ∧ ∃ delay, c.fate = .promised entry.2 delay

theorem fresh_registered (limits : TransportLimits) : Registered (.fresh limits) [] := by
  constructor <;> simp [Slot.fresh]

namespace Slot

theorem GrantsOn.reserved {s s' : Slot} (on : s.GrantsOn s') {c : Caller} (reserved : s.Reserved c) :
    s'.Reserved c := by
  obtain ⟨grant, delay, last, fate, given, le⟩ := reserved
  obtain ⟨later, given', le'⟩ := on last given
  exact ⟨grant, delay, later, fate, given', Nat.le_trans le le'⟩

/-- A grant that is reserved next keeps the rate delay to all that are reserved. -/
theorem Reserved.before_next {s : Slot} {a : Caller} (reserved : s.Reserved a) (now : Nat) (b : Caller) :
    a.Before { b with fate := .promised (s.nextGrant now) s.rateDelay } := by
  rintro grant delay promised
  cases promised
  obtain ⟨earlier, delay', last, fate, given, le⟩ := reserved
  have spaced := nextGrant_spaced given now
  exact Or.inl ⟨earlier, delay', fate, by omega⟩

end Slot

/-! ### Deciding the fate of one caller -/

theorem mem_settle {callers : List Caller} {c : Caller} (member : c ∈ callers) (ended : c.fate ≠ .waiting)
    (waiter : Nat) (fate : Fate) : c ∈ callers.map (·.settle waiter fate) :=
  List.mem_map.mpr ⟨c, member, settle_of_fate ended⟩

theorem settle_spaced {callers : List Caller} {waiter : Nat} {fate : Fate}
    (spaced : callers.Pairwise Before)
    (turn : callers.Pairwise fun a b => b.waiter = some waiter → b.fate = .waiting →
      (a.settle waiter fate).Before { b with fate := fate }) :
    (callers.map (·.settle waiter fate)).Pairwise Before := by
  rw [List.pairwise_map]
  refine (spaced.and turn).imp ?_
  rintro a b ⟨before, turn⟩
  rcases settle_cases b waiter fate with ⟨mine, waits, settled⟩ | same
  · rw [settled]
    exact turn mine waits
  · rw [same]
    intro grant delay promised
    rw [settle_of_fate (before.not_waiting promised)]
    exact before grant delay promised

namespace Registered

variable {s s' : Slot} {callers : List Caller}

/-- The caller that waits under a number is decided and leaves the listening part of the queue. -/
theorem settle (h : Registered s callers) {waiter : Nat} {fate : Fate} (ended : fate ≠ .waiting)
    (turn : callers.Pairwise fun a b => b.waiter = some waiter → b.fate = .waiting →
      (a.settle waiter fate).Before { b with fate := fate })
    (fair : ∀ c ∈ callers, c.waiter = some waiter → c.fate = .waiting →
      s'.Reserved { c with fate := fate } ∨ Excused { c with fate := fate })
    (on : s.GrantsOn s') (next : s'.nextWaiter = s.nextWaiter)
    (queue : (s'.waiters.map (·.id)).Sublist (s.waiters.map (·.id)))
    (listening : ∀ w : Waiter, w.listening = true → (w ∈ s'.waiters ↔ w ∈ s.waiters ∧ w.id ≠ waiter))
    (handed : ∀ entry ∈ s'.handed, entry ∈ s.handed ∨
      ∃ c ∈ callers.map (·.settle waiter fate),
        c.waiter = some entry.1 ∧ ∃ delay, c.fate = .promised entry.2 delay)
    (leases : s'.leases = s.leases) : Registered s' (callers.map (·.settle waiter fate)) where
  spaced := settle_spaced h.spaced turn
  decided := by
    intro c' member
    obtain ⟨c, inside, rfl⟩ := List.mem_map.mp member
    rcases settle_cases c waiter fate with ⟨mine, waits, settled⟩ | same
    · rw [settled]
      exact Or.inr (fair c inside mine waits)
    · rw [same]
      rcases h.decided c inside with waits | reserved | excused
      · exact Or.inl waits
      · exact Or.inr (Or.inl (on.reserved reserved))
      · exact Or.inr (Or.inr excused)
  numbered := by
    rw [List.pairwise_map]
    refine h.numbered.imp fun {a b} less v w here there => ?_
    rw [(settle_frame a waiter fate).2.2] at here
    rw [(settle_frame b waiter fate).2.2] at there
    exact less v w here there
  issued := by
    intro c' member w number
    obtain ⟨c, inside, rfl⟩ := List.mem_map.mp member
    rw [(settle_frame c waiter fate).2.2] at number
    exact next ▸ h.issued c inside w number
  queue_sorted := h.queue_sorted.sublist queue
  queue_issued := by
    intro w member
    obtain ⟨v, inside, same⟩ := List.mem_map.mp (queue.mem (List.mem_map_of_mem member))
    rw [next, ← same]
    exact h.queue_issued v inside
  awaited := by
    intro c' member waits
    obtain ⟨c, inside, rfl⟩ := List.mem_map.mp member
    rcases settle_cases c waiter fate with ⟨-, -, settled⟩ | same
    · rw [settled] at waits
      exact absurd waits ended
    · rw [same] at waits ⊢
      obtain ⟨w, queued, listens, number, deadline⟩ := h.awaited c inside waits
      refine ⟨w, (listening w listens).mpr ⟨queued, fun mine => ?_⟩, listens, number, deadline⟩
      rw [settle_waiting (mine ▸ number) waits] at same
      exact ended ((congrArg Caller.fate same).trans waits)
  heard := by
    intro w member listens
    obtain ⟨queued, other⟩ := (listening w listens).mp member
    obtain ⟨c, inside, number, waits⟩ := h.heard w queued listens
    have different : c.waiter ≠ some waiter := fun mine => other (Option.some.inj (number.symm.trans mine))
    exact ⟨c, List.mem_map.mpr ⟨c, inside, settle_of_waiter different⟩, number, waits⟩
  handed := by
    intro entry member
    rcases handed entry member with old | new
    · obtain ⟨c, inside, number, delay, fate'⟩ := h.handed entry old
      exact ⟨c, mem_settle inside (by simp [fate']) waiter fate, number, delay, fate'⟩
    · exact new
  leases := by
    intro entry member
    rw [leases] at member
    obtain ⟨c, inside, lease, delay, fate'⟩ := h.leases entry member
    exact ⟨c, mem_settle inside (by simp [fate']) waiter fate, lease, delay, fate'⟩

/-- The callers do not change with slots that keep the listening queue and reserve nothing. -/
theorem keep (h : Registered s callers) (last : s'.lastGrant = s.lastGrant)
    (next : s'.nextWaiter = s.nextWaiter)
    (queue : (s'.waiters.map (·.id)).Sublist (s.waiters.map (·.id)))
    (listening : ∀ w : Waiter, w.listening = true → (w ∈ s'.waiters ↔ w ∈ s.waiters))
    (handed : ∀ entry ∈ s'.handed, entry ∈ s.handed)
    (leases : ∀ entry ∈ s'.leases,
      ∃ c ∈ callers, c.lease = entry.1 ∧ ∃ delay, c.fate = .promised entry.2 delay) :
    Registered s' callers where
  spaced := h.spaced
  decided := by
    intro c member
    rcases h.decided c member with waits | reserved | excused
    · exact Or.inl waits
    · exact Or.inr (Or.inl ((Slot.GrantsOn.of_eq last).reserved reserved))
    · exact Or.inr (Or.inr excused)
  numbered := h.numbered
  issued := next ▸ h.issued
  queue_sorted := h.queue_sorted.sublist queue
  queue_issued := by
    intro w member
    obtain ⟨v, inside, same⟩ := List.mem_map.mp (queue.mem (List.mem_map_of_mem member))
    rw [next, ← same]
    exact h.queue_issued v inside
  awaited := by
    intro c member waits
    obtain ⟨w, queued, listens, same⟩ := h.awaited c member waits
    exact ⟨w, (listening w listens).mpr queued, listens, same⟩
  heard := fun w member listens => h.heard w ((listening w listens).mp member) listens
  handed := fun entry member => h.handed entry (handed entry member)
  leases := leases

/-! ### A turn -/

/-- The head of the queue has the least number. -/
theorem head {w : Waiter} {rest : List Waiter} (h : Registered { s with waiters := w :: rest } callers)
    {v : Waiter} (member : v ∈ w :: rest) : v = w ∨ v ∈ rest ∧ w.id < v.id := by
  rcases List.mem_cons.mp member with same | other
  · exact Or.inl same
  · exact Or.inr ⟨other, (List.pairwise_cons.mp h.queue_sorted).1 _ (List.mem_map_of_mem other)⟩

theorem mem_rest {w : Waiter} {rest : List Waiter} (h : Registered { s with waiters := w :: rest } callers)
    (v : Waiter) : v ∈ rest ↔ v ∈ w :: rest ∧ v.id ≠ w.id := by
  constructor
  · intro member
    have less := (List.pairwise_cons.mp h.queue_sorted).1 _ (List.mem_map_of_mem member)
    exact ⟨List.mem_cons_of_mem _ member, Nat.ne_of_gt less⟩
  · rintro ⟨member, other⟩
    rcases h.head member with rfl | ⟨inside, -⟩
    · exact absurd rfl other
    · exact inside

/-- Nobody that arrived before the head of the queue still waits. -/
theorem none_before_head {w : Waiter} {rest : List Waiter}
    (h : Registered { s with waiters := w :: rest } callers) :
    callers.Pairwise fun a b => b.waiter = some w.id → a ∈ callers ∧ a.fate ≠ .waiting := by
  refine h.numbered.imp_of_mem fun {a b} here _ less mine => ⟨here, fun waits => ?_⟩
  obtain ⟨v, queued, -, number, -⟩ := h.awaited a here waits
  have first := less _ _ number mine
  rcases h.head queued with rfl | ⟨-, later⟩
  · exact Nat.lt_irrefl _ first
  · exact Nat.lt_asymm first later

theorem take {w : Waiter} {rest : List Waiter} (h : Registered { s with waiters := w :: rest } callers)
    (now : Nat) :
    Registered { s.take (s.turn now w) with waiters := rest }
      (callers.map (·.heed s.rateDelay (s.turn now w))) := by
  rcases Slot.turn_cases s now w with ⟨past, late⟩ | ⟨listens, hands⟩ | ⟨silent, deaf⟩
  · rw [late]
    refine h.settle (fun same => by cases same) ?_ ?_ (.of_eq rfl) rfl (List.sublist_cons_self ..)
      (fun v _ => h.mem_rest v) (fun entry member => Or.inl member) rfl
    · exact h.spaced.imp fun _ _ _ _ _ promised => by cases promised
    · intro c member mine waits
      obtain ⟨v, queued, -, number, deadline⟩ := h.awaited c member waits
      have same : v.id = w.id := Option.some.inj (number.symm.trans mine)
      rcases h.head queued with rfl | ⟨-, later⟩
      · exact Or.inr (show c.deadline < s.nextGrant now from deadline ▸ past)
      · omega
  · rw [hands]
    obtain ⟨c, inside, number, waits⟩ := h.heard w (List.mem_cons_self ..) listens
    refine h.settle (fun same => by cases same) ?_ ?_ (Slot.grantsOn_next s _ rfl) rfl
      (List.sublist_cons_self ..) (fun v _ => h.mem_rest v) ?_ rfl
    · -- Everyone before the head is decided, so the next grant is spaced from all reserved ones.
      refine h.none_before_head.imp ?_
      intro a b decided mine _
      obtain ⟨here, ended⟩ := decided mine
      rw [settle_of_fate ended]
      rcases h.decided a here with waits | reserved | excused
      · exact absurd waits ended
      · exact reserved.before_next now b
      · exact fun _ _ _ => Or.inr excused
    · intro _ _ _ _
      exact Or.inl ⟨s.nextGrant now, s.rateDelay, s.nextGrant now, rfl, rfl, Nat.le_refl _⟩
    · intro entry member
      rcases mem_snoc_iff.mp member with old | rfl
      · exact Or.inl old
      · exact Or.inr ⟨_, List.mem_map_of_mem inside, by rw [settle_waiting number waits]; exact number,
          s.rateDelay, by rw [settle_waiting number waits]⟩
  · rw [deaf]
    have same : callers.map (·.heed s.rateDelay (.deaf w.id)) = callers := List.map_id _
    rw [same]
    refine h.keep rfl rfl (List.sublist_cons_self ..) ?_ (fun entry member => member) h.leases
    intro v listens
    constructor
    · exact List.mem_cons_of_mem _
    · intro member
      rcases h.head member with rfl | ⟨inside, -⟩
      · rw [silent] at listens
        cases listens
      · exact inside

theorem serve (now : Nat) {ws : List Waiter} (h : Registered { s with waiters := ws } callers) :
    Registered (Slot.serve now ws s).1 (heedAll s.rateDelay (Slot.serve now ws s).2 callers) := by
  induction ws, s using Slot.serve_induction now generalizing callers with
  | done s => exact h
  | full w rest s full => exact h
  | free w rest s free ih =>
    have served := ih (h.take now)
    rw [(Slot.take_frame s _).2.1] at served
    exact served

/-! ### An operation -/

/-- The slots are served after a change that keeps the record. -/
theorem dispatch (h : Registered s callers) (now : Nat) :
    Registered (s.dispatch now).1 (heedAll s.rateDelay (s.dispatch now).2 callers) :=
  serve now h

theorem freeSlot (h : Registered s callers) (now : Nat) :
    Registered (s.freeSlot now).1 (heedAll s.rateDelay (s.freeSlot now).2 callers) :=
  dispatch (s := { s with occupied := s.occupied - 1 })
    (h.keep rfl rfl (List.Sublist.refl _) (fun _ _ => Iff.rfl) (fun _ member => member) h.leases) now

theorem release (h : Registered s callers) (lease now : Nat) :
    Registered ((s.release lease now).getD (s, [])).1
      (heedAll s.rateDelay ((s.release lease now).getD (s, [])).2 callers) := by
  by_cases held : lease ∈ s.leases.map (·.1)
  · rw [Slot.release_of_mem held]
    refine freeSlot (s := { s with leases := s.leases.filter (·.1 ≠ lease) }) ?_ now
    exact h.keep rfl rfl (List.Sublist.refl _) (fun _ _ => Iff.rfl) (fun _ member => member)
      fun entry member => h.leases entry (List.mem_filter.mp member).1
  · rw [Slot.release_of_not_mem held]
    exact h

theorem releaseAll (h : Registered s callers) (now : Nat) (leases : List Nat) :
    Registered (Slot.releaseAll now leases s).1
      (heedAll s.rateDelay (Slot.releaseAll now leases s).2 callers) := by
  induction leases generalizing s callers with
  | nil => exact h
  | cons lease rest ih =>
    have others := ih (h.release lease now)
    rw [(Slot.release_serves s lease now).rateDelay, ← heedAll_append] at others
    exact others

theorem configure (h : Registered s callers) (limits : TransportLimits) (now : Nat) :
    Registered (s.configure limits now).1
      (heedAll limits.rateDelay (s.configure limits now).2 callers) :=
  dispatch (s := { s with capacity := limits.concurrency, rateDelay := limits.rateDelay })
    (h.keep rfl rfl (List.Sublist.refl _) (fun _ _ => Iff.rfl) (fun _ member => member) h.leases) now

/-- A caller enters that is decided at once. -/
theorem enrol (h : Registered s callers) {c : Caller} (before : ∀ a ∈ callers, a.Before c)
    (decided : s'.Reserved c ∨ c.Excused) (unqueued : c.waiter = none) (on : s.GrantsOn s')
    (waiters : s'.waiters = s.waiters) (next : s'.nextWaiter = s.nextWaiter)
    (handed : s'.handed = s.handed)
    (leases : ∀ entry ∈ s'.leases, entry ∈ s.leases ∨
      c.lease = entry.1 ∧ ∃ delay, c.fate = .promised entry.2 delay) :
    Registered s' (callers ++ [c]) where
  spaced := pairwise_snoc h.spaced before
  decided := by
    intro a member
    rcases mem_snoc_iff.mp member with old | rfl
    · rcases h.decided a old with waits | reserved | excused
      · exact Or.inl waits
      · exact Or.inr (Or.inl (on.reserved reserved))
      · exact Or.inr (Or.inr excused)
    · exact Or.inr decided
  numbered := by
    refine pairwise_snoc h.numbered fun a _ v w _ number => ?_
    rw [unqueued] at number
    cases number
  issued := by
    intro a member w number
    rcases mem_snoc_iff.mp member with old | rfl
    · exact next ▸ h.issued a old w number
    · rw [unqueued] at number
      cases number
  queue_sorted := waiters ▸ h.queue_sorted
  queue_issued := waiters ▸ next ▸ h.queue_issued
  awaited := by
    intro a member waits
    rcases mem_snoc_iff.mp member with old | rfl
    · exact waiters ▸ h.awaited a old waits
    · rcases decided with ⟨grant, delay, last, fate, -⟩ | excused
      · rw [fate] at waits
        cases waits
      · exact absurd excused (waiting_unexcused waits)
  heard := fun w member listens => exists_snoc (h.heard w (waiters ▸ member) listens)
  handed := fun entry member => exists_snoc (h.handed entry (handed ▸ member))
  leases := by
    intro entry member
    rcases leases entry member with old | new
    · exact exists_snoc (h.leases entry old)
    · exact ⟨c, mem_snoc_iff.mpr (Or.inr rfl), new⟩

/-- A caller enters and waits at the end of the queue. -/
theorem join (h : Registered s callers) (lease deadline : Nat) :
    Registered
      { s with
        waiters := s.waiters ++ [⟨s.nextWaiter, deadline, true⟩]
        nextWaiter := s.nextWaiter + 1 }
      (callers ++ [⟨lease, deadline, some s.nextWaiter, .waiting⟩]) where
  spaced := pairwise_snoc h.spaced fun _ _ _ _ promised => by cases promised
  decided := by
    intro a member
    rcases mem_snoc_iff.mp member with old | rfl
    · exact h.decided a old
    · exact Or.inl rfl
  numbered := by
    refine pairwise_snoc h.numbered fun a here v w mine number => ?_
    cases number
    exact h.issued a here v mine
  issued := by
    intro a member w number
    rcases mem_snoc_iff.mp member with old | rfl
    · exact Nat.lt_succ_of_lt (h.issued a old w number)
    · cases number
      exact Nat.lt_succ_self _
  queue_sorted := by
    rw [List.map_append]
    refine pairwise_snoc h.queue_sorted fun v old => ?_
    obtain ⟨w, inside, rfl⟩ := List.mem_map.mp old
    exact h.queue_issued w inside
  queue_issued := by
    intro w member
    rcases mem_snoc_iff.mp member with old | rfl
    · exact Nat.lt_succ_of_lt (h.queue_issued w old)
    · exact Nat.lt_succ_self _
  awaited := by
    intro a member waits
    rcases mem_snoc_iff.mp member with old | rfl
    · exact exists_snoc (h.awaited a old waits)
    · exact ⟨_, mem_snoc_iff.mpr (Or.inr rfl), rfl, rfl, rfl⟩
  heard := by
    intro w member listens
    rcases mem_snoc_iff.mp member with old | rfl
    · exact exists_snoc (h.heard w old listens)
    · exact ⟨_, mem_snoc_iff.mpr (Or.inr rfl), rfl, rfl⟩
  handed := fun entry member => exists_snoc (h.handed entry member)
  leases := fun entry member => exists_snoc (h.leases entry member)

/-- Without a queue, everyone that came before is decided. -/
theorem decided_of_empty (h : Registered s callers) (none : s.waiters = []) {c : Caller}
    (member : c ∈ callers) : s.Reserved c ∨ c.Excused := by
  rcases h.decided c member with waits | ended
  · obtain ⟨w, queued, -⟩ := h.awaited c member waits
    rw [none] at queued
    cases queued
  · exact ended

theorem enter (h : Registered s callers) (now lease deadline : Nat) :
    Registered (s.enter now lease deadline).1 (callers ++ [s.enrol now lease deadline]) := by
  rcases Slot.enter_cases s now lease deadline with
    ⟨none, -, -, granted⟩ | ⟨-, -, past, refused⟩ | ⟨-, queued⟩
  · simp only [Slot.enrol, granted]
    refine h.enrol ?_ ?_ rfl (Slot.grantsOn_next s _ rfl) rfl rfl rfl ?_
    · intro a member
      rcases h.decided_of_empty none member with reserved | excused
      · exact reserved.before_next now ⟨lease, deadline, Option.none, .waiting⟩
      · exact fun _ _ _ => Or.inr excused
    · exact Or.inl ⟨s.nextGrant now, s.rateDelay, s.nextGrant now, rfl, rfl, Nat.le_refl _⟩
    · intro entry member
      rcases mem_snoc_iff.mp member with old | rfl
      · exact Or.inl old
      · exact Or.inr ⟨rfl, s.rateDelay, rfl⟩
  · simp only [Slot.enrol, refused]
    refine h.enrol ?_ (Or.inr past) rfl (.of_eq rfl) rfl rfl rfl fun entry member => Or.inl member
    intro a _ grant delay promised
    cases promised
  · simp only [Slot.enrol, queued]
    exact h.join lease deadline

theorem claim (h : Registered s callers) {waiter lease : Nat}
    (own : ∀ c ∈ callers, c.waiter = some waiter → c.lease = lease) :
    Registered (((s.claim waiter lease).map (·.1)).getD s) callers := by
  rcases Slot.claim_cases s waiter lease with ⟨grant, member, -, claimed⟩ | ⟨-, missing⟩
  · rw [claimed]
    refine h.keep rfl rfl (List.Sublist.refl _) (fun _ _ => Iff.rfl)
      (fun entry inside => (List.mem_filter.mp inside).1) ?_
    intro entry inside
    rcases mem_snoc_iff.mp inside with old | rfl
    · exact h.leases entry old
    · obtain ⟨c, recorded, number, fate⟩ := h.handed _ member
      exact ⟨c, recorded, own c recorded number, fate⟩
  · rw [missing]
    exact h

/-- A waiting caller gives up, out of time only if its deadline is reached. -/
theorem quit (h : Registered s callers) {waiter now : Nat} {cause : Cause}
    (due : cause = .expired → ∀ c ∈ callers, c.waiter = some waiter → c.fate = .waiting → c.deadline ≤ now)
    (last : s'.lastGrant = s.lastGrant) (next : s'.nextWaiter = s.nextWaiter)
    (queue : (s'.waiters.map (·.id)).Sublist (s.waiters.map (·.id)))
    (listening : ∀ w : Waiter, w.listening = true → (w ∈ s'.waiters ↔ w ∈ s.waiters ∧ w.id ≠ waiter))
    (handed : s'.handed = s.handed) (leases : s'.leases = s.leases) :
    Registered s' (callers.map (·.settle waiter (.gone cause now))) := by
  refine h.settle (fun same => by cases same) ?_ ?_ (.of_eq last) next queue listening
    (fun entry member => Or.inl (handed ▸ member)) leases
  · exact h.spaced.imp fun _ _ _ _ _ promised => by cases promised
  · intro c member mine waits
    refine Or.inr ?_
    cases cause with
    | cancelled => exact trivial
    | expired => exact due rfl c member mine waits

theorem hangUp (h : Registered s callers) {waiter now : Nat} {cause : Cause}
    (due : cause = .expired → ∀ c ∈ callers, c.waiter = some waiter → c.fate = .waiting → c.deadline ≤ now) :
    Registered (s.hangUp waiter) (callers.map (·.settle waiter (.gone cause now))) := by
  refine h.quit due rfl rfl ?_ ?_ rfl rfl
  · have same : (s.hangUp waiter).waiters.map (·.id) = s.waiters.map (·.id) := by
      simp only [Slot.hangUp, List.map_map]
      refine List.map_congr_left fun w _ => ?_
      by_cases mine : w.id = waiter <;> simp [mine]
    exact same ▸ List.Sublist.refl _
  · intro w listens
    simp only [Slot.hangUp, List.mem_map]
    constructor
    · rintro ⟨v, member, same⟩
      by_cases mine : v.id = waiter
      · rw [if_pos mine] at same
        subst same
        cases listens
      · rw [if_neg mine] at same
        exact same ▸ ⟨member, mine⟩
    · rintro ⟨member, other⟩
      exact ⟨w, member, if_neg other⟩

/-- A number that is not in the queue is not that of a waiting caller. -/
theorem settle_absent (h : Registered s callers) {waiter : Nat} (absent : waiter ∉ s.waiters.map (·.id))
    (fate : Fate) : callers.map (·.settle waiter fate) = callers := by
  refine (List.map_congr_left fun c member => ?_).trans (List.map_id _)
  rcases settle_cases c waiter fate with ⟨mine, waits, -⟩ | same
  · obtain ⟨w, queued, -, number, -⟩ := h.awaited c member waits
    rw [mine] at number
    exact absurd (Option.some.inj number ▸ List.mem_map_of_mem queued) absent
  · exact same

theorem leave (h : Registered s callers) {waiter now : Nat} {cause : Cause}
    (due : cause = .expired → ∀ c ∈ callers, c.waiter = some waiter → c.fate = .waiting → c.deadline ≤ now) :
    Registered (s.leave waiter now).1
      (heedAll (s.leave waiter now).1.rateDelay (s.leave waiter now).2
        (callers.map (·.settle waiter (.gone cause now)))) := by
  rcases Slot.leave_cases s waiter now with ⟨-, left⟩ | ⟨absent, -, given⟩ | ⟨absent, -, gone⟩
  · rw [left]
    refine h.quit due rfl rfl (List.filter_sublist.map _) ?_ rfl rfl
    intro w _
    simp only [List.mem_filter, ne_eq, decide_not, Bool.not_eq_eq_eq_not, Bool.not_true, decide_eq_false_iff_not]
  · rw [given, h.settle_absent absent, (Slot.freeSlot_frame _ now).2.1]
    refine freeSlot (s := { s with handed := s.handed.filter (·.1 ≠ waiter) }) ?_ now
    exact h.keep rfl rfl (List.Sublist.refl _) (fun _ _ => Iff.rfl)
      (fun entry member => (List.mem_filter.mp member).1) h.leases
  · rw [gone, h.settle_absent absent]
    exact h

end Registered

/-- A claim is made under the lease of the waiter, and nobody runs out of time before its deadline. -/
def Operation.Fits (now : Nat) (callers : List Caller) : Operation → Prop
  | claim waiter lease => ∀ c ∈ callers, c.waiter = some waiter → c.lease = lease
  | hangUp waiter cause | leave waiter cause =>
    cause = .expired → ∀ c ∈ callers, c.waiter = some waiter → c.fate = .waiting → c.deadline ≤ now
  | enter .. | release _ | reclaim _ | configure _ => True

theorem step_registered {s : Slot} {callers : List Caller} (h : Registered s callers) (now : Nat)
    (op : Operation) (fits : op.Fits now callers) :
    Registered (s.step now op).1 (s.register now op callers) := by
  cases op with
  | enter lease deadline => exact h.enter now lease deadline
  | claim waiter lease => exact h.claim fits
  | hangUp waiter cause => exact h.hangUp fits
  | leave waiter cause => exact h.leave fits
  | release lease =>
    simp only [Slot.register, Slot.step, (Slot.release_serves s lease now).rateDelay]
    exact h.release lease now
  | reclaim maxHold =>
    simp only [Slot.register, Slot.step, (Slot.releaseAll_serves now _ s).rateDelay]
    exact h.releaseAll now _
  | configure limits =>
    simp only [Slot.register, Slot.step, (Slot.configure_serves s limits now).rateDelay]
    exact h.configure limits now

end RelayRamp.Lease
