import Mathlib.Data.List.Perm.Subperm
import RelayRamp.Proofs.Lease.Release
import RelayRamp.Proofs.Lease.Turns
import RelayRamp.Proofs.Lease.Wakeup

/-!
# Reclaiming exactly the expired leases

A reclaim ends the expired leases one after the other, and serves the queue after each. The leases are chosen before
the first slot is freed, so what waiters are handed on the way is not among them. Serving after each lease comes to the
same as freeing all the slots first and serving the queue once: the waiters take their turns in order of arrival until
nobody waits or every slot is taken.
-/
namespace RelayRamp.Lease

open RelayRamp.Admission RelayRamp.Routing

namespace Slot

/-! ### Serving after each lease or once -/

/-- The slots with other leases and that many slots fewer taken. -/
def lightened (s : Slot) (leases : List (Nat × Nat)) (k : Nat) : Slot :=
  { s with leases := leases, occupied := s.occupied - k }

theorem serve_queue (now : Nat) (ws waiters : List Waiter) (s : Slot) :
    serve now ws { s with waiters := waiters } = serve now ws s := by
  induction ws generalizing s with
  | nil => rfl
  | cons w rest ih =>
    have moved (turn : Turn) : take { s with waiters := waiters } turn = { s.take turn with waiters := waiters } := by
      cases turn <;> rfl
    have same : turn { s with waiters := waiters } now w = s.turn now w := rfl
    simp only [serve, same, moved, ih]

theorem take_lightened {s : Slot} {k : Nat} (enough : k ≤ s.occupied) (leases : List (Nat × Nat)) (turn : Turn) :
    (s.lightened leases k).take turn = (s.take turn).lightened leases k := by
  cases turn with
  | handed waiter grant =>
    have count : s.occupied - k + 1 = s.occupied + 1 - k := by omega
    simp only [take, lightened, count]
  | late waiter earliest => rfl
  | deaf waiter => rfl

/-- Serving a queue and then once more with slots freed is serving it with those slots freed at first. -/
theorem serve_lightened (now : Nat) (leases : List (Nat × Nat)) (k : Nat) (ws : List Waiter) (s : Slot)
    (enough : k ≤ s.occupied) :
    serve now ws (s.lightened leases k) =
      ((((serve now ws s).1.lightened leases k).dispatch now).1,
        (serve now ws s).2 ++ (((serve now ws s).1.lightened leases k).dispatch now).2) := by
  induction ws, s using serve_induction now with
  | done s => rfl
  | full w rest s full => exact (serve_queue now (w :: rest) (w :: rest) (s.lightened leases k)).symm
  | free w rest s free ih =>
    have room : (s.lightened leases k).occupied < (s.lightened leases k).capacity :=
      Nat.lt_of_le_of_lt (Nat.sub_le ..) free
    have kept : k ≤ (s.take (s.turn now w)).occupied := by
      rw [take_occupied]
      exact Nat.le_add_right_of_le enough
    have same : (s.lightened leases k).turn now w = s.turn now w := rfl
    rw [serve_free room, same, take_lightened enough, ih kept]
    rfl

/-- The slots without some of the leases. -/
def vacated (s : Slot) (leases : List Nat) : Slot :=
  s.lightened (s.leases.filter (·.1 ∉ leases)) leases.length

theorem dispatch_of_busy {s : Slot} (busy : s.Busy) (now : Nat) : s.dispatch now = (s, []) := by
  by_cases waits : s.waiters = []
  · rw [dispatch, waits, serve, ← waits]
  · exact serve_full (busy waits) now s.waiters

/-- Ending leases one after the other serves the queue as freeing all their slots at once. -/
theorem releaseAll_eq (now : Nat) {leases : List Nat} {s : Slot} (sound : s.Sound) (busy : s.Busy)
    (nodup : leases.Nodup) (held : ∀ lease ∈ leases, lease ∈ s.leases.map (·.1)) :
    releaseAll now leases s = (s.vacated leases).dispatch now := by
  induction leases generalizing s with
  | nil =>
    have same : s.vacated [] = s := by simp [vacated, lightened]
    rw [same, dispatch_of_busy busy]
    rfl
  | cons lease rest ih =>
    obtain ⟨new, nodup'⟩ := List.nodup_cons.mp nodup
    have present := held lease (List.mem_cons_self ..)
    have released := release_of_mem present now
    have first := release_sound sound lease now
    have others := held_after_release held new now
    rw [released, Option.getD_some, freeSlot] at first others
    -- Every lease has a slot, so the count of taken slots does not stop at zero.
    have enough : rest.length ≤ s.occupied - 1 := by
      have count := (nodup.subperm held).length_le
      have balance := sound.balance
      rw [List.length_map, List.length_cons] at count
      omega
    rw [releaseAll, released, Option.getD_some, freeSlot]
    dsimp only
    rw [ih first (dispatch_busy _ now) nodup' others, vacated, (dispatch_frame _ now).2.2.1]
    have joined := serve_lightened now ((s.leases.filter (·.1 ≠ lease)).filter (·.1 ∉ rest)) rest.length s.waiters
      { s with leases := s.leases.filter (·.1 ≠ lease), occupied := s.occupied - 1 } enough
    refine joined.symm.trans ?_
    have leases : (s.leases.filter (·.1 ≠ lease)).filter (·.1 ∉ rest) = s.leases.filter (·.1 ∉ lease :: rest) := by
      rw [List.filter_filter]
      exact List.filter_congr fun entry _ => by simp [Bool.and_comm]
    rw [leases, dispatch, vacated, lightened, lightened, List.length_cons, Nat.sub_sub, Nat.add_comm 1]

/-- The slots without the expired leases, and the turns that the waiters take then. -/
def sweep (s : Slot) (maxHold now : Nat) : Slot × List Turn := (s.vacated (s.expired maxHold now)).dispatch now

theorem not_expired_iff {s : Slot} (sound : s.Sound) {entry : Nat × Nat} (member : entry ∈ s.leases)
    (maxHold now : Nat) : entry.1 ∉ s.expired maxHold now ↔ now ≤ entry.2 + maxHold := by
  rw [mem_expired]
  constructor
  · intro young
    by_contra late
    exact young ⟨entry.2, member, by omega⟩
  · rintro young ⟨grant, other, late⟩
    have same : grant = entry.2 := congrArg Prod.snd (List.inj_on_of_nodup_map sound.leases_nodup other member rfl)
    omega

/-- What a reclaim does to the slots of a transport. -/
structure Sweeps (maxHold now : Nat) (s : Slot) (r : Slot × List Turn) : Prop where
  leases : r.1.leases = s.leases.filter fun entry => now ≤ entry.2 + maxHold
  limits : r.1.capacity = s.capacity ∧ r.1.rateDelay = s.rateDelay
  /-- Hand-offs that are not claimed yet stay. -/
  handed : r.1.handed = s.handed ++ r.2.filterMap Turn.handOff?
  /-- One slot is freed for each expired lease, and one taken by each hand-off. -/
  occupied : r.1.occupied + (s.expired maxHold now).length = s.occupied + (r.2.filterMap Turn.handOff?).length
  /-- The waiters have their turns in order of arrival. -/
  offered : Passes now s r
  /-- Each has its turn while a slot is free. -/
  roomy : ∀ before turn after, r.2 = before ++ turn :: after →
    ((s.vacated (s.expired maxHold now)).takeAll before).occupied < s.capacity
  exhausted : r.1.waiters = [] ∨ r.1.capacity ≤ r.1.occupied

theorem releaseAll_expired {s : Slot} (sound : s.Sound) (busy : s.Busy) (maxHold now : Nat) :
    releaseAll now (s.expired maxHold now) s = s.sweep maxHold now :=
  releaseAll_eq now sound busy (expired_nodup sound maxHold now) fun _ expired => expired_held expired

theorem sweep_sweeps {s : Slot} (sound : s.Sound) (busy : s.Busy) (maxHold now : Nat) :
    Sweeps maxHold now s (s.sweep maxHold now) where
  leases := by
    rw [sweep, (dispatch_frame _ now).2.2.1]
    exact List.filter_congr fun entry member => decide_eq_decide.mpr (not_expired_iff sound member maxHold now)
  limits := ⟨(dispatch_frame _ now).1, (dispatch_frame _ now).2.1⟩
  handed := serve_handed now s.waiters (s.vacated (s.expired maxHold now))
  occupied := by
    rw [← releaseAll_expired sound busy]
    exact releaseAll_counts now sound (expired_nodup sound maxHold now) fun _ expired => expired_held expired
  offered := (dispatch_passes (s.vacated (s.expired maxHold now)) now).of_same ⟨rfl, rfl⟩ rfl
  roomy := fun _ _ _ taken => serve_roomy taken
  exhausted := serve_exhausts now s.waiters (s.vacated (s.expired maxHold now))

end Slot

/-! ### The whole pool -/

namespace Pool

/-- The lease is outstanding, and this is its grant instant. -/
def LeasedFrom (p : Pool) (ticket : LeaseTicket) (grant : Nat) : Prop :=
  ∃ g, p.find? ticket.transport = some g ∧ (ticket.leaseId, grant) ∈ g.slot.leases

/-- The report of a lease that was taken back. -/
def overdue (maxHold : Nat) (ticket : LeaseTicket) : AuditEvent :=
  .onLease .leaseReclaimed s!"lease exceeded maximum delivery duration of {maxHold}ms" ticket.transport ticket.leaseId

theorem reclaim_tickets (p : Pool) (maxHold now : Nat) :
    (p.reclaim maxHold now).2.2 =
      p.slots.flatMap fun entry => (entry.2.slot.expired maxHold now).map (LeaseTicket.mk entry.1) := by
  simp only [reclaim, List.flatMap_map]

theorem reclaim_wakes (p : Pool) (maxHold now : Nat) :
    (p.reclaim maxHold now).2.1.wakes = p.slots.flatMap fun entry =>
      (Effects.serve entry.2.number (Slot.releaseAll now (entry.2.slot.expired maxHold now) entry.2.slot).2).wakes := by
  simp only [reclaim, List.flatMap_map]

theorem mem_reclaim_tickets {p : Pool} (numbered : p.Numbered) {maxHold now : Nat} {ticket : LeaseTicket} :
    ticket ∈ (p.reclaim maxHold now).2.2 ↔ ∃ grant, p.LeasedFrom ticket grant ∧ grant + maxHold < now := by
  rw [reclaim_tickets, List.mem_flatMap]
  constructor
  · rintro ⟨⟨name, g⟩, inside, member⟩
    obtain ⟨lease, expired, rfl⟩ := List.mem_map.mp member
    obtain ⟨grant, held, late⟩ := Slot.mem_expired.mp expired
    exact ⟨grant, ⟨g, find?_of_mem numbered inside, held⟩, by omega⟩
  · rintro ⟨grant, ⟨g, found, held⟩, late⟩
    refine ⟨(ticket.transport, g), find?_mem found, List.mem_map.mpr ⟨ticket.leaseId, ?_, rfl⟩⟩
    exact Slot.mem_expired.mpr ⟨grant, held, by omega⟩

end Pool

namespace Traffic

variable {t : Traffic}

/-- No lease is taken back twice, not even on two transports. -/
theorem Sound.reclaim_once (h : t.Sound) (maxHold now : Nat) :
    ((t.pool.reclaim maxHold now).2.2.map (·.leaseId)).Nodup := by
  have ids : (t.pool.reclaim maxHold now).2.2.map (·.leaseId) =
      t.pool.slots.flatMap fun entry => entry.2.slot.expired maxHold now := by
    rw [Pool.reclaim_tickets, List.map_flatMap]
    simp only [List.map_map, Function.comp_def, List.map_id']
  have slot {entry : TransportName × Generation} (inside : entry ∈ t.pool.slots) :
      t.pool.slot? entry.2.number = some entry.2.slot :=
    Pool.slot?_of_find? h.numbered (Pool.find?_of_mem h.numbered inside)
  rw [ids, List.nodup_flatMap]
  refine ⟨fun entry inside => Slot.expired_nodup (h.slots _ _ (slot inside)) maxHold now, ?_⟩
  refine (List.pairwise_map.mp h.numbered.numbers_nodup).imp_of_mem fun {a b} here there apart => ?_
  intro lease mine other
  exact apart (h.leased_once _ _ lease ⟨_, slot here, Slot.expired_held mine⟩ ⟨_, slot there, Slot.expired_held other⟩)

/-- The slots of a transport in a run are sound, and nobody waits for a free one. -/
theorem run_slot {moves : List (Nat × Move)} {name : TransportName} {g : Generation}
    (found : (empty.run moves).pool.find? name = some g) : g.slot.Sound ∧ g.slot.Busy := by
  have slot := Pool.slot?_of_find? (run_sound moves).numbered found
  obtain ⟨limits, ops, same⟩ := slot_history moves _ _ slot
  exact ⟨(run_sound moves).slots _ _ slot, same ▸ Slot.run_busy limits ops⟩

/-- A reclaim sweeps the slots of each transport. -/
theorem find?_swept (moves : List (Nat × Move)) (maxHold now : Nat) (name : TransportName) :
    ((empty.run moves).pool.reclaim maxHold now).1.find? name =
      ((empty.run moves).pool.find? name).map fun g => { g with slot := (g.slot.sweep maxHold now).1 } := by
  rw [Pool.reclaim_eq, Pool.find?_mapSlots]
  cases found : (empty.run moves).pool.find? name with
  | none => rfl
  | some g =>
    obtain ⟨sound, busy⟩ := run_slot found
    rw [Option.map_some, Option.map_some, Slot.releaseAll_expired sound busy]

theorem wakes_swept (moves : List (Nat × Move)) (maxHold now : Nat) :
    ((empty.run moves).pool.reclaim maxHold now).2.1.wakes = (empty.run moves).pool.slots.flatMap fun entry =>
      (Effects.serve entry.2.number (entry.2.slot.sweep maxHold now).2).wakes := by
  rw [Pool.reclaim_wakes]
  refine List.flatMap_congr fun entry inside => ?_
  obtain ⟨sound, busy⟩ := run_slot (Pool.find?_of_mem (run_sound moves).numbered inside)
  rw [Slot.releaseAll_expired sound busy]

theorem leasedFrom_swept (moves : List (Nat × Move)) (maxHold now : Nat) (ticket : LeaseTicket) (grant : Nat) :
    ((empty.run moves).pool.reclaim maxHold now).1.LeasedFrom ticket grant ↔
      (empty.run moves).pool.LeasedFrom ticket grant ∧ now ≤ grant + maxHold := by
  have kept {g : Generation} (found : (empty.run moves).pool.find? ticket.transport = some g) :
      (ticket.leaseId, grant) ∈ (g.slot.sweep maxHold now).1.leases ↔
        (ticket.leaseId, grant) ∈ g.slot.leases ∧ now ≤ grant + maxHold := by
    obtain ⟨sound, busy⟩ := run_slot found
    rw [(Slot.sweep_sweeps sound busy maxHold now).leases, List.mem_filter, decide_eq_true_eq]
  unfold Pool.LeasedFrom
  rw [find?_swept]
  constructor
  · rintro ⟨g', found', held⟩
    obtain ⟨g, found, rfl⟩ := Option.map_eq_some_iff.mp found'
    obtain ⟨held, young⟩ := (kept found).mp held
    exact ⟨⟨g, found, held⟩, young⟩
  · rintro ⟨⟨g, found, held⟩, young⟩
    exact ⟨_, Option.map_eq_some_iff.mpr ⟨g, found, rfl⟩, (kept found).mpr ⟨held, young⟩⟩

theorem leasedFrom_unique {moves : List (Nat × Move)} {ticket : LeaseTicket} {grant grant' : Nat}
    (here : (empty.run moves).pool.LeasedFrom ticket grant) (there : (empty.run moves).pool.LeasedFrom ticket grant') :
    grant = grant' := by
  obtain ⟨g, found, held⟩ := here
  obtain ⟨g', found', held'⟩ := there
  cases found.symm.trans found'
  exact congrArg Prod.snd (List.inj_on_of_nodup_map (run_slot found).1.leases_nodup held held' rfl)

/-- In every state of every run, a reclaim takes back the leases whose grant instant lies more than the longest hold in
the past, each once and with one report. None of them is granted for later or is that of a slot that was handed over and
is not claimed yet. All other leases stay, and none of those is expired. The slots of each transport are freed at once
and offered to its waiters. -/
theorem reclaim_exact (moves : List (Nat × Move)) (maxHold now : Nat) :
    let t := empty.run moves
    let swept := t.pool.reclaim maxHold now
    (∀ ticket, ticket ∈ swept.2.2 ↔ ∃ grant, t.pool.LeasedFrom ticket grant ∧ grant + maxHold < now) ∧
    (swept.2.2.map (·.leaseId)).Nodup ∧
    swept.2.1.events = swept.2.2.map (Pool.overdue maxHold) ∧
    (∀ ticket ∈ swept.2.2, (∀ grant, t.pool.LeasedFrom ticket grant → grant < now) ∧
      ∀ waiting key deadline, t.calls ticket.leaseId ≠ some (.queued waiting key deadline)) ∧
    (∀ ticket grant, swept.1.LeasedFrom ticket grant ↔ t.pool.LeasedFrom ticket grant ∧ now ≤ grant + maxHold) ∧
    (∀ name, swept.1.find? name =
      (t.pool.find? name).map fun g => { g with slot := (g.slot.sweep maxHold now).1 }) ∧
    swept.2.1.wakes = (t.pool.slots.flatMap fun entry =>
      (Effects.serve entry.2.number (entry.2.slot.sweep maxHold now).2).wakes) ∧
    ∀ name g, t.pool.find? name = some g → g.slot.Sweeps maxHold now (g.slot.sweep maxHold now) := by
  intro t swept
  have h : t.Sound := run_sound moves
  refine ⟨fun ticket => Pool.mem_reclaim_tickets h.numbered, h.reclaim_once maxHold now, rfl, ?_,
    leasedFrom_swept moves maxHold now, find?_swept moves maxHold now, wakes_swept moves maxHold now, ?_⟩
  · intro ticket member
    obtain ⟨grant, leased, late⟩ := (Pool.mem_reclaim_tickets h.numbered).mp member
    refine ⟨fun grant' leased' => ?_, fun waiting key deadline waits => ?_⟩
    · obtain rfl := leasedFrom_unique leased' leased
      omega
    · obtain ⟨g, found, held⟩ := leased
      have slot := Pool.slot?_of_find? h.numbered found
      exact h.queued_unleased _ _ _ _ _ waits ⟨_, slot, List.mem_map_of_mem held⟩
  · intro name g found
    obtain ⟨sound, busy⟩ := run_slot found
    exact Slot.sweep_sweeps sound busy maxHold now

/-- Of two leases one is expired, and its slot is handed to the first of two waiters. -/
theorem reclaim_exact_handed_on :
    let relay : TransportName := ⟨"relay"⟩
    let moves : List (Nat × Move) :=
      [(0, .configure relay ⟨2, 0⟩), (0, .acquire relay 500), (50, .acquire relay 500), (60, .acquire relay 500),
        (70, .acquire relay 500)]
    let swept := (empty.run moves).pool.reclaim 100 120
    ⟨relay, 1⟩ ∈ swept.2.2 ∧ ⟨relay, 2⟩ ∉ swept.2.2 ∧ swept.1.LeasedFrom ⟨relay, 2⟩ 50 ∧
      ∃ g, swept.1.find? relay = some g ∧ g.slot.handed = [(0, 120)] ∧ g.slot.waiters = [⟨1, 570, true⟩] := by
  intro relay moves swept
  have found : (empty.run moves).pool.find? relay =
      some ⟨0, ⟨2, 0, 2, [(1, 0), (2, 50)], [⟨0, 560, true⟩, ⟨1, 570, true⟩], [], some 50, 2⟩⟩ := by decide
  obtain ⟨exactly, -, -, -, others, slots, -, -⟩ := reclaim_exact moves 100 120
  have first : (empty.run moves).pool.LeasedFrom ⟨relay, 1⟩ 0 := ⟨_, found, by decide⟩
  have second : (empty.run moves).pool.LeasedFrom ⟨relay, 2⟩ 50 := ⟨_, found, by decide⟩
  refine ⟨(exactly _).mpr ⟨0, first, by decide⟩, fun member => ?_, (others _ _).mpr ⟨second, by decide⟩, ?_⟩
  · obtain ⟨grant, ⟨g, present, held⟩, late⟩ := (exactly _).mp member
    cases found.symm.trans present
    have same : grant = 50 := by simpa using held
    omega
  · refine ⟨_, (slots relay).trans (by rw [found]; rfl), ?_, ?_⟩
    · decide +kernel
    · decide +kernel

end Traffic

end RelayRamp.Lease
