import RelayRamp.Proofs.Lease.Outstanding

/-!
# Occupancy and capacity along a run

The count of taken slots is justified in every state that moves from the empty pool lead to. A move that takes a
slot for a caller ends within the capacity that is then in force. Lowering the capacity takes nothing away, so
only then can the count be above it: in a run that never lowers the capacity of a transport, the count of the
transport is within it throughout.
-/
namespace RelayRamp.Lease

open RelayRamp.Routing

namespace Traffic

/-- The move lowers the capacity of a transport that is in the pool. -/
def lowers (t : Traffic) (transport : TransportName) : Move → Bool
  | .configure name limits =>
    decide (name = transport) &&
      (t.pool.find? transport).any fun g => decide (limits.concurrency < g.slot.capacity)
  | _ => false

def NeverLowered (transport : TransportName) : Traffic → List (Nat × Move) → Prop
  | _, [] => True
  | t, (now, move) :: rest =>
    t.lowers transport move = false ∧ NeverLowered transport (t.step now move) rest

def Within (t : Traffic) (transport : TransportName) : Prop :=
  ∀ g, t.pool.find? transport = some g → g.slot.occupied ≤ g.slot.capacity

variable {t : Traffic}

theorem within_step (h : t.Sound) {transport : TransportName} (within : t.Within transport) (now : Nat)
    {move : Move} (kept : t.lowers transport move = false) : (t.step now move).Within transport := by
  intro g' found'
  rcases find?_step h.numbered found' with ⟨g, found, same⟩ | ⟨limits, -, -, rfl⟩
  · have slot := Pool.slot?_of_find? h.numbered found
    have slot' := Pool.slot?_of_find? (numbered_step h.numbered now move) found'
    have before := within g found
    rw [same] at slot
    rw [slot?_both h.numbered slot slot']
    cases performed : t.operation? now move g'.number with
    | none => exact before
    | some op =>
      have bound := Slot.step_occupied_le g.slot now op
      have grows : g.slot.capacity ≤ (g.slot.step now op).1.capacity := by
        rcases Slot.step_capacity g.slot now op with equal | ⟨limits, rfl, new⟩
        · exact Nat.le_of_eq equal.symm
        · cases performs performed with
          | @configure name _ other present place =>
            have mine := Pool.name_unique h.numbered present found (place.symm.trans same.symm)
            subst mine
            rw [new]
            simpa [lowers, found] using kept
      simp only [Slot.after]
      omega
  · exact Nat.zero_le _

theorem within_run (h : t.Sound) {transport : TransportName} (within : t.Within transport)
    {moves : List (Nat × Move)} (kept : NeverLowered transport t moves) :
    (t.run moves).Within transport := by
  induction moves generalizing t with
  | nil => exact within
  | cons head rest ih =>
    obtain ⟨now, move⟩ := head
    exact ih (sound_step h now move) (within_step h within now kept.1) kept.2

/-- A move that takes slots, at once or by a hand-off, ends within the capacity that is then in force. -/
theorem taken_within (h : t.pool.Numbered) {now n : Nat} {move : Move} {s s' : Slot}
    (found : t.pool.slot? n = some s) (found' : (t.step now move).pool.slot? n = some s')
    (taken : s.occupied < s'.occupied ∨ ∃ entry ∈ s'.handed, entry ∉ s.handed) :
    s'.occupied ≤ s'.capacity := by
  have both := slot?_both h found found'
  cases performed : t.operation? now move n with
  | none =>
    rw [performed] at both
    change s' = s at both
    subst both
    rcases taken with more | ⟨entry, pending, new⟩
    · exact absurd more (Nat.lt_irrefl _)
    · exact absurd pending new
  | some op =>
    rw [performed] at both
    change s' = (s.step now op).1 at both
    subst both
    rcases taken with more | ⟨entry, pending, new⟩
    · have bound := Slot.step_occupied_le s now op
      omega
    · rcases Slot.mem_handed_step pending with old | made
      · exact absurd old new
      · exact Slot.step_takes (List.ne_nil_of_mem made)

theorem configure_frame (h : t.pool.Numbered) (now : Nat) (transport : TransportName)
    (limits : TransportLimits) {n : Nat} {s : Slot} (found : t.pool.slot? n = some s) :
    ∃ s', (t.step now (.configure transport limits)).pool.slot? n = some s' ∧
      s'.leases = s.leases ∧ s.handed <+: s'.handed := by
  rcases slot?_step h now (.configure transport limits) n with same | ⟨_, _, other, -⟩ |
    ⟨_, _, -, absent, -, -⟩
  · refine ⟨_, by rw [same, found, Option.map_some], ?_⟩
    cases performed : t.operation? now (.configure transport limits) n with
    | none => exact ⟨rfl, List.prefix_rfl⟩
    | some op =>
      cases performs performed with
      | configure present place => exact Slot.configure_keeps s limits now
  · cases other
  · rw [absent] at found
    cases found

/-- In every state of every run, the count of taken slots is that of the leases and unclaimed hand-offs, no
number is given twice, and whatever is done next gives back only slots that are taken. A move that takes slots
ends within the capacity then in force, and new limits take away neither a lease nor a hand-off. A transport
whose capacity was never lowered has no more slots taken than its capacity. -/
theorem occupancy_within_capacity (moves : List (Nat × Move)) :
    (∀ n s, (empty.run moves).pool.slot? n = some s →
      s.Sound ∧ ∀ now op, s.step? now op = some (s.step now op)) ∧
    (∀ now move n s s', (empty.run moves).pool.slot? n = some s →
      ((empty.run moves).step now move).pool.slot? n = some s' →
      (s.occupied < s'.occupied ∨ ∃ entry ∈ s'.handed, entry ∉ s.handed) →
      s'.occupied ≤ s'.capacity) ∧
    (∀ now transport limits n s, (empty.run moves).pool.slot? n = some s →
      ∃ s', ((empty.run moves).step now (.configure transport limits)).pool.slot? n = some s' ∧
        s'.leases = s.leases ∧ s.handed <+: s'.handed) ∧
    (∀ transport, NeverLowered transport empty moves → (empty.run moves).Within transport) := by
  have sound := run_sound moves
  refine ⟨fun n s found => ?_, ?_, ?_, ?_⟩
  · have balanced := sound.slots n s found
    exact ⟨balanced, fun now op => Slot.step?_eq balanced now op⟩
  · intro now move n s s' found found' taken
    exact taken_within sound.numbered found found' taken
  · intro now transport limits n s found
    exact configure_frame sound.numbered now transport limits found
  · intro transport kept
    exact within_run empty_sound (fun g found => by cases found) kept

/-- Two callers share one slot: the second is handed it when the first releases it. -/
theorem occupancy_within_capacity_shared :
    let relay : TransportName := ⟨"relay"⟩
    let moves : List (Nat × Move) :=
      [(0, .configure relay ⟨1, 0⟩), (0, .acquire relay 500), (1, .acquire relay 500)]
    (∃ s s', (empty.run moves).pool.slot? 0 = some s ∧
      ((empty.run moves).step 2 (.release relay 1)).pool.slot? 0 = some s' ∧
      s.Sound ∧ s'.handed = [(0, 2)] ∧ s'.occupied ≤ s'.capacity) ∧
    (empty.run moves).Within relay := by
  intro relay moves
  have all := occupancy_within_capacity moves
  refine ⟨⟨⟨1, 0, 1, [(1, 0)], [⟨0, 501, true⟩], [], some 0, 1⟩,
    ⟨1, 0, 1, [], [], [(0, 2)], some 2, 1⟩, by decide, by decide, ?_, rfl, ?_⟩, ?_⟩
  · exact (all.1 0 _ (by decide)).1
  · exact all.2.1 2 (.release relay 1) 0 ⟨1, 0, 1, [(1, 0)], [⟨0, 501, true⟩], [], some 0, 1⟩ _
      (by decide) (by decide) (Or.inr ⟨(0, 2), by decide, by decide⟩)
  · exact all.2.2.2 relay ⟨by decide, by decide, by decide, trivial⟩

end Traffic

end RelayRamp.Lease
