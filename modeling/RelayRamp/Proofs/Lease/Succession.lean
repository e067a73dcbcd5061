import RelayRamp.Proofs.Lease.Setup

/-!
# One generation after another

While a transport is in the pool it is of one generation. A sweep that does not keep it ends the generation, and only
when nothing holds or awaits a slot; configured again the transport is of a later one. Slots and the record of callers
belong to a generation, so what is known of the callers of one says nothing about those of the next.
-/
namespace RelayRamp.Lease

open RelayRamp.Admission RelayRamp.Routing

namespace Traffic

variable {t : Traffic} {moves earlier later rest : List (Nat × Move)} {name : TransportName} {g : Generation}
  {now n m : Nat} {move : Move}

/-- At some time the transport was of the generation. -/
def Was (moves : List (Nat × Move)) (name : TransportName) (n : Nat) : Prop :=
  ∃ earlier later g, moves = earlier ++ later ∧ (empty.run earlier).pool.find? name = some g ∧ g.number = n

/-- A sweep that did not keep the transport has found its slots idle and ended the generation. -/
def Dropped (moves : List (Nat × Move)) (name : TransportName) (n : Nat) : Prop :=
  ∃ earlier now keep later g, moves = earlier ++ (now, .retain keep) :: later ∧
    (empty.run earlier).pool.find? name = some g ∧ g.number = n ∧ g.slot.isIdle = true ∧ name ∉ keep

theorem was_now (found : (empty.run moves).pool.find? name = some g) : Was moves name g.number :=
  ⟨moves, [], g, (List.append_nil moves).symm, found, rfl⟩

theorem Was.more (was : Was moves name n) (rest : List (Nat × Move)) : Was (moves ++ rest) name n := by
  obtain ⟨earlier, later, g, rfl, found, number⟩ := was
  exact ⟨earlier, later ++ rest, g, List.append_assoc .., found, number⟩

theorem Dropped.more (dropped : Dropped moves name n) (rest : List (Nat × Move)) : Dropped (moves ++ rest) name n := by
  obtain ⟨earlier, now, keep, later, g, rfl, found⟩ := dropped
  exact ⟨earlier, now, keep, later ++ rest, g, by simp, found⟩

/-- A transport stays of its generation until a sweep drops it. -/
theorem number_step (h : t.pool.Numbered) (now : Nat) (move : Move) (found : t.pool.find? name = some g) :
    (∃ g', (t.step now move).pool.find? name = some g' ∧ g'.number = g.number) ∨
      ∃ keep, move = .retain keep ∧ (t.step now move).pool.find? name = none ∧ g.slot.isIdle = true ∧
        name ∉ keep := by
  have slotsOnly (p : Pool) (same : p.slots = t.pool.slots) (only : p.SlotsOnly (t.step now move).pool) :
      ∃ g', (t.step now move).pool.find? name = some g' ∧ g'.number = g.number := by
    have equal : p.find? name = some g := by rw [← found, Pool.find?, Pool.find?, same]
    have kept := only.number name
    rw [equal, Option.map_some] at kept
    exact Option.map_eq_some_iff.mp kept
  rcases pool_step t now move with ⟨-, only⟩ | ⟨_, _, rfl, only⟩ | ⟨transport, limits, rfl, absent⟩ | ⟨keep, rfl⟩
  · exact Or.inl (slotsOnly t.pool rfl only)
  · exact Or.inl (slotsOnly { t.pool with nextLease := t.pool.nextLease + 1 } rfl only)
  · obtain ⟨numbered, perm, -⟩ := Pool.configure_new h absent limits now
    exact Or.inl ⟨g, Pool.find?_of_mem numbered (perm.mem_iff.mpr (List.mem_cons_of_mem _ (Pool.find?_mem found))), rfl⟩
  · by_cases stays : name ∈ keep ∨ g.slot.isIdle = false
    · exact Or.inl ⟨g, (Pool.find?_retain h keep).mpr ⟨found, stays⟩, rfl⟩
    · obtain ⟨unkept, busy⟩ := not_or.mp stays
      refine Or.inr ⟨keep, rfl, ?_, Bool.of_not_eq_false busy, unkept⟩
      cases found' : (t.step now (.retain keep)).pool.find? name with
      | none => rfl
      | some g' =>
        obtain ⟨same, stays'⟩ := (Pool.find?_retain h keep).mp found'
        rw [found] at same
        cases same
        exact absurd stays' stays

/-- It is not changed by a move that does nothing to its slots, unless that is a sweep. -/
theorem find?_spared (h : t.pool.Numbered) (found : t.pool.find? name = some g)
    (spared : t.operation? now move g.number = none) (kept : ∀ keep, move ≠ .retain keep) :
    (t.step now move).pool.find? name = some g := by
  rcases number_step h now move found with ⟨g', found', same⟩ | ⟨keep, sweeps, -⟩
  · have slot := Pool.slot?_of_find? (numbered_step h now move) found'
    rw [same] at slot
    have unchanged := slot?_both h (Pool.slot?_of_find? h found) slot
    rw [spared] at unchanged
    obtain ⟨number, slot'⟩ := g'
    cases same
    cases unchanged
    exact found'
  · exact absurd sweeps (kept keep)

theorem nextGeneration_run_le (h : t.pool.Numbered) (moves : List (Nat × Move)) :
    t.pool.nextGeneration ≤ (t.run moves).pool.nextGeneration := by
  induction moves generalizing t with
  | nil => exact Nat.le_refl _
  | cons head rest ih => exact Nat.le_trans (nextGeneration_le h head.1 head.2) (ih (numbered_step h head.1 head.2))

/-- Later a transport is of the same generation, or that one was dropped and any other is a later one. -/
theorem succession (found : (empty.run earlier).pool.find? name = some g) (later : List (Nat × Move)) :
    (∃ g', (empty.run (earlier ++ later)).pool.find? name = some g' ∧ g'.number = g.number) ∨
      Dropped (earlier ++ later) name g.number ∧
        ∀ g', (empty.run (earlier ++ later)).pool.find? name = some g' → g.number < g'.number := by
  induction later using List.reverseRecOn with
  | nil => exact Or.inl ⟨g, by rwa [List.append_nil], rfl⟩
  | append_singleton later last ih =>
    obtain ⟨now, move⟩ := last
    have h := (run_sound (earlier ++ later)).numbered
    rw [← List.append_assoc, run_append]
    rcases ih with ⟨g₁, present, same⟩ | ⟨dropped, above⟩
    · rcases number_step h now move present with ⟨g', found', same'⟩ | ⟨keep, rfl, gone, idle, unkept⟩
      · exact Or.inl ⟨g', found', same'.trans same⟩
      · refine Or.inr ⟨⟨_, now, keep, [], g₁, rfl, present, same, idle, unkept⟩, fun g' found' => ?_⟩
        cases gone.symm.trans found'
    · refine Or.inr ⟨dropped.more _, fun g' found' => ?_⟩
      rcases find?_step h found' with ⟨g₁, present, same⟩ | ⟨limits, -, -, rfl⟩
      · exact same ▸ above g₁ present
      · have numbered := (run_sound earlier).numbered
        have grows := nextGeneration_run_le numbered later
        rw [← run_append] at grows
        exact Nat.lt_of_lt_of_le (Pool.slot?_issued numbered (Pool.slot?_of_find? numbered found)) grows

/-- Of two generations of a transport the first was dropped. -/
theorem Was.succession (first : Was moves name n) (second : Was moves name m) (less : n < m) :
    Dropped moves name n := by
  obtain ⟨earlier, later, g, rfl, found, rfl⟩ := first
  obtain ⟨earlier', later', g', split, found', rfl⟩ := second
  rcases List.append_eq_append_iff.mp split with ⟨between, rfl, rfl⟩ | ⟨between, rfl, rfl⟩
  · rcases Traffic.succession found between with ⟨g₁, present, same⟩ | ⟨dropped, -⟩
    · cases found'.symm.trans present
      exact absurd same (Nat.ne_of_gt less)
    · rw [← List.append_assoc]
      exact dropped.more later'
  · rcases Traffic.succession found' between with ⟨g₁, present, same⟩ | ⟨-, above⟩
    · cases found.symm.trans present
      exact absurd same (Nat.ne_of_lt less)
    · exact absurd (above g found) (Nat.lt_asymm less)

end Traffic

namespace Pool

variable {p : Pool} {name : TransportName} {g : Generation} {roster : Roster TransportLimits} {now : Nat}

/-- New limits change the slots of their own transport only. -/
theorem find?_configure (h : p.Numbered) (found : p.find? name = some g) (entry : TransportName × TransportLimits)
    (now : Nat) : ∃ g', (p.configure entry.1 entry.2 now).1.find? name = some g' ∧ g'.number = g.number ∧
      (name ≠ entry.1 → g' = g) := by
  let t : Traffic := ⟨p, fun _ => none⟩
  by_cases same : name = entry.1
  · rcases t.number_step h now (.configure entry.1 entry.2) found with ⟨g', found', number⟩ | ⟨_, sweeps, -⟩
    · exact ⟨g', found', number, fun apart => absurd same apart⟩
    · cases sweeps
  · have spared : t.operation? now (.configure entry.1 entry.2) g.number = none := by
      by_contra performed
      obtain ⟨op, performed⟩ := Option.ne_none_iff_exists'.mp performed
      obtain ⟨-, g', found', number⟩ := Traffic.onTransport_some performed
      exact same (name_unique h found found' number)
    exact ⟨g, t.find?_spared h found spared nofun, rfl, fun _ => rfl⟩

theorem find?_configureAll (h : p.Numbered) (found : p.find? name = some g) (roster : Roster TransportLimits)
    (now : Nat) : (p.configureAll roster now).Numbered ∧
      ∃ g', (p.configureAll roster now).find? name = some g' ∧ g'.number = g.number ∧
        (name ∉ roster.map (·.1) → g' = g) := by
  induction roster generalizing p g with
  | nil => exact ⟨h, g, found, rfl, fun _ => rfl⟩
  | cons entry rest ih =>
    obtain ⟨g₁, found₁, number₁, same₁⟩ := find?_configure h found entry now
    obtain ⟨numbered, g', found', number', same'⟩ := ih (setup?_configure h entry.1 entry.2 now).1 found₁
    refine ⟨numbered, g', found', number'.trans number₁, fun unlisted => ?_⟩
    obtain ⟨apart, unlisted⟩ := not_or.mp fun member => unlisted (List.mem_cons.mpr member)
    exact (same' unlisted).trans (same₁ apart)

/-- Rerouting ends a generation only if the roster does not list its transport and the slots were idle before. -/
theorem reroute_drops (h : p.Numbered) (found : p.find? name = some g)
    (ended : ∀ g', (p.reroute roster now).find? name = some g' → g'.number ≠ g.number) :
    roster.get? name = none ∧ g.slot.isIdle = true := by
  obtain ⟨numbered, g', found', number, same⟩ := find?_configureAll h found roster now
  have gone : ¬ (name ∈ roster.map (·.1) ∨ g'.slot.isIdle = false) := fun stays =>
    ended g' ((find?_retain numbered _).mpr ⟨found', stays⟩) number
  obtain ⟨unlisted, idle⟩ := not_or.mp gone
  refine ⟨?_, same unlisted ▸ Bool.of_not_eq_false idle⟩
  cases listed : roster.get? name with
  | none => rfl
  | some limits => exact absurd (List.mem_map_of_mem (Roster.mem_of_get? listed)) unlisted

end Pool

/-! ### What new limits leave alone -/

/-- The leases are the same, and whoever was handed a slot still has it; free slots may have been handed out. -/
structure Slot.Honours (s s' : Slot) : Prop where
  leases : s'.leases = s.leases
  handed : ∃ given, s'.handed = s.handed ++ given ∧ s'.occupied = s.occupied + given.length

instance : IsPreorder Slot Slot.Honours where
  refl s := ⟨rfl, [], (List.append_nil _).symm, rfl⟩
  trans := by
    rintro s s₁ s₂ ⟨leases, given, handed, occupied⟩ ⟨leases', given', handed', occupied'⟩
    refine ⟨leases'.trans leases, given ++ given', by rw [handed', handed, List.append_assoc], ?_⟩
    rw [occupied', occupied, List.length_append, Nat.add_assoc]

theorem Slot.configure_honours (s : Slot) (limits : TransportLimits) (now : Nat) :
    s.Honours (s.configure limits now).1 where
  leases := (dispatch_frame _ now).2.2.1
  handed := ⟨_, serve_handed now _ _, serve_occupied now _ _⟩

namespace Pool

variable {p : Pool} {name : TransportName} {g : Generation}

theorem configure_honours (h : p.Numbered) (found : p.find? name = some g) (entry : TransportName × TransportLimits)
    (now : Nat) : ∃ g', (p.configure entry.1 entry.2 now).1.find? name = some g' ∧ g'.number = g.number ∧
      g.slot.Honours g'.slot := by
  by_cases same : name = entry.1
  · rw [← same, configure_found found, find?_put, found, Option.map_some, if_pos rfl]
    exact ⟨_, rfl, rfl, g.slot.configure_honours entry.2 now⟩
  · obtain ⟨g', found', number, kept⟩ := find?_configure h found entry now
    exact ⟨g', found', number, kept same ▸ Std.Refl.refl _⟩

theorem configureAll_honours (h : p.Numbered) (found : p.find? name = some g) (roster : Roster TransportLimits)
    (now : Nat) : ∃ g', (p.configureAll roster now).find? name = some g' ∧ g'.number = g.number ∧
      g.slot.Honours g'.slot := by
  induction roster generalizing p g with
  | nil => exact ⟨g, found, rfl, Std.Refl.refl _⟩
  | cons entry rest ih =>
    obtain ⟨g₁, found₁, number₁, honours₁⟩ := configure_honours h found entry now
    obtain ⟨g', found', number', honours'⟩ := ih (setup?_configure h entry.1 entry.2 now).1 found₁
    exact ⟨g', found', number'.trans number₁, IsTrans.trans _ _ _ honours₁ honours'⟩

/-- Rerouting takes no slot away, listed or not. -/
theorem reroute_honours (h : p.Numbered) (found : p.find? name = some g) (taken : g.slot.occupied ≠ 0)
    (roster : Roster TransportLimits) (now : Nat) :
    ∃ g', (p.reroute roster now).find? name = some g' ∧ g'.number = g.number ∧ g.slot.Honours g'.slot := by
  obtain ⟨g', found', number, honours⟩ := configureAll_honours h found roster now
  obtain ⟨given, -, occupied⟩ := honours.handed
  have busy : g'.slot.isIdle = false := by
    have still : g'.slot.occupied ≠ 0 := by omega
    simp [Slot.isIdle, still]
  exact ⟨g', (find?_retain (find?_configureAll h found roster now).1 _).mpr ⟨found', Or.inr busy⟩, number, honours⟩

end Pool

end RelayRamp.Lease
