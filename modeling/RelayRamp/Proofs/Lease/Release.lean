import RelayRamp.Proofs.Lease.Outstanding

/-!
# Releases and reclaims

A release ends an outstanding lease or is an anomaly. Ending a lease takes it away and frees one slot, which may
go to waiters at once; a reclaim does so for each expired lease. An anomaly changes nothing and is reported once.
-/
namespace RelayRamp.Lease

open RelayRamp.Admission RelayRamp.Routing

namespace Slot

theorem freeSlot_counts {s : Slot} (taken : s.occupied ≠ 0) (now : Nat) :
    (s.freeSlot now).1.handed = s.handed ++ (s.freeSlot now).2.filterMap Turn.handOff? ∧
      (s.freeSlot now).1.occupied + 1 =
        s.occupied + ((s.freeSlot now).2.filterMap Turn.handOff?).length := by
  have count := serve_occupied now s.waiters { s with occupied := s.occupied - 1 }
  refine ⟨serve_handed now s.waiters { s with occupied := s.occupied - 1 }, ?_⟩
  simp only [freeSlot, dispatch]
  rw [count]
  dsimp only
  omega

/-- Ending an outstanding lease frees one slot. -/
theorem release_counts {s : Slot} (sound : s.Sound) {lease : Nat} (held : lease ∈ s.leases.map (·.1))
    (now : Nat) :
    ((s.release lease now).getD (s, [])).1.handed =
        s.handed ++ ((s.release lease now).getD (s, [])).2.filterMap Turn.handOff? ∧
      ((s.release lease now).getD (s, [])).1.occupied + 1 =
        s.occupied + (((s.release lease now).getD (s, [])).2.filterMap Turn.handOff?).length := by
  have removed := length_remove_key sound.leases_nodup held
  have balance := sound.balance
  have taken : s.occupied ≠ 0 := by omega
  rw [release_of_mem held, Option.getD_some]
  exact freeSlot_counts (s := { s with leases := s.leases.filter (·.1 ≠ lease) }) taken now

/-- Ending several leases frees as many slots. -/
theorem releaseAll_counts (now : Nat) {leases : List Nat} {s : Slot} (sound : s.Sound)
    (nodup : leases.Nodup) (held : ∀ lease ∈ leases, lease ∈ s.leases.map (·.1)) :
    (releaseAll now leases s).1.occupied + leases.length =
      s.occupied + ((releaseAll now leases s).2.filterMap Turn.handOff?).length := by
  induction leases generalizing s with
  | nil => rfl
  | cons lease rest ih =>
    obtain ⟨new, nodup⟩ := List.nodup_cons.mp nodup
    have first := (release_counts sound (held lease (List.mem_cons_self ..)) now).2
    have others := ih (release_sound sound lease now) nodup (held_after_release held new now)
    simp only [releaseAll, List.filterMap_append, List.length_append, List.length_cons]
    omega

end Slot

namespace Pool

/-- The lease is outstanding on the transport. -/
def Holds (p : Pool) (transport : TransportName) (lease : Nat) : Prop :=
  ∃ g, p.find? transport = some g ∧ lease ∈ g.slot.leases.map (·.1)

/-- The report of a release that finds no such lease. -/
def anomaly (transport : TransportName) (lease : Nat) : AuditEvent :=
  .onLease .anomalousRelease "release of unknown or already released lease" transport lease

/-- One lease of a transport has ended: it is gone and one slot is free, apart from those that waiters of the
transport were given. Nothing else has changed. -/
def Ends (p q : Pool) (transport : TransportName) (lease : Nat) : Prop :=
  ∃ g slot given, p.find? transport = some g ∧ q = p.put g.number slot ∧
    slot.leases = g.slot.leases.filter (·.1 ≠ lease) ∧ slot.leases.length + 1 = g.slot.leases.length ∧
    slot.handed = g.slot.handed ++ given ∧ slot.occupied + 1 = g.slot.occupied + given.length

theorem release_unheld {p : Pool} {transport : TransportName} {lease : Nat}
    (unheld : ¬ p.Holds transport lease) (now : Nat) :
    p.release transport lease now = (p, .report (anomaly transport lease), .anomalous) := by
  cases found : p.find? transport with
  | none =>
    simp only [release, found]
    rfl
  | some g =>
    have free : lease ∉ g.slot.leases.map (·.1) := fun held => unheld ⟨g, found, held⟩
    simp only [release, found, Option.bind_eq_bind, Option.bind_some, Slot.release_of_not_mem free now,
      Option.bind_none, anomaly]

theorem release_held {p : Pool} {transport : TransportName} {lease : Nat} {g : Generation}
    (found : p.find? transport = some g) (held : lease ∈ g.slot.leases.map (·.1)) (now : Nat) :
    p.release transport lease now =
      (p.put g.number ((g.slot.release lease now).getD (g.slot, [])).1,
        .serve g.number ((g.slot.release lease now).getD (g.slot, [])).2, .released) := by
  simp only [release, found, Option.bind_eq_bind, Option.bind_some, Slot.release_of_mem held now,
    Option.getD_some]

/-- The release of an outstanding lease ends it and reports nothing. -/
theorem release_ends {p : Pool} {transport : TransportName} {lease : Nat} {g : Generation}
    (found : p.find? transport = some g) (held : lease ∈ g.slot.leases.map (·.1)) (sound : g.slot.Sound)
    (now : Nat) :
    ∃ q wakes, p.release transport lease now = (q, ⟨wakes, []⟩, .released) ∧ p.Ends q transport lease := by
  obtain ⟨handed, occupied⟩ := Slot.release_counts sound held now
  refine ⟨_, _, release_held found held now, g, _, _, found, rfl, Slot.release_leases _ _ _, ?_, handed,
    occupied⟩
  rw [Slot.release_leases]
  exact length_remove_key sound.leases_nodup held

/-- A reclaim ends the expired leases of a transport and frees one slot for each. -/
theorem reclaim_ends {p : Pool} {transport : TransportName} {g : Generation}
    (found : p.find? transport = some g) (sound : g.slot.Sound) (maxHold now : Nat) :
    ∃ slot given, (p.reclaim maxHold now).1.find? transport = some { g with slot := slot } ∧
      slot.leases = g.slot.leases.filter (·.1 ∉ g.slot.expired maxHold now) ∧
      slot.handed = g.slot.handed ++ given ∧
      slot.occupied + (g.slot.expired maxHold now).length = g.slot.occupied + given.length := by
  refine ⟨_, _, ?_, Slot.releaseAll_leases now (g.slot.expired maxHold now) g.slot,
    Slot.releaseAll_handed now _ g.slot, ?_⟩
  · rw [reclaim_eq, find?_mapSlots, found, Option.map_some]
  · exact Slot.releaseAll_counts now sound (Slot.expired_nodup sound maxHold now)
      fun _ expired => Slot.expired_held expired

end Pool

end RelayRamp.Lease
