import Mathlib.Data.List.Nodup
import RelayRamp.Lease.Acquisition

/-!
# Transports and generations of a pool

A pool is looked up by the name of a transport and by the number of a generation. In a numbered pool no name and
no number occurs twice, so both ways lead to the same slots, and every change of the pool is a change of the
slots of some generations, a new generation at the end of the numbering, or the removal of idle ones.
-/
namespace RelayRamp.Lease

open RelayRamp.Routing

namespace Pool

structure Numbered (p : Pool) : Prop where
  names_nodup : (p.slots.map (·.1)).Nodup
  numbers_nodup : (p.slots.map (·.2.number)).Nodup
  issued : ∀ entry ∈ p.slots, entry.2.number < p.nextGeneration

/-- Changes the slots of each generation. -/
def mapSlots (p : Pool) (f : Nat → Slot → Slot) : Pool :=
  { p with slots := p.slots.map fun (name, g) => (name, { g with slot := f g.number g.slot }) }

theorem put_eq (p : Pool) (generation : Nat) (slot : Slot) :
    p.put generation slot = p.mapSlots fun n s => if n = generation then slot else s := by
  unfold put mapSlots
  congr 1
  apply List.map_congr_left
  intro entry _
  dsimp only
  split <;> rfl

theorem reclaim_eq (p : Pool) (maxHold now : Nat) :
    (p.reclaim maxHold now).1 =
      p.mapSlots fun _ s => (Slot.releaseAll now (s.expired maxHold now) s).1 := by
  simp only [reclaim, mapSlots, List.map_map]
  rfl

theorem find?_mapSlots (p : Pool) (f : Nat → Slot → Slot) (name : TransportName) :
    (p.mapSlots f).find? name =
      (p.find? name).map fun g => { g with slot := f g.number g.slot } := by
  simp only [find?, Roster.get?, mapSlots, List.find?_map, Option.map_map]
  rfl

theorem slot?_mapSlots (p : Pool) (f : Nat → Slot → Slot) (n : Nat) :
    (p.mapSlots f).slot? n = (p.slot? n).map (f n) := by
  simp only [slot?, mapSlots, List.find?_map, Option.map_map]
  change (p.slots.find? fun x => decide (x.2.number = n)).map _ = _
  cases found : p.slots.find? fun x => decide (x.2.number = n) with
  | none => rfl
  | some entry =>
    have same : entry.2.number = n := by simpa using List.find?_some found
    simp [same]

theorem slot?_put (p : Pool) (generation : Nat) (slot : Slot) (n : Nat) :
    (p.put generation slot).slot? n =
      (p.slot? n).map fun s => if n = generation then slot else s := by
  rw [put_eq, slot?_mapSlots]

theorem mapSlots_numbered {p : Pool} (h : p.Numbered) (f : Nat → Slot → Slot) :
    (p.mapSlots f).Numbered := by
  refine ⟨?_, ?_, ?_⟩
  · simp only [mapSlots, List.map_map]
    exact h.names_nodup
  · simp only [mapSlots, List.map_map]
    exact h.numbers_nodup
  · intro entry member
    obtain ⟨old, inside, rfl⟩ := List.mem_map.mp member
    exact h.issued old inside

/-! ### Looking up -/

theorem find?_mem {p : Pool} {name : TransportName} {g : Generation} (found : p.find? name = some g) :
    (name, g) ∈ p.slots := by
  obtain ⟨⟨key, _⟩, hit, rfl⟩ := Option.map_eq_some_iff.mp found
  have same : key = name := by simpa using List.find?_some hit
  exact same ▸ List.mem_of_find?_eq_some hit

theorem find?_of_mem {p : Pool} (h : p.Numbered) {name : TransportName} {g : Generation}
    (member : (name, g) ∈ p.slots) : p.find? name = some g := by
  cases hit : p.slots.find? (fun x => decide (x.1 = name)) with
  | none => simpa using List.find?_eq_none.mp hit _ member
  | some entry =>
    have same : entry.1 = name := by simpa using List.find?_some hit
    have equal : entry = (name, g) :=
      List.inj_on_of_nodup_map h.names_nodup (List.mem_of_find?_eq_some hit) member same
    simp [find?, Roster.get?, hit, equal]

theorem slot?_mem {p : Pool} {n : Nat} {s : Slot} (found : p.slot? n = some s) :
    ∃ name, (name, ⟨n, s⟩) ∈ p.slots := by
  obtain ⟨⟨name, g⟩, hit, rfl⟩ := Option.map_eq_some_iff.mp found
  have same : g.number = n := by simpa using List.find?_some hit
  exact ⟨name, same ▸ List.mem_of_find?_eq_some hit⟩

theorem slot?_of_mem {p : Pool} (h : p.Numbered) {name : TransportName} {g : Generation}
    (member : (name, g) ∈ p.slots) : p.slot? g.number = some g.slot := by
  cases hit : p.slots.find? (fun x => decide (x.2.number = g.number)) with
  | none => simpa using List.find?_eq_none.mp hit _ member
  | some entry =>
    have same : entry.2.number = g.number := by simpa using List.find?_some hit
    have equal : entry = (name, g) :=
      List.inj_on_of_nodup_map h.numbers_nodup (List.mem_of_find?_eq_some hit) member same
    simp [slot?, hit, equal]

theorem slot?_of_find? {p : Pool} (h : p.Numbered) {name : TransportName} {g : Generation}
    (found : p.find? name = some g) : p.slot? g.number = some g.slot :=
  slot?_of_mem h (find?_mem found)

/-- Two transports in the pool are of different generations. -/
theorem name_unique {p : Pool} (h : p.Numbered) {name other : TransportName} {g g' : Generation}
    (found : p.find? name = some g) (foundOther : p.find? other = some g')
    (same : g.number = g'.number) : name = other :=
  congrArg Prod.fst (List.inj_on_of_nodup_map h.numbers_nodup (find?_mem found) (find?_mem foundOther) same)

theorem slot?_issued {p : Pool} (h : p.Numbered) {n : Nat} {s : Slot} (found : p.slot? n = some s) :
    n < p.nextGeneration := by
  obtain ⟨name, member⟩ := slot?_mem found
  exact h.issued _ member

/-! ### New transports and dropped ones -/

theorem upsert_perm (change : Option Generation → Generation) (name : TransportName)
    (roster : Roster Generation) (absent : roster.get? name = none) :
    (roster.upsert change name).Perm ((name, change none) :: roster) := by
  induction roster with
  | nil => exact List.Perm.refl _
  | cons entry rest ih =>
    obtain ⟨key, value⟩ := entry
    have misses : ¬ key = name := by
      intro same
      simp [Roster.get?, same] at absent
    have absentRest : Roster.get? name rest = none := by simpa [Roster.get?, misses] using absent
    simp only [Roster.upsert, if_neg misses]
    split
    · exact List.Perm.refl _
    · exact ((ih absentRest).cons _).trans (List.Perm.swap _ _ _)

theorem find?_none {p : Pool} {name : TransportName} (absent : p.find? name = none) :
    name ∉ p.slots.map (·.1) := by
  intro member
  obtain ⟨entry, inside, rfl⟩ := List.mem_map.mp member
  have missing := Option.map_eq_none_iff.mp absent
  simpa using List.find?_eq_none.mp missing entry inside

theorem configure_found {p : Pool} {name : TransportName} {g : Generation}
    (found : p.find? name = some g) (limits : TransportLimits) (now : Nat) :
    (p.configure name limits now).1 = p.put g.number (g.slot.configure limits now).1 := by
  simp only [configure, found]

/-- A transport that was not in the pool starts with fresh slots, as the next generation. -/
theorem configure_new {p : Pool} (h : p.Numbered) {name : TransportName}
    (absent : p.find? name = none) (limits : TransportLimits) (now : Nat) :
    (p.configure name limits now).1.Numbered ∧
      (p.configure name limits now).1.slots.Perm
        ((name, ⟨p.nextGeneration, .fresh limits⟩) :: p.slots) ∧
      (p.configure name limits now).1.nextGeneration = p.nextGeneration + 1 := by
  have perm := upsert_perm (fun _ => ⟨p.nextGeneration, .fresh limits⟩) name p.slots absent
  simp only [configure, absent]
  refine ⟨⟨?_, ?_, ?_⟩, perm, trivial⟩
  · exact (perm.map _).nodup_iff.mpr (List.nodup_cons.mpr ⟨find?_none absent, h.names_nodup⟩)
  · refine (perm.map _).nodup_iff.mpr (List.nodup_cons.mpr ⟨?_, h.numbers_nodup⟩)
    intro member
    obtain ⟨entry, inside, same⟩ := List.mem_map.mp member
    exact Nat.lt_irrefl _ (same ▸ h.issued entry inside)
  · intro entry member
    rcases List.mem_cons.mp (perm.mem_iff.mp member) with rfl | old
    · exact Nat.lt_succ_self _
    · exact Nat.lt_succ_of_lt (h.issued entry old)

theorem slot?_congr {p q : Pool} (hp : p.Numbered) (hq : q.Numbered) {n : Nat}
    (same : ∀ name s, (name, ⟨n, s⟩) ∈ p.slots ↔ (name, ⟨n, s⟩) ∈ q.slots) : p.slot? n = q.slot? n := by
  apply Option.ext
  intro s
  constructor
  · intro found
    obtain ⟨name, member⟩ := slot?_mem found
    exact slot?_of_mem hq ((same name s).mp member)
  · intro found
    obtain ⟨name, member⟩ := slot?_mem found
    exact slot?_of_mem hp ((same name s).mpr member)

theorem slot?_configure_new {p : Pool} (h : p.Numbered) {name : TransportName}
    (absent : p.find? name = none) (limits : TransportLimits) (now n : Nat) :
    (p.configure name limits now).1.slot? n =
      if n = p.nextGeneration then some (.fresh limits) else p.slot? n := by
  obtain ⟨numbered, perm, -⟩ := configure_new h absent limits now
  split
  next last =>
    subst last
    exact slot?_of_mem numbered (perm.mem_iff.mpr (List.mem_cons_self ..))
  next other =>
    apply slot?_congr numbered h
    intro name' s
    rw [perm.mem_iff, List.mem_cons]
    simp [other]

theorem retain_numbered {p : Pool} (h : p.Numbered) (keep : List TransportName) :
    (p.retain keep).Numbered :=
  ⟨h.names_nodup.sublist (List.filter_sublist.map _), h.numbers_nodup.sublist (List.filter_sublist.map _),
    fun entry member => h.issued entry (List.mem_filter.mp member).1⟩

/-- A transport that is dropped is idle; all others stay as they are. -/
theorem slot?_retain {p : Pool} (h : p.Numbered) (keep : List TransportName) (n : Nat) :
    (p.retain keep).slot? n = p.slot? n ∨
      (p.retain keep).slot? n = none ∧ ∃ s, p.slot? n = some s ∧ s.isIdle = true := by
  cases found : p.slot? n with
  | none =>
    refine Or.inl ?_
    cases kept : (p.retain keep).slot? n with
    | none => rfl
    | some s =>
      obtain ⟨name, member⟩ := slot?_mem kept
      have old := slot?_of_mem h (List.mem_filter.mp member).1
      rw [found] at old
      cases old
  | some s =>
    obtain ⟨name, member⟩ := slot?_mem found
    by_cases stays : (keep.contains name || !s.isIdle) = true
    · exact Or.inl (slot?_of_mem (retain_numbered h keep) (List.mem_filter.mpr ⟨member, stays⟩))
    · refine Or.inr ⟨?_, s, rfl, by simpa using (Bool.or_eq_false_iff.mp (Bool.eq_false_iff.mpr stays)).2⟩
      cases kept : (p.retain keep).slot? n with
      | none => rfl
      | some s' =>
        obtain ⟨name', member'⟩ := slot?_mem kept
        have same := List.inj_on_of_nodup_map h.numbers_nodup (List.mem_filter.mp member').1 member rfl
        have wanted := (List.mem_filter.mp member').2
        rw [same] at wanted
        exact absurd wanted stays

end Pool

end RelayRamp.Lease
