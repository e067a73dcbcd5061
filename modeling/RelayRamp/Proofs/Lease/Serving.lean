import RelayRamp.Lease.Slot

/-!
# Handing out free slots

What serving a queue does to the slots of a transport, whichever operation started it. The limits, the leases
and the numbering of waiters stay as they are. The turns taken are those of the head of the queue in order,
each hand-off is recorded and counted, and serving stops only at an empty queue or at full capacity.
-/
namespace RelayRamp.Lease

/-- The waiter whose turn it is. -/
def Turn.waiter : Turn → Nat
  | handed waiter _ | late waiter _ | deaf waiter => waiter

/-- The hand-off that a turn makes: the waiter and its grant instant. -/
def Turn.handOff? : Turn → Option (Nat × Nat)
  | handed waiter grant => some (waiter, grant)
  | late .. | deaf _ => none

namespace Slot

@[simp] theorem turn_waiter (s : Slot) (now : Nat) (w : Waiter) : (s.turn now w).waiter = w.id := by
  unfold turn
  split
  · rfl
  · split <;> rfl

theorem take_frame (s : Slot) (t : Turn) :
    (s.take t).capacity = s.capacity ∧ (s.take t).rateDelay = s.rateDelay ∧
      (s.take t).leases = s.leases ∧ (s.take t).nextWaiter = s.nextWaiter := by
  cases t <;> exact ⟨rfl, rfl, rfl, rfl⟩

theorem take_handed (s : Slot) (t : Turn) : (s.take t).handed = s.handed ++ t.handOff?.toList := by
  cases t <;> simp [take, Turn.handOff?]

theorem take_occupied (s : Slot) (t : Turn) :
    (s.take t).occupied = s.occupied + t.handOff?.toList.length := by
  cases t <;> simp [take, Turn.handOff?]

theorem serve_full {s : Slot} (full : s.capacity ≤ s.occupied) (now : Nat) (ws : List Waiter) :
    serve now ws s = ({ s with waiters := ws }, []) := by
  cases ws with
  | nil => rfl
  | cons w rest => simp [serve, Nat.not_lt.mpr full]

theorem serve_free {s : Slot} (free : s.occupied < s.capacity) (now : Nat) (w : Waiter)
    (rest : List Waiter) :
    serve now (w :: rest) s =
      ((serve now rest (s.take (s.turn now w))).1,
        s.turn now w :: (serve now rest (s.take (s.turn now w))).2) := by
  simp [serve, free]

/-- Induction along the turns of a queue: it ends when the queue does, or when no slot is free. -/
theorem serve_induction {motive : List Waiter → Slot → Slot × List Turn → Prop} (now : Nat)
    (done : ∀ s, motive [] s ({ s with waiters := [] }, []))
    (full : ∀ w rest s, s.capacity ≤ s.occupied →
      motive (w :: rest) s ({ s with waiters := w :: rest }, []))
    (free : ∀ w rest s, s.occupied < s.capacity →
      motive rest (s.take (s.turn now w)) (serve now rest (s.take (s.turn now w))) →
      motive (w :: rest) s
        ((serve now rest (s.take (s.turn now w))).1,
          s.turn now w :: (serve now rest (s.take (s.turn now w))).2))
    (ws : List Waiter) (s : Slot) : motive ws s (serve now ws s) := by
  induction ws generalizing s with
  | nil => exact done s
  | cons w rest ih =>
    rcases Nat.lt_or_ge s.occupied s.capacity with h | h
    · rw [serve_free h]
      exact free w rest s h (ih _)
    · rw [serve_full h]
      exact full w rest s h

theorem serve_frame (now : Nat) (ws : List Waiter) (s : Slot) :
    (serve now ws s).1.capacity = s.capacity ∧ (serve now ws s).1.rateDelay = s.rateDelay ∧
      (serve now ws s).1.leases = s.leases ∧ (serve now ws s).1.nextWaiter = s.nextWaiter := by
  induction ws, s using serve_induction now with
  | done s => exact ⟨rfl, rfl, rfl, rfl⟩
  | full w rest s h => exact ⟨rfl, rfl, rfl, rfl⟩
  | free w rest s h ih =>
    obtain ⟨capacity, delay, leases, next⟩ := take_frame s (s.turn now w)
    exact ⟨ih.1.trans capacity, ih.2.1.trans delay, ih.2.2.1.trans leases, ih.2.2.2.trans next⟩

theorem serve_handed (now : Nat) (ws : List Waiter) (s : Slot) :
    (serve now ws s).1.handed = s.handed ++ (serve now ws s).2.filterMap Turn.handOff? := by
  induction ws, s using serve_induction now with
  | done s => simp
  | full w rest s h => simp
  | free w rest s h ih =>
    rw [ih, take_handed]
    cases hand : (s.turn now w).handOff? <;> simp [hand]

theorem serve_occupied (now : Nat) (ws : List Waiter) (s : Slot) :
    (serve now ws s).1.occupied =
      s.occupied + ((serve now ws s).2.filterMap Turn.handOff?).length := by
  induction ws, s using serve_induction now with
  | done s => simp
  | full w rest s h => simp
  | free w rest s h ih =>
    rw [ih, take_occupied]
    cases hand : (s.turn now w).handOff? <;> simp [hand]
    omega

/-- The queue that is left is what follows the waiters that had their turn. -/
theorem serve_waiters (now : Nat) (ws : List Waiter) (s : Slot) :
    (serve now ws s).2.map Turn.waiter ++ (serve now ws s).1.waiters.map (·.id) = ws.map (·.id) ∧
      (serve now ws s).1.waiters = ws.drop (serve now ws s).2.length := by
  induction ws, s using serve_induction now with
  | done s => exact ⟨rfl, rfl⟩
  | full w rest s h => exact ⟨rfl, rfl⟩
  | free w rest s h ih =>
    refine ⟨?_, by simpa using ih.2⟩
    simpa using ih.1

/-- Serving goes on until nobody waits or every slot is taken. -/
theorem serve_exhausts (now : Nat) (ws : List Waiter) (s : Slot) :
    (serve now ws s).1.waiters = [] ∨ (serve now ws s).1.capacity ≤ (serve now ws s).1.occupied := by
  induction ws, s using serve_induction now with
  | done s => exact Or.inl rfl
  | full w rest s h => exact Or.inr h
  | free w rest s h ih => exact ih

theorem dispatch_frame (s : Slot) (now : Nat) :
    (s.dispatch now).1.capacity = s.capacity ∧ (s.dispatch now).1.rateDelay = s.rateDelay ∧
      (s.dispatch now).1.leases = s.leases ∧ (s.dispatch now).1.nextWaiter = s.nextWaiter :=
  serve_frame now s.waiters s

theorem freeSlot_frame (s : Slot) (now : Nat) :
    (s.freeSlot now).1.capacity = s.capacity ∧ (s.freeSlot now).1.rateDelay = s.rateDelay ∧
      (s.freeSlot now).1.leases = s.leases ∧ (s.freeSlot now).1.nextWaiter = s.nextWaiter :=
  dispatch_frame { s with occupied := s.occupied - 1 } now

/-! ### The last grant -/

/-- The last grant of the second is not before that of the first. -/
def GrantsOn (s s' : Slot) : Prop :=
  ∀ last, s.lastGrant = some last → ∃ later, s'.lastGrant = some later ∧ last ≤ later

theorem GrantsOn.of_eq {s s' : Slot} (same : s'.lastGrant = s.lastGrant) : s.GrantsOn s' :=
  fun last given => ⟨last, same.trans given, Nat.le_refl _⟩

theorem GrantsOn.trans {s s' s'' : Slot} (first : s.GrantsOn s') (next : s'.GrantsOn s'') :
    s.GrantsOn s'' := by
  intro last given
  obtain ⟨later, given', le⟩ := first last given
  obtain ⟨latest, given'', le'⟩ := next later given'
  exact ⟨latest, given'', Nat.le_trans le le'⟩

theorem nextGrant_spaced {s : Slot} {last : Nat} (given : s.lastGrant = some last) (now : Nat) :
    last + s.rateDelay ≤ s.nextGrant now := by
  simp only [nextGrant, given]
  exact Nat.le_max_left _ _

theorem grantsOn_next (s s' : Slot) {now : Nat} (given : s'.lastGrant = some (s.nextGrant now)) :
    s.GrantsOn s' := by
  intro last old
  have spaced := nextGrant_spaced old now
  exact ⟨s.nextGrant now, given, by omega⟩

theorem GrantsOn.nextGrant_le {s s' : Slot} (on : s.GrantsOn s') (delay : s'.rateDelay = s.rateDelay)
    (now : Nat) : s.nextGrant now ≤ s'.nextGrant now := by
  unfold nextGrant
  cases given : s.lastGrant with
  | none =>
    cases s'.lastGrant with
    | none => exact Nat.le_refl _
    | some later => exact Nat.le_max_right _ _
  | some last =>
    obtain ⟨later, given', le⟩ := on last given
    rw [given', delay]
    dsimp only
    omega

theorem turn_cases (s : Slot) (now : Nat) (w : Waiter) :
    (w.deadline < s.nextGrant now ∧ s.turn now w = .late w.id (s.nextGrant now)) ∨
      (w.listening = true ∧ s.turn now w = .handed w.id (s.nextGrant now)) ∨
      (w.listening = false ∧ s.turn now w = .deaf w.id) := by
  rcases Nat.lt_or_ge w.deadline (s.nextGrant now) with past | inTime
  · exact Or.inl ⟨past, by rw [turn, if_pos past]⟩
  · cases listens : w.listening with
    | true => exact Or.inr (Or.inl ⟨rfl, by simp [turn, Nat.not_lt.mpr inTime, listens]⟩)
    | false => exact Or.inr (Or.inr ⟨rfl, by simp [turn, Nat.not_lt.mpr inTime, listens]⟩)

/-! ### Slots before and after -/

/-- What every way of serving waiters has in common: the limits stay, slots are taken only while they are free,
the last grant does not go back, and whoever is passed over as late has no earlier grant afterwards. -/
structure Serves (now : Nat) (s : Slot) (r : Slot × List Turn) : Prop where
  capacity : r.1.capacity = s.capacity
  rateDelay : r.1.rateDelay = s.rateDelay
  occupied_le : r.1.occupied ≤ max s.occupied s.capacity
  takes : r.2.filterMap Turn.handOff? ≠ [] → r.1.occupied ≤ s.capacity
  grantsOn : s.GrantsOn r.1
  late : ∀ waiter earliest, .late waiter earliest ∈ r.2 → earliest ≤ r.1.nextGrant now

namespace Serves

variable {now : Nat}

/-- Without turns it is enough that no slot is taken and no grant made. -/
theorem quiet {s s' : Slot} (capacity : s'.capacity = s.capacity) (rateDelay : s'.rateDelay = s.rateDelay)
    (occupied : s'.occupied ≤ max s.occupied s.capacity) (on : s.GrantsOn s') : Serves now s (s', []) where
  capacity := capacity
  rateDelay := rateDelay
  occupied_le := occupied
  takes := fun none => absurd rfl none
  grantsOn := on
  late := by simp

theorem refl (s : Slot) : Serves now s (s, []) :=
  quiet rfl rfl (Nat.le_max_left _ _) (.of_eq rfl)

theorem trans {s : Slot} {r r' : Slot × List Turn} (first : Serves now s r) (next : Serves now r.1 r') :
    Serves now s (r'.1, r.2 ++ r'.2) where
  capacity := next.capacity.trans first.capacity
  rateDelay := next.rateDelay.trans first.rateDelay
  occupied_le := by
    have before := first.occupied_le
    have after := next.occupied_le
    rw [first.capacity] at after
    exact Nat.le_trans after (by omega)
  takes := by
    intro some_turn
    by_cases more : r'.2.filterMap Turn.handOff? = []
    · have taken : r.2.filterMap Turn.handOff? ≠ [] := by
        intro none
        exact some_turn (by rw [List.filterMap_append, none, more, List.nil_append])
      have before := first.takes taken
      have after := next.occupied_le
      rw [first.capacity] at after
      exact Nat.le_trans after (by omega)
    · exact first.capacity ▸ next.takes more
  grantsOn := first.grantsOn.trans next.grantsOn
  late := by
    intro waiter earliest member
    rcases List.mem_append.mp member with old | new
    · have bound := first.late waiter earliest old
      exact Nat.le_trans bound (next.grantsOn.nextGrant_le next.rateDelay now)
    · exact next.late waiter earliest new

end Serves

theorem take_serves {s : Slot} (free : s.occupied < s.capacity) (now : Nat) (w : Waiter) :
    Serves now s (s.take (s.turn now w), [s.turn now w]) := by
  rcases turn_cases s now w with ⟨-, late⟩ | ⟨-, hands⟩ | ⟨-, deaf⟩
  · rw [late]
    refine ⟨rfl, rfl, Nat.le_max_left _ _, fun taken => absurd rfl taken, .of_eq rfl, ?_⟩
    intro waiter earliest member
    cases List.mem_singleton.mp member
    exact Nat.le_refl _
  · rw [hands]
    refine ⟨rfl, rfl, ?_, fun _ => free, grantsOn_next s _ rfl, ?_⟩
    · simp only [take]
      omega
    · intro waiter earliest member
      cases List.mem_singleton.mp member
  · rw [deaf]
    refine ⟨rfl, rfl, Nat.le_max_left _ _, fun taken => absurd rfl taken, .of_eq rfl, ?_⟩
    intro waiter earliest member
    cases List.mem_singleton.mp member

theorem serve_serves (now : Nat) (ws : List Waiter) (s : Slot) : Serves now s (serve now ws s) := by
  induction ws, s using serve_induction now with
  | done s => exact .quiet rfl rfl (Nat.le_max_left _ _) (.of_eq rfl)
  | full w rest s h => exact .quiet rfl rfl (Nat.le_max_left _ _) (.of_eq rfl)
  | free w rest s h ih => exact (take_serves h now w).trans ih

theorem freeSlot_serves (s : Slot) (now : Nat) : Serves now s (s.freeSlot now) := by
  have given : Serves now s ({ s with occupied := s.occupied - 1 }, []) :=
    .quiet rfl rfl (by simp only; omega) (.of_eq rfl)
  exact given.trans (serve_serves now s.waiters { s with occupied := s.occupied - 1 })

end Slot

end RelayRamp.Lease
