import RelayRamp.Proofs.Lease.Operation

/-!
# Callers in order of arrival

The slots of a transport forget who came when. Here every caller is written down as it enters, and what becomes
of it is noted with it: the grant instant that is reserved for it and the rate delay then in force, the earliest
grant that came after its deadline, or when and why it gave up. The record only follows the operations and
never changes what they do.
-/
namespace RelayRamp.Lease

open RelayRamp.Routing

section Last

variable {α : Type} {xs : List α} {x : α}

theorem pairwise_snoc {R : α → α → Prop} (old : xs.Pairwise R) (last : ∀ a ∈ xs, R a x) :
    (xs ++ [x]).Pairwise R := by
  refine List.pairwise_append.mpr ⟨old, List.pairwise_singleton _ _, ?_⟩
  rintro a here b new
  rw [List.mem_singleton.mp new]
  exact last a here

theorem exists_snoc {P : α → Prop} (old : ∃ a ∈ xs, P a) : ∃ a ∈ xs ++ [x], P a := by
  obtain ⟨a, here, holds⟩ := old
  exact ⟨a, List.mem_append_left _ here, holds⟩

theorem mem_snoc_iff {a : α} : a ∈ xs ++ [x] ↔ a ∈ xs ∨ a = x := by
  rw [List.mem_append, List.mem_singleton]

end Last

inductive Fate where
  | waiting
  /-- A grant instant is reserved; the rate delay was in force then. -/
  | promised (grant delay : Nat)
  /-- Its earliest grant, on entry or when its turn came, was past its deadline. -/
  | late (earliest : Nat)
  | gone (cause : Cause) (instant : Nat)
  deriving DecidableEq, Repr

structure Caller where
  lease : Nat
  deadline : Nat
  /-- Its number in the queue, if it was queued. -/
  waiter : Option Nat
  fate : Fate
  deriving DecidableEq, Repr

namespace Caller

/-- Decides the fate of a caller if it is the one that still waits under this number. -/
def settle (c : Caller) (waiter : Nat) (fate : Fate) : Caller :=
  if c.waiter = some waiter ∧ c.fate = .waiting then { c with fate := fate } else c

def heed (c : Caller) (delay : Nat) : Turn → Caller
  | .handed waiter grant => c.settle waiter (.promised grant delay)
  | .late waiter earliest => c.settle waiter (.late earliest)
  | .deaf _ => c

/-- Why later callers may be granted before this one. -/
def Excused (c : Caller) : Prop :=
  match c.fate with
  | .late earliest => c.deadline < earliest
  | .gone .cancelled _ => True
  | .gone .expired instant => c.deadline ≤ instant
  | .waiting | .promised .. => False

/-- When the later caller has a grant, the earlier one has a grant that is a rate delay before it, or an
excuse. -/
def Before (a b : Caller) : Prop :=
  ∀ grant delay, b.fate = .promised grant delay →
    (∃ earlier delay', a.fate = .promised earlier delay' ∧ earlier + delay ≤ grant) ∨ a.Excused

theorem settle_of_fate {c : Caller} {waiter : Nat} {fate : Fate} (ended : c.fate ≠ .waiting) :
    c.settle waiter fate = c := by
  rw [settle, if_neg fun both => ended both.2]

theorem settle_of_waiter {c : Caller} {waiter : Nat} {fate : Fate} (other : c.waiter ≠ some waiter) :
    c.settle waiter fate = c := by
  rw [settle, if_neg fun both => other both.1]

theorem settle_waiting {c : Caller} {waiter : Nat} {fate : Fate} (mine : c.waiter = some waiter)
    (waits : c.fate = .waiting) : c.settle waiter fate = { c with fate := fate } := by
  rw [settle, if_pos ⟨mine, waits⟩]

theorem settle_cases (c : Caller) (waiter : Nat) (fate : Fate) :
    c.waiter = some waiter ∧ c.fate = .waiting ∧ c.settle waiter fate = { c with fate := fate } ∨
      c.settle waiter fate = c := by
  by_cases both : c.waiter = some waiter ∧ c.fate = .waiting
  · exact Or.inl ⟨both.1, both.2, settle_waiting both.1 both.2⟩
  · exact Or.inr (by rw [settle, if_neg both])

/-- Who the caller is stays the same. -/
theorem settle_frame (c : Caller) (waiter : Nat) (fate : Fate) :
    (c.settle waiter fate).lease = c.lease ∧ (c.settle waiter fate).deadline = c.deadline ∧
      (c.settle waiter fate).waiter = c.waiter := by
  rcases settle_cases c waiter fate with ⟨-, -, settled⟩ | same
  · rw [settled]
    exact ⟨rfl, rfl, rfl⟩
  · rw [same]
    exact ⟨rfl, rfl, rfl⟩

theorem waiting_unexcused {c : Caller} (waits : c.fate = .waiting) : ¬ c.Excused := by
  simp [Excused, waits]

/-- A caller that waits is in nobody's way only as long as no later one has a grant. -/
theorem Before.not_waiting {a b : Caller} (before : Before a b) {grant delay : Nat}
    (promised : b.fate = .promised grant delay) : a.fate ≠ .waiting := by
  intro waits
  rcases before grant delay promised with ⟨earlier, delay', fate, -⟩ | excused
  · rw [waits] at fate
    cases fate
  · exact waiting_unexcused waits excused

end Caller

open Caller

/-- Each caller takes note of the turns, one after the other. -/
def heedAll (delay : Nat) (turns : List Turn) (callers : List Caller) : List Caller :=
  turns.foldl (fun callers turn => callers.map (·.heed delay turn)) callers

theorem heedAll_append (delay : Nat) (turns more : List Turn) (callers : List Caller) :
    heedAll delay (turns ++ more) callers = heedAll delay more (heedAll delay turns callers) :=
  List.foldl_append

namespace Slot

/-- The entry of a caller in the record. -/
def enrol (s : Slot) (now lease deadline : Nat) : Caller :=
  match (s.enter now lease deadline).2 with
  | .granted grant => ⟨lease, deadline, none, .promised grant s.rateDelay⟩
  | .queued waiter => ⟨lease, deadline, some waiter, .waiting⟩
  | .tooLate => ⟨lease, deadline, none, .late (s.nextGrant now)⟩

def note (s : Slot) (now : Nat) (callers : List Caller) : Operation → List Caller
  | .enter lease deadline => callers ++ [s.enrol now lease deadline]
  | .hangUp waiter cause | .leave waiter cause => callers.map (·.settle waiter (.gone cause now))
  | .claim .. | .release _ | .reclaim _ | .configure _ => callers

/-- The record after an operation and the turns taken in it. -/
def register (s : Slot) (now : Nat) (op : Operation) (callers : List Caller) : List Caller :=
  heedAll (s.step now op).1.rateDelay (s.step now op).2 (s.note now callers op)

end Slot

/-! ### What the record keeps -/

/-- The same caller later: its fate does not change once it is decided. -/
def Caller.Follows (c c' : Caller) : Prop :=
  c'.lease = c.lease ∧ c'.deadline = c.deadline ∧ c'.waiter = c.waiter ∧
    (c.fate ≠ .waiting → c'.fate = c.fate)

namespace Caller

theorem Follows.refl (c : Caller) : c.Follows c := ⟨rfl, rfl, rfl, fun _ => rfl⟩

theorem Follows.trans {a b c : Caller} (first : a.Follows b) (next : b.Follows c) : a.Follows c := by
  obtain ⟨lease, deadline, waiter, fate⟩ := first
  obtain ⟨lease', deadline', waiter', fate'⟩ := next
  refine ⟨lease'.trans lease, deadline'.trans deadline, waiter'.trans waiter, fun ended => ?_⟩
  have same := fate ended
  exact (fate' (same ▸ ended)).trans same

theorem settle_follows (c : Caller) (waiter : Nat) (fate : Fate) : c.Follows (c.settle waiter fate) := by
  obtain ⟨lease, deadline, number⟩ := settle_frame c waiter fate
  exact ⟨lease, deadline, number, fun ended => by rw [settle_of_fate ended]⟩

theorem heed_follows (c : Caller) (delay : Nat) (turn : Turn) : c.Follows (c.heed delay turn) := by
  cases turn with
  | handed waiter grant => exact settle_follows c waiter _
  | late waiter earliest => exact settle_follows c waiter _
  | deaf waiter => exact Follows.refl c

end Caller

theorem heedAll_follows (delay : Nat) (turns : List Turn) {callers : List Caller} {c : Caller}
    (member : c ∈ callers) : ∃ c' ∈ heedAll delay turns callers, c.Follows c' := by
  induction turns generalizing callers c with
  | nil => exact ⟨c, member, Follows.refl c⟩
  | cons turn rest ih =>
    obtain ⟨c', inside, follows⟩ := ih (List.mem_map_of_mem (f := (·.heed delay turn)) member)
    exact ⟨c', inside, (heed_follows c delay turn).trans follows⟩

theorem heedAll_leases (delay : Nat) (turns : List Turn) (callers : List Caller) :
    (heedAll delay turns callers).map (·.lease) = callers.map (·.lease) := by
  induction turns generalizing callers with
  | nil => rfl
  | cons turn rest ih =>
    refine (ih _).trans ?_
    rw [List.map_map]
    exact List.map_congr_left fun c _ => (heed_follows c delay turn).1

/-- The lease of the caller that enters. -/
def Operation.arrival? : Operation → Option Nat
  | enter lease _ => some lease
  | _ => none

namespace Slot

theorem enrol_lease (s : Slot) (now lease deadline : Nat) :
    (s.enrol now lease deadline).lease = lease ∧ (s.enrol now lease deadline).deadline = deadline := by
  unfold enrol
  split <;> exact ⟨rfl, rfl⟩

theorem register_follows (s : Slot) (now : Nat) (op : Operation) {callers : List Caller} {c : Caller}
    (member : c ∈ callers) : ∃ c' ∈ s.register now op callers, c.Follows c' := by
  have noted : ∃ c' ∈ s.note now callers op, c.Follows c' := by
    cases op with
    | enter lease deadline => exact ⟨c, List.mem_append_left _ member, Follows.refl c⟩
    | hangUp waiter cause => exact ⟨_, List.mem_map_of_mem member, settle_follows c waiter _⟩
    | leave waiter cause => exact ⟨_, List.mem_map_of_mem member, settle_follows c waiter _⟩
    | _ => exact ⟨c, member, Follows.refl c⟩
  obtain ⟨c', inside, follows⟩ := noted
  obtain ⟨c'', inside', follows'⟩ := heedAll_follows _ _ inside
  exact ⟨c'', inside', follows.trans follows'⟩

/-- Callers are only ever added, at the end. -/
theorem register_leases (s : Slot) (now : Nat) (op : Operation) (callers : List Caller) :
    (s.register now op callers).map (·.lease) = callers.map (·.lease) ++ op.arrival?.toList := by
  refine (heedAll_leases _ _ _).trans ?_
  cases op with
  | enter lease deadline =>
    simp only [note, List.map_append, List.map_singleton, (enrol_lease s now lease deadline).1]
    rfl
  | hangUp waiter cause =>
    simp only [note, List.map_map, Operation.arrival?, Option.toList_none, List.append_nil]
    exact List.map_congr_left fun c _ => (settle_follows c waiter _).1
  | leave waiter cause =>
    simp only [note, List.map_map, Operation.arrival?, Option.toList_none, List.append_nil]
    exact List.map_congr_left fun c _ => (settle_follows c waiter _).1
  | _ => simp only [note, Operation.arrival?, Option.toList_none, List.append_nil]

end Slot

/-! ### What the record takes in -/

theorem heedAll_changes {delay : Nat} {turns : List Turn} {callers : List Caller} {c : Caller}
    (member : c ∈ heedAll delay turns callers) :
    c ∈ callers ∨ (∃ grant, c.fate = .promised grant delay) ∨
      ∃ waiter earliest, .late waiter earliest ∈ turns ∧ c.fate = .late earliest := by
  induction turns generalizing callers with
  | nil => exact Or.inl member
  | cons turn rest ih =>
    rcases ih member with heard | promised | ⟨waiter, earliest, inside, late⟩
    · obtain ⟨old, inside, rfl⟩ := List.mem_map.mp heard
      cases turn with
      | handed waiter grant =>
        rcases settle_cases old waiter (.promised grant delay) with ⟨-, -, settled⟩ | same
        · exact Or.inr (Or.inl ⟨grant, congrArg fate settled⟩)
        · exact Or.inl (by rw [heed, same]; exact inside)
      | late waiter earliest =>
        rcases settle_cases old waiter (.late earliest) with ⟨-, -, settled⟩ | same
        · exact Or.inr (Or.inr ⟨waiter, earliest, List.mem_cons_self .., congrArg fate settled⟩)
        · exact Or.inl (by rw [heed, same]; exact inside)
      | deaf waiter => exact Or.inl inside
    · exact Or.inr (Or.inl promised)
    · exact Or.inr (Or.inr ⟨waiter, earliest, List.mem_cons_of_mem _ inside, late⟩)

theorem settle_changes {callers : List Caller} {waiter : Nat} {fate : Fate} {c : Caller}
    (member : c ∈ callers.map (·.settle waiter fate)) :
    c ∈ callers ∨ ∃ old ∈ callers, old.waiter = some waiter ∧ old.fate = .waiting ∧
      c = { old with fate := fate } := by
  obtain ⟨old, inside, rfl⟩ := List.mem_map.mp member
  rcases settle_cases old waiter fate with ⟨mine, waits, settled⟩ | same
  · exact Or.inr ⟨old, inside, mine, waits, settled⟩
  · exact Or.inl (by rw [same]; exact inside)

namespace Slot

/-- An entry of the record is new because its caller enters, gives up, or is decided in a turn. -/
theorem register_changes {s : Slot} {now : Nat} {op : Operation} {callers : List Caller} {c : Caller}
    (member : c ∈ s.register now op callers) :
    c ∈ callers ∨
      (∃ lease deadline, op = .enter lease deadline ∧ c = s.enrol now lease deadline) ∨
      (∃ waiter cause, (op = .hangUp waiter cause ∨ op = .leave waiter cause) ∧
        ∃ old ∈ callers, old.waiter = some waiter ∧ c = { old with fate := .gone cause now }) ∨
      (∃ grant, c.fate = .promised grant (s.step now op).1.rateDelay) ∨
      ∃ earliest, c.fate = .late earliest ∧ earliest ≤ (s.step now op).1.nextGrant now := by
  rcases heedAll_changes member with noted | promised | ⟨waiter, earliest, passed, late⟩
  · cases op with
    | enter lease deadline =>
      rcases List.mem_append.mp noted with old | new
      · exact Or.inl old
      · exact Or.inr (Or.inl ⟨lease, deadline, rfl, List.mem_singleton.mp new⟩)
    | hangUp waiter cause =>
      rcases settle_changes noted with old | ⟨old, inside, mine, -, same⟩
      · exact Or.inl old
      · exact Or.inr (Or.inr (Or.inl ⟨waiter, cause, Or.inl rfl, old, inside, mine, same⟩))
    | leave waiter cause =>
      rcases settle_changes noted with old | ⟨old, inside, mine, -, same⟩
      · exact Or.inl old
      · exact Or.inr (Or.inr (Or.inl ⟨waiter, cause, Or.inr rfl, old, inside, mine, same⟩))
    | _ => exact Or.inl noted
  · exact Or.inr (Or.inr (Or.inr (Or.inl promised)))
  · exact Or.inr (Or.inr (Or.inr (Or.inr ⟨earliest, late, step_late passed⟩)))

/-- Who enters waits, or has a grant with the rate delay in force, or is late. -/
theorem enrol_fate (s : Slot) (now lease deadline : Nat) :
    (s.enrol now lease deadline).fate = .waiting ∨
      (∃ grant, (s.enrol now lease deadline).fate =
        .promised grant (s.enter now lease deadline).1.rateDelay) ∨
      (s.enrol now lease deadline).fate = .late ((s.enter now lease deadline).1.nextGrant now) := by
  rcases enter_cases s now lease deadline with
    ⟨-, -, -, granted⟩ | ⟨-, -, -, refused⟩ | ⟨-, queued⟩
  · exact Or.inr (Or.inl ⟨s.nextGrant now, by simp only [enrol, granted]⟩)
  · exact Or.inr (Or.inr (by simp only [enrol, refused]))
  · exact Or.inl (by simp only [enrol, queued])

end Slot

end RelayRamp.Lease
