import RelayRamp.Proofs.Lease.Succession

/-!
# Slots that are reached by handles

Looking a transport up, entering its slots and cleaning up after a wait are steps of their own, and anything can happen in
between. Whoever has looked a transport up keeps hold of those slots, also when the transport is dropped from the pool and
set up again with others. So a dropped generation is kept here with its slots, and a step is performed on the slots that
the caller holds, wherever they are. The only thing that a dropped generation is marked for is that it is not entered: a
caller that comes too late looks its transport up again.

`Step` lists the steps, each with the lease it is made for, in any order and at any instants. What they do to slots is one
operation on those of a generation, a sweep, or a new transport.
-/
namespace RelayRamp.Lease

open RelayRamp.Admission RelayRamp.Routing

/-- How far an acquisition has come. -/
inductive Errand where
  /-- It has an id for its lease, and has to look its transport up. -/
  | seeking (ticket : LeaseTicket) (deadline : Nat)
  /-- It has found the slots of a generation and has to enter them. -/
  | holding (ticket : LeaseTicket) (deadline generation : Nat)
  /-- It ended before it entered any slots. -/
  | refused (fault : LeaseFault)
  /-- It has entered the slots of a generation, whatever became of it there; nothing is left of one that was given up, or
  that let its lease go. -/
  | entered (generation : Nat) (a : Option Acquisition)

/-- A pool, the generations that were dropped from it with their transports, and the acquisitions under the ids of their
leases. -/
structure Archive where
  pool : Pool
  dropped : Nat → Option (TransportName × Slot)
  calls : Nat → Option Errand

namespace Archive

def empty : Archive := ⟨.empty, fun _ => none, fun _ => none⟩

/-- The slots of a generation, in the pool or dropped from it. -/
def slot? (r : Archive) (n : Nat) : Option Slot :=
  (r.pool.slot? n).or ((r.dropped n).map (·.2))

/-- The generation is one of the transport. -/
def Of (r : Archive) (n : Nat) (name : TransportName) : Prop :=
  (∃ g, r.pool.find? name = some g ∧ g.number = n) ∨ ∃ s, r.dropped n = some (name, s)

/-- Performs an operation on the slots of a generation, wherever they are. -/
def operate (r : Archive) (now n : Nat) (op : Operation) : Archive :=
  { r with
    pool := r.pool.adjust n fun s => (s.step now op).1
    dropped := fun m => (r.dropped m).map fun (name, s) => (name, if m = n then (s.step now op).1 else s) }

/-- Keeps what has become of an acquisition. -/
def keep (r : Archive) (l : Nat) (e : Option Errand) : Archive :=
  { r with calls := fun k => if k = l then e else r.calls k }

@[simp]
theorem calls_keep (r : Archive) (l : Nat) (e : Option Errand) : (r.keep l e).calls l = e := if_pos rfl

/-- Drops the idle transports that are not kept. Their slots are still there for whoever holds them. -/
def retain (r : Archive) (names : List TransportName) : Archive :=
  { r with
    pool := r.pool.retain names
    dropped := fun n =>
      (r.dropped n).or
        ((r.pool.slots.find? fun (name, g) => g.number = n && !(names.contains name || !g.slot.isIdle)).map
          fun (name, g) => (name, g.slot)) }

/-- A step at an instant, made for a lease or for none. -/
inductive Step (now : Nat) (r : Archive) : Option Nat → Archive → Prop where
  /-- An acquisition begins: it gets an id for its lease, and a deadline. -/
  | request (transport : TransportName) (timeout : Nat) :
    Step now r (some r.pool.nextLease)
      ({ r with pool := { r.pool with nextLease := r.pool.nextLease + 1 } }.keep r.pool.nextLease
        (some (.seeking ⟨transport, r.pool.nextLease⟩ (now + timeout))))
  | lookUp {l ticket deadline} (seeks : r.calls l = some (.seeking ticket deadline)) :
    Step now r (some l) (r.keep l (some
      (match r.pool.find? ticket.transport with
        | some g => .holding ticket deadline g.number
        | none => .refused (.unknownTransport ticket.transport.text))))
  /-- What it holds was dropped meanwhile, so it looks the transport up again. -/
  | redirect {l ticket deadline n entry} (holds : r.calls l = some (.holding ticket deadline n))
      (gone : r.dropped n = some entry) :
    Step now r (some l) (r.keep l (some (.seeking ticket deadline)))
  | enter {l ticket deadline n s} (holds : r.calls l = some (.holding ticket deadline n)) (alive : r.dropped n = none)
      (found : r.slot? n = some s) :
    Step now r (some l) ((r.operate now n (.enter ticket.leaseId deadline)).keep l
      (some (.entered n (some (.entered ticket n deadline now (s.enter now ticket.leaseId deadline).2)))))
  /-- A queued acquisition makes the slot that it was handed its lease. -/
  | claim {l n ticket key deadline s taken} (queued : r.calls l = some (.entered n (some (.queued ticket key deadline))))
      (found : r.slot? n = some s) (handed : s.claim key.waiter ticket.leaseId = some taken) :
    Step now r (some l) ((r.operate now n (.claim key.waiter ticket.leaseId)).keep l
      (some (.entered n (some (.paced ticket taken.2 now)))))
  /-- It stops listening, and leaves later. -/
  | hangUp {l n ticket key deadline} (queued : r.calls l = some (.entered n (some (.queued ticket key deadline))))
      (cause : Cause) :
    Step now r (some l) (r.operate now n (.hangUp key.waiter cause))
  /-- It leaves, because it was passed over or is out of time. -/
  | leave {l n ticket key deadline s} (queued : r.calls l = some (.entered n (some (.queued ticket key deadline))))
      (found : r.slot? n = some s)
      (ends : deadline ≤ now ∨ s.waiters.any (·.id = key.waiter) = false ∧ s.claim key.waiter ticket.leaseId = none) :
    Step now r (some l) ((r.operate now n (.leave key.waiter .expired)).keep l
      (some (.entered n (some (.failed (.timedOut ticket.transport.text))))))
  /-- It is cancelled in the queue. -/
  | abandon {l n ticket key deadline} (queued : r.calls l = some (.entered n (some (.queued ticket key deadline)))) :
    Step now r (some l) ((r.operate now n (.leave key.waiter .cancelled)).keep l (some (.entered n none)))
  /-- Its grant instant comes. -/
  | pace {l n ticket grant} (pacing : r.calls l = some (.entered n (some (.pacing ticket grant)))) :
    Step now r (some l) (r.keep l (some (.entered n (some (.paced ticket grant now)))))
  /-- It is cancelled before it has entered any slots, or its fault was taken note of. -/
  | withdraw {l e} (waits : r.calls l = some e) (outside : ∀ n a, e ≠ .entered n a) :
    Step now r (some l) (r.keep l none)
  /-- It is cancelled after its wait, or its lease is dropped or kept without it: only the id of the lease is left. -/
  | forget {l n a} (waits : r.calls l = some (.entered n a))
      (apart : ∀ ticket key deadline, a ≠ some (.queued ticket key deadline)) :
    Step now r (some l) (r.keep l (some (.entered n none)))
  /-- A lease is released by its id, on slots that were looked up at some time before. -/
  | release (n lease : Nat) : Step now r (some lease) (r.operate now n (.release lease))
  /-- The expired leases of slots that were looked up are reclaimed. -/
  | reclaim (n maxHold : Nat) : Step now r none (r.operate now n (.reclaim maxHold))
  | limit {transport g} (found : r.pool.find? transport = some g) (limits : TransportLimits) :
    Step now r none (r.operate now g.number (.configure limits))
  | create {transport} (absent : r.pool.find? transport = none) (limits : TransportLimits) :
    Step now r none { r with pool := (r.pool.configure transport limits now).1 }
  | sweep (names : List TransportName) : Step now r none (r.retain names)

/-- Any number of steps. -/
abbrev Runs : Archive → Archive → Prop := Relation.ReflTransGen fun r r' => ∃ now lease, Step now r lease r'

end Archive

/-! ### Idle slots -/

/-- The operation is one for callers that have entered the slots; it neither lets one in nor sets limits. -/
def Operation.Late : Operation → Prop
  | .enter .. | .configure _ => False
  | _ => True

namespace Slot

variable {s : Slot}

theorem Sound.empty_of_idle (sound : s.Sound) (idle : s.isIdle = true) :
    s.waiters = [] ∧ s.leases = [] ∧ s.handed = [] := by
  simp only [isIdle, Bool.and_eq_true, decide_eq_true_eq, List.isEmpty_iff] at idle
  have balance := sound.balance
  exact ⟨idle.2, List.length_eq_zero_iff.mp (by omega), List.length_eq_zero_iff.mp (by omega)⟩

/-- Slots that nothing holds or awaits are not changed by callers that have entered them before. -/
theorem step_idle (sound : s.Sound) (idle : s.isIdle = true) (now : Nat) {op : Operation} (late : op.Late) :
    (s.step now op).1 = s := by
  obtain ⟨waiters, leases, handed⟩ := sound.empty_of_idle idle
  cases op with
  | enter lease deadline => exact late.elim
  | configure limits => exact late.elim
  | claim waiter lease =>
    rcases claim_cases s waiter lease with ⟨grant, member, -⟩ | ⟨-, missing⟩
    · rw [handed] at member
      cases member
    · rw [step, missing]
      rfl
  | hangUp waiter cause =>
    simp only [step, hangUp, waiters, List.map_nil]
    rw [← waiters]
  | leave waiter cause =>
    rcases leave_cases s waiter now with ⟨member, -⟩ | ⟨-, member, -⟩ | ⟨-, -, gone⟩
    · rw [waiters] at member
      cases member
    · rw [handed] at member
      cases member
    · rw [step, gone]
  | release lease =>
    have free : lease ∉ s.leases.map (·.1) := by
      rw [leases]
      exact List.not_mem_nil
    rw [step, release_of_not_mem free]
    rfl
  | reclaim maxHold =>
    have none : s.expired maxHold now = [] := by simp [expired, leases]
    rw [step, none]
    rfl

/-- A release that finds no such lease changes nothing. -/
theorem step_release {lease : Nat} (free : lease ∉ s.leases.map (·.1)) (now : Nat) :
    (s.step now (.release lease)).1 = s := by
  rw [step, release_of_not_mem free]
  rfl

end Slot

namespace Pool

variable {p : Pool} {n : Nat} {f : Slot → Slot}

theorem put_self (h : p.Numbered) {s : Slot} (found : p.slot? n = some s) : p.put n s = p := by
  have same : (p.slots.map fun (name, g) => if g.number = n then (name, { g with slot := s }) else (name, g)) =
      p.slots := by
    conv_rhs => rw [← List.map_id p.slots]
    apply List.map_congr_left
    rintro ⟨name, g⟩ member
    dsimp only
    split
    · rename_i number
      subst number
      rw [slot?_of_mem h member] at found
      cases found
      rfl
    · rfl
  rw [put, same]

theorem adjust_self (h : p.Numbered) (same : ∀ s, p.slot? n = some s → f s = s) : p.adjust n f = p := by
  unfold adjust
  split
  · rfl
  · rename_i s found
    rw [same s found, put_self h found]

theorem find?_adjust (h : p.Numbered) (name : TransportName) :
    (p.adjust n f).find? name =
      (p.find? name).map fun g => if g.number = n then { g with slot := f g.slot } else g := by
  unfold adjust
  split
  · rename_i absent
    cases found : p.find? name with
    | none => rfl
    | some g =>
      have differs : g.number ≠ n := by
        rintro rfl
        cases absent.symm.trans (slot?_of_find? h found)
      rw [Option.map_some, if_neg differs]
  · rename_i s present
    rw [find?_put]
    cases found : p.find? name with
    | none => rfl
    | some g =>
      by_cases same : g.number = n
      · subst same
        cases present.symm.trans (slot?_of_find? h found)
        rfl
      · simp only [Option.map_some, if_neg same]

/-- The slots of a generation in the pool are those that its transport leads to. -/
theorem slot?_iff (h : p.Numbered) {s : Slot} : p.slot? n = some s ↔ ∃ name, p.find? name = some ⟨n, s⟩ := by
  constructor
  · intro found
    obtain ⟨name, member⟩ := slot?_mem found
    exact ⟨name, find?_of_mem h member⟩
  · rintro ⟨name, found⟩
    exact slot?_of_find? h found

theorem nextLease_adjust (p : Pool) (n : Nat) (f : Slot → Slot) : (p.adjust n f).nextLease = p.nextLease :=
  (slotsOnly_adjust p n f).nextLease

theorem nextGeneration_adjust (p : Pool) (n : Nat) (f : Slot → Slot) :
    (p.adjust n f).nextGeneration = p.nextGeneration :=
  (slotsOnly_adjust p n f).nextGeneration

end Pool

namespace Archive

/-! ### The slots in the pool and those that were dropped -/

/-- No generation is both in the pool and dropped, and those that were dropped are idle and older than their transports. -/
structure Tidy (r : Archive) : Prop where
  numbered : r.pool.Numbered
  gone : ∀ n name s, r.dropped n = some (name, s) →
    r.pool.slot? n = none ∧ n < r.pool.nextGeneration ∧ s.isIdle = true
  older : ∀ n name s g, r.dropped n = some (name, s) → r.pool.find? name = some g → n < g.number
  slots : ∀ n s, r.slot? n = some s → s.Sound

variable {r : Archive} {now n m : Nat} {op : Operation} {s : Slot} {name : TransportName} {g : Generation}

theorem slot?_of_dropped (h : r.Tidy) (dropped : r.dropped n = some (name, s)) : r.slot? n = some s := by
  rw [slot?, (h.gone n name s dropped).1, dropped]
  rfl

theorem slot?_of_find? (h : r.Tidy) (found : r.pool.find? name = some g) : r.slot? g.number = some g.slot := by
  rw [slot?, Pool.slot?_of_find? h.numbered found]
  rfl

/-- A generation in the pool was not dropped. -/
theorem Tidy.alive (h : r.Tidy) (found : r.pool.find? name = some g) : r.dropped g.number = none := by
  cases dropped : r.dropped g.number with
  | none => rfl
  | some entry =>
    cases (h.gone _ entry.1 entry.2 dropped).1.symm.trans (Pool.slot?_of_find? h.numbered found)

theorem slot?_operate (r : Archive) (now n : Nat) (op : Operation) (m : Nat) :
    (r.operate now n op).slot? m = (r.slot? m).map fun s => if m = n then (s.step now op).1 else s := by
  simp only [slot?, operate, Pool.slot?_adjust]
  cases r.pool.slot? m with
  | none => simp [Function.comp_def]
  | some s => rfl

/-- What the operation needs of the slots: the lease that it makes is new, and no caller is let into slots that were
dropped. -/
def Suits (r : Archive) (n : Nat) (op : Operation) : Prop :=
  (∀ lease, op.newLease? = some lease → ∀ s, r.slot? n = some s → lease ∉ s.leases.map (·.1)) ∧
    (r.dropped n = none ∨ op.Late)

/-- Whatever is performed, dropped slots stay as they are. -/
theorem dropped_operate (h : r.Tidy) (spared : r.dropped n = none ∨ op.Late) (now : Nat) :
    (r.operate now n op).dropped = r.dropped := by
  funext m
  simp only [operate]
  cases dropped : r.dropped m with
  | none => rfl
  | some entry =>
    obtain ⟨name, s⟩ := entry
    by_cases same : m = n
    · subst same
      have late : op.Late := spared.resolve_left (by rw [dropped]; nofun)
      have unchanged := Slot.step_idle (h.slots m s (slot?_of_dropped h dropped)) (h.gone m name s dropped).2.2 now late
      simp only [Option.map_some, if_true, unchanged]
    · simp only [Option.map_some, if_neg same]

theorem find?_operate (h : r.Tidy) (now n : Nat) (op : Operation) (name : TransportName) :
    (r.operate now n op).pool.find? name =
      (r.pool.find? name).map fun g => if g.number = n then { g with slot := (g.slot.step now op).1 } else g :=
  Pool.find?_adjust h.numbered name

theorem number_of_operate (h : r.Tidy) (found : (r.operate now n op).pool.find? name = some g) :
    ∃ g', r.pool.find? name = some g' ∧ g'.number = g.number := by
  rw [find?_operate h] at found
  obtain ⟨g', present, rfl⟩ := Option.map_eq_some_iff.mp found
  refine ⟨g', present, ?_⟩
  split <;> rfl

theorem Tidy.operate (h : r.Tidy) (suits : r.Suits n op) (now : Nat) : (r.operate now n op).Tidy where
  numbered := (Pool.slotsOnly_adjust _ _ _).numbered h.numbered
  gone := by
    intro m name s dropped
    rw [dropped_operate h suits.2] at dropped
    obtain ⟨absent, issued, idle⟩ := h.gone m name s dropped
    refine ⟨?_, ?_, idle⟩
    · change (r.pool.adjust n _).slot? m = none
      rw [Pool.slot?_adjust, absent]
      rfl
    · exact (Pool.nextGeneration_adjust r.pool n _).symm ▸ issued
  older := by
    intro m name s g dropped found
    rw [dropped_operate h suits.2] at dropped
    obtain ⟨g', present, same⟩ := number_of_operate h found
    exact same ▸ h.older m name s g' dropped present
  slots := by
    intro m s' found
    rw [slot?_operate] at found
    obtain ⟨s, present, rfl⟩ := Option.map_eq_some_iff.mp found
    split
    · rename_i same
      subst same
      exact Slot.step_sound (h.slots m s present) now op fun lease made => suits.1 lease made s present
    · exact h.slots m s present

/-! ### Sweeps -/

/-- A sweep drops the idle transports that it does not keep, with their slots as they are. -/
theorem dropped_retain (h : r.Tidy) (names : List TransportName) :
    (r.retain names).dropped n = some (name, s) ↔
      r.dropped n = some (name, s) ∨ r.pool.find? name = some ⟨n, s⟩ ∧ s.isIdle = true ∧ name ∉ names := by
  constructor
  · intro dropped
    rcases Option.or_eq_some_iff.mp dropped with old | ⟨-, new⟩
    · exact Or.inl old
    · obtain ⟨⟨key, g⟩, hit, same⟩ := Option.map_eq_some_iff.mp new
      cases same
      have picked := List.find?_some hit
      simp only [Bool.and_eq_true, decide_eq_true_eq, Bool.not_eq_true', Bool.or_eq_false_iff, Bool.not_eq_false'] at picked
      obtain ⟨rfl, unkept, idle⟩ := picked
      exact Or.inr ⟨Pool.find?_of_mem h.numbered (List.mem_of_find?_eq_some hit), idle, by simpa using unkept⟩
  · rintro (old | ⟨found, idle, unkept⟩)
    · simp only [retain, old, Option.some_or]
    · have member := Pool.find?_mem found
      have picked : (decide (n = n) && !(names.contains name || !s.isIdle)) = true := by simp [idle, unkept]
      simp only [retain, h.alive found, Option.none_or]
      cases hit : r.pool.slots.find? fun (name, g) => g.number = n && !(names.contains name || !g.slot.isIdle) with
      | none => exact absurd picked (List.find?_eq_none.mp hit _ member)
      | some entry =>
        have number := List.find?_some hit
        simp only [Bool.and_eq_true, decide_eq_true_eq] at number
        have same := List.inj_on_of_nodup_map h.numbered.numbers_nodup (List.mem_of_find?_eq_some hit) member number.1
        rw [same, Option.map_some]

theorem slot?_eq_some (h : r.Tidy) : r.slot? n = some s ↔
    ∃ name, r.pool.find? name = some ⟨n, s⟩ ∨ r.dropped n = some (name, s) := by
  constructor
  · intro found
    rcases Option.or_eq_some_iff.mp found with present | ⟨-, dropped⟩
    · obtain ⟨name, found⟩ := (Pool.slot?_iff h.numbered).mp present
      exact ⟨name, Or.inl found⟩
    · obtain ⟨⟨name, s⟩, entry, rfl⟩ := Option.map_eq_some_iff.mp dropped
      exact ⟨name, Or.inr entry⟩
  · rintro ⟨name, found | dropped⟩
    · exact slot?_of_find? h found
    · exact slot?_of_dropped h dropped

theorem find?_of_retain (h : r.Tidy) {names : List TransportName} (found : (r.retain names).pool.find? name = some g) :
    r.pool.find? name = some g ∧ (name ∈ names ∨ g.slot.isIdle = false) :=
  (Pool.find?_retain h.numbered names).mp found

/-- A transport that is idle and not kept is not in the pool after a sweep. -/
theorem absent_retain (h : r.Tidy) {names : List TransportName} (found : r.pool.find? name = some g)
    (idle : g.slot.isIdle = true) (unkept : name ∉ names) : (r.retain names).pool.find? name = none := by
  cases after : (r.retain names).pool.find? name with
  | none => rfl
  | some g' =>
    obtain ⟨before, kept | busy⟩ := find?_of_retain h after
    · exact absurd kept unkept
    · cases found.symm.trans before
      cases busy.symm.trans idle

theorem gone_retain (h : r.Tidy) {names : List TransportName} (dropped : (r.retain names).dropped n = some (name, s)) :
    (r.retain names).pool.slot? n = none := by
  cases present : (r.retain names).pool.slot? n with
  | none => rfl
  | some s' =>
    obtain ⟨other, found⟩ := (Pool.slot?_iff (Pool.retain_numbered h.numbered names)).mp present
    obtain ⟨before, -⟩ := find?_of_retain h found
    rcases (dropped_retain h names).mp dropped with old | ⟨here, idle, unkept⟩
    · cases (h.alive before).symm.trans old
    · obtain rfl := Pool.name_unique h.numbered before here rfl
      cases (absent_retain h here idle unkept).symm.trans found

/-- A sweep moves slots out of the pool and changes none. -/
theorem slot?_retain (h : r.Tidy) (names : List TransportName) (n : Nat) : (r.retain names).slot? n = r.slot? n := by
  apply Option.ext
  intro s
  rw [slot?_eq_some h]
  constructor
  · intro found
    rcases Option.or_eq_some_iff.mp found with present | ⟨-, dropped⟩
    · obtain ⟨name, found⟩ := (Pool.slot?_iff (Pool.retain_numbered h.numbered names)).mp present
      exact ⟨name, Or.inl (find?_of_retain h found).1⟩
    · obtain ⟨⟨name, s⟩, entry, rfl⟩ := Option.map_eq_some_iff.mp dropped
      exact ⟨name, ((dropped_retain h names).mp entry).symm.imp_left And.left⟩
  · rintro ⟨name, found | old⟩
    · by_cases stays : name ∈ names ∨ s.isIdle = false
      · have kept := (Pool.find?_retain h.numbered names).mpr ⟨found, stays⟩
        rw [slot?]
        exact Option.or_eq_some_iff.mpr (Or.inl (Pool.slot?_of_find? (Pool.retain_numbered h.numbered names) kept))
      · obtain ⟨unkept, idle⟩ := not_or.mp stays
        have dropped := (dropped_retain h names).mpr (Or.inr ⟨found, Bool.of_not_eq_false idle, unkept⟩)
        rw [slot?, gone_retain h dropped, dropped]
        rfl
    · have dropped := (dropped_retain h names).mpr (Or.inl old)
      rw [slot?, gone_retain h dropped, dropped]
      rfl

theorem Tidy.retain (h : r.Tidy) (names : List TransportName) : (r.retain names).Tidy where
  numbered := Pool.retain_numbered h.numbered names
  gone := by
    intro n name s dropped
    refine ⟨gone_retain h dropped, ?_⟩
    rcases (dropped_retain h names).mp dropped with old | ⟨found, idle, -⟩
    · exact (h.gone n name s old).2
    · exact ⟨Pool.slot?_issued h.numbered (Pool.slot?_of_find? h.numbered found), idle⟩
  older := by
    intro n name s g dropped found
    rcases (dropped_retain h names).mp dropped with old | ⟨here, idle, unkept⟩
    · exact h.older n name s g old (find?_of_retain h found).1
    · cases (absent_retain h here idle unkept).symm.trans found
  slots := by
    intro n s found
    rw [slot?_retain h] at found
    exact h.slots n s found

/-! ### New transports -/

/-- A transport that is set up again has fresh slots of a later generation, and no slots are changed by it. -/
theorem Tidy.create (h : r.Tidy) (absent : r.pool.find? name = none) (limits : TransportLimits) (now : Nat) :
    Tidy { r with pool := (r.pool.configure name limits now).1 } ∧
      (∀ n, slot? { r with pool := (r.pool.configure name limits now).1 } n =
        if n = r.pool.nextGeneration then some (.fresh limits) else r.slot? n) ∧
      ∀ other g, r.pool.find? other = some g → (r.pool.configure name limits now).1.find? other = some g := by
  obtain ⟨numbered, perm, next⟩ := Pool.configure_new h.numbered absent limits now
  have slots (n : Nat) : slot? { r with pool := (r.pool.configure name limits now).1 } n =
      if n = r.pool.nextGeneration then some (.fresh limits) else r.slot? n := by
    rw [slot?, slot?, Pool.slot?_configure_new h.numbered absent]
    split <;> rfl
  have stays (other : TransportName) (g : Generation) (found : r.pool.find? other = some g) :
      (r.pool.configure name limits now).1.find? other = some g :=
    Pool.find?_of_mem numbered (perm.mem_iff.mpr (List.mem_cons_of_mem _ (Pool.find?_mem found)))
  refine ⟨⟨numbered, ?_, ?_, ?_⟩, slots, stays⟩
  · intro n other s dropped
    obtain ⟨gone, issued, idle⟩ := h.gone n other s dropped
    refine ⟨?_, ?_, idle⟩
    · rw [Pool.slot?_configure_new h.numbered absent, if_neg (Nat.ne_of_lt issued), gone]
    · rw [next]
      exact Nat.lt_succ_of_lt issued
  · intro n other s g dropped found
    rcases List.mem_cons.mp (perm.mem_iff.mp (Pool.find?_mem found)) with new | old
    · cases new
      exact (h.gone n _ s dropped).2.1
    · exact h.older n other s g dropped (Pool.find?_of_mem h.numbered old)
  · intro n s found
    rw [slots] at found
    split at found
    · cases found
      exact Slot.fresh_sound limits
    · exact h.slots n s found

/-! ### Whose a generation is -/

theorem Of.operate (h : r.Tidy) (suits : r.Suits n op) (now : Nat) (of : r.Of m name) : (r.operate now n op).Of m name := by
  rcases of with ⟨g, found, rfl⟩ | ⟨s, dropped⟩
  · left
    rw [find?_operate h, found]
    refine ⟨_, rfl, ?_⟩
    dsimp only
    split <;> rfl
  · right
    rw [dropped_operate h suits.2]
    exact ⟨s, dropped⟩

theorem Of.create (h : r.Tidy) {other : TransportName} (absent : r.pool.find? other = none) (limits : TransportLimits)
    (now : Nat) (of : r.Of m name) : Of { r with pool := (r.pool.configure other limits now).1 } m name := by
  obtain ⟨-, -, stays⟩ := h.create absent limits now
  rcases of with ⟨g, found, number⟩ | dropped
  · exact Or.inl ⟨g, stays name g found, number⟩
  · exact Or.inr dropped

theorem Of.retain (h : r.Tidy) (names : List TransportName) (of : r.Of m name) : (r.retain names).Of m name := by
  rcases of with ⟨⟨number, s⟩, found, rfl⟩ | ⟨s, dropped⟩
  · by_cases stays : name ∈ names ∨ s.isIdle = false
    · exact Or.inl ⟨_, (Pool.find?_retain h.numbered names).mpr ⟨found, stays⟩, rfl⟩
    · obtain ⟨unkept, idle⟩ := not_or.mp stays
      exact Or.inr ⟨s, (dropped_retain h names).mpr (Or.inr ⟨found, Bool.of_not_eq_false idle, unkept⟩)⟩
  · exact Or.inr ⟨s, (dropped_retain h names).mpr (Or.inl dropped)⟩

end Archive

end RelayRamp.Lease
