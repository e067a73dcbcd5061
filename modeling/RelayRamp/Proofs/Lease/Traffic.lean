import RelayRamp.Proofs.Lease.Balance
import RelayRamp.Proofs.Lease.Generations

/-!
# Everything that can happen to a lease pool

A lease pool together with the acquisitions made on it. A move is one uninterrupted step: an acquisition begins,
goes on, stops listening, times out, is cancelled or lets its lease go; a lease is released by its id; leases are
reclaimed; transports are configured or dropped. Moves come in any order and at any instants, so acquisitions
are taken up in any order as well. A run is a list of moves.

Each move performs at most one operation on each generation, and only `retain` takes a generation away and only
`configure` brings one in.
-/
namespace RelayRamp.Lease

open RelayRamp.Admission RelayRamp.Routing

/-- Acquisitions are kept under the ids of their leases. One that was given up or let its lease go is gone. -/
structure Traffic where
  pool : Pool
  calls : Nat → Option Acquisition

inductive Move where
  | acquire (transport : TransportName) (timeout : Nat)
  /-- An acquisition goes on as far as it can. -/
  | resume (call : Nat)
  /-- A queued acquisition stops listening; a later move makes it leave. -/
  | hangUp (call : Nat) (cause : Cause)
  /-- A queued acquisition is out of time and leaves, even if a slot was just handed to it. -/
  | timeOut (call : Nat)
  /-- An acquisition is cancelled, or the lease that it returned is dropped. -/
  | cancel (call : Nat)
  /-- A lease is kept out without its holder: only its ticket is left. -/
  | detach (call : Nat)
  | release (transport : TransportName) (lease : Nat)
  | reclaim (maxHold : Nat)
  | configure (transport : TransportName) (limits : TransportLimits)
  | retain (keep : List TransportName)
  deriving DecidableEq, Repr

namespace Pool

/-- Changes the slots of a generation that is in the pool. -/
def adjust (p : Pool) (generation : Nat) (f : Slot → Slot) : Pool :=
  match p.slot? generation with
  | none => p
  | some s => p.put generation (f s)

/-- The pools differ in the slots of their generations only. -/
def SlotsOnly (p q : Pool) : Prop := ∃ f, q = p.mapSlots f

theorem slotsOnly_refl (p : Pool) : p.SlotsOnly p :=
  ⟨fun _ s => s, by simp [mapSlots]⟩

theorem slotsOnly_put (p : Pool) (generation : Nat) (slot : Slot) :
    p.SlotsOnly (p.put generation slot) :=
  ⟨_, put_eq p generation slot⟩

theorem slotsOnly_adjust (p : Pool) (generation : Nat) (f : Slot → Slot) :
    p.SlotsOnly (p.adjust generation f) := by
  unfold adjust
  split
  · exact slotsOnly_refl p
  · exact slotsOnly_put p _ _

theorem slotsOnly_release (p : Pool) (name : TransportName) (lease now : Nat) :
    p.SlotsOnly (p.release name lease now).1 := by
  unfold release
  dsimp only
  split
  next freed =>
    obtain ⟨g, -, given⟩ := Option.bind_eq_some_iff.mp freed
    obtain ⟨freed, -, same⟩ := Option.bind_eq_some_iff.mp given
    cases same
    exact slotsOnly_put p _ _
  next => exact slotsOnly_refl p

theorem SlotsOnly.numbered {p q : Pool} (only : p.SlotsOnly q) (h : p.Numbered) : q.Numbered := by
  obtain ⟨f, rfl⟩ := only
  exact mapSlots_numbered h f

theorem SlotsOnly.nextLease {p q : Pool} (only : p.SlotsOnly q) : q.nextLease = p.nextLease := by
  obtain ⟨f, rfl⟩ := only
  rfl

theorem SlotsOnly.nextGeneration {p q : Pool} (only : p.SlotsOnly q) :
    q.nextGeneration = p.nextGeneration := by
  obtain ⟨f, rfl⟩ := only
  rfl

/-- A transport stays of the same generation. -/
theorem SlotsOnly.number {p q : Pool} (only : p.SlotsOnly q) (name : TransportName) :
    (q.find? name).map (·.number) = (p.find? name).map (·.number) := by
  obtain ⟨f, rfl⟩ := only
  rw [find?_mapSlots, Option.map_map]
  rfl

theorem slot?_adjust (p : Pool) (generation : Nat) (f : Slot → Slot) (n : Nat) :
    (p.adjust generation f).slot? n = (p.slot? n).map fun s => if n = generation then f s else s := by
  unfold adjust
  by_cases same : n = generation
  · subst same
    cases found : p.slot? n with
    | none => simp [found]
    | some s => simp [slot?_put, found]
  · cases p.slot? generation with
    | none => simp [same]
    | some s => simp [slot?_put, same]

/-- Changing the slots that a name leads to is changing those of its generation. -/
theorem put_eq_adjust {p : Pool} (h : p.Numbered) {name : TransportName} {g : Generation}
    (found : p.find? name = some g) (f : Slot → Slot) :
    p.put g.number (f g.slot) = p.adjust g.number f := by
  rw [adjust, slot?_of_find? h found]

theorem configure_eq_adjust {p : Pool} (h : p.Numbered) {name : TransportName} {g : Generation}
    (found : p.find? name = some g) (limits : TransportLimits) (now : Nat) :
    (p.configure name limits now).1 = p.adjust g.number fun s => (s.configure limits now).1 := by
  rw [configure_found found, put_eq_adjust h found fun s => (s.configure limits now).1]

theorem release_absent {p : Pool} {name : TransportName} (absent : p.find? name = none)
    (lease now : Nat) : (p.release name lease now).1 = p := by
  simp [release, absent]

theorem release_eq_adjust {p : Pool} (h : p.Numbered) {name : TransportName} {g : Generation}
    (found : p.find? name = some g) (lease now : Nat) (n : Nat) :
    (p.release name lease now).1.slot? n =
      (p.adjust g.number fun s => ((s.release lease now).getD (s, [])).1).slot? n := by
  cases released : g.slot.release lease now with
  | none =>
    have unchanged : (p.release name lease now).1 = p := by simp [release, found, released]
    rw [unchanged, slot?_adjust]
    by_cases same : n = g.number
    · simp [same, slot?_of_find? h found, released]
    · simp [same]
  | some freed =>
    have changed : (p.release name lease now).1 = p.put g.number freed.1 := by
      simp [release, found, released]
    rw [changed, ← put_eq_adjust h found fun s => ((s.release lease now).getD (s, [])).1, released]
    rfl

end Pool

namespace Acquisition

/-- The lease that it has in hand. -/
def lease? : Acquisition → Option LeaseTicket
  | .pacing ticket _ | .granted ticket _ => some ticket
  | .requested .. | .queued .. | .failed _ => none

theorem paced_lease? (ticket : LeaseTicket) (grant now : Nat) :
    (paced ticket grant now).lease? = some ticket := by
  unfold paced
  split <;> rfl

theorem leave_eq_adjust (p : Pool) (key : WaitKey) (now : Nat) :
    (leave p key now).1 = p.adjust key.generation fun s => (s.leave key.waiter now).1 := by
  unfold leave Pool.adjust
  cases p.slot? key.generation <;> rfl

/-- What becomes of the acquisition that entered. -/
def entered (ticket : LeaseTicket) (generation deadline now : Nat) : Entry → Acquisition
  | .granted grant => paced ticket grant now
  | .queued waiter => .queued ticket ⟨generation, waiter⟩ deadline
  | .tooLate => .failed (.timedOut ticket.transport.text)

theorem start_absent {p : Pool} {transport : TransportName} (absent : p.find? transport = none)
    (timeout now : Nat) :
    start p transport timeout now =
      ({ p with nextLease := p.nextLease + 1 }, .failed (.unknownTransport transport.text)) := by
  have same : Pool.find? { p with nextLease := p.nextLease + 1 } transport = none := absent
  simp only [start, same]

theorem start_found {p : Pool} {transport : TransportName} {g : Generation}
    (found : p.find? transport = some g) (timeout now : Nat) :
    start p transport timeout now =
      (Pool.put { p with nextLease := p.nextLease + 1 } g.number
          (g.slot.enter now p.nextLease (now + timeout)).1,
        entered ⟨transport, p.nextLease⟩ g.number (now + timeout) now
          (g.slot.enter now p.nextLease (now + timeout)).2) := by
  have same : Pool.find? { p with nextLease := p.nextLease + 1 } transport = some g := found
  simp only [start, same]
  cases entry : (g.slot.enter now p.nextLease (now + timeout)).2 <;> simp only [entered]

/-- A queued acquisition that goes on claims its slot, keeps waiting, or gives up. -/
theorem resumeQueued_cases (p : Pool) (now : Nat) (ticket : LeaseTicket) (key : WaitKey)
    (deadline : Nat) :
    (∃ s s' grant, p.slot? key.generation = some s ∧
      s.claim key.waiter ticket.leaseId = some (s', grant) ∧
      resumeQueued p now ticket key deadline =
        (p.put key.generation s', .none, paced ticket grant now)) ∨
    (∃ s, p.slot? key.generation = some s ∧ s.claim key.waiter ticket.leaseId = none ∧
      (s.waiters.any (·.id = key.waiter) ∧ now < deadline) ∧
      resumeQueued p now ticket key deadline = (p, .none, .queued ticket key deadline)) ∨
    ((∀ s, p.slot? key.generation = some s → s.claim key.waiter ticket.leaseId = none ∧
        ¬ (s.waiters.any (·.id = key.waiter) ∧ now < deadline)) ∧
      ∃ effects, resumeQueued p now ticket key deadline =
        ((leave p key now).1, effects, .failed (.timedOut ticket.transport.text))) := by
  cases found : p.slot? key.generation with
  | none =>
    refine Or.inr (Or.inr ⟨by simp, .none, ?_⟩)
    simp only [resumeQueued, leave, found]
  | some s =>
    cases claimed : s.claim key.waiter ticket.leaseId with
    | some taken => exact Or.inl ⟨s, taken.1, taken.2, rfl, claimed, by simp only [resumeQueued, found, claimed]⟩
    | none =>
      by_cases waits : s.waiters.any (·.id = key.waiter) ∧ now < deadline
      · exact Or.inr (Or.inl ⟨s, rfl, claimed, waits, by simp only [resumeQueued, found, claimed, if_pos waits]⟩)
      · refine Or.inr (Or.inr ⟨?_, (leave p key now).2, ?_⟩)
        · rintro s' same
          cases same
          exact ⟨claimed, waits⟩
        · simp only [resumeQueued, found, claimed, if_neg waits]

end Acquisition

/-- The slots after the operation of a move, if it performs one. -/
def Slot.after (s : Slot) (now : Nat) : Option Operation → Slot
  | none => s
  | some op => (s.step now op).1

namespace Traffic

def empty : Traffic := ⟨.empty, fun _ => none⟩

/-- Keeps an acquisition, or forgets it. -/
def keep (t : Traffic) (pool : Pool) (call : Nat) (a : Option Acquisition) : Traffic :=
  ⟨pool, fun n => if n = call then a else t.calls n⟩

def step (t : Traffic) (now : Nat) : Move → Traffic
  | .acquire transport timeout =>
    let (pool, a) := Acquisition.start t.pool transport timeout now
    t.keep pool t.pool.nextLease (some a)
  | .resume call =>
    match t.calls call with
    -- All acquisitions that are kept have begun.
    | none | some (.requested ..) => t
    | some a =>
      let (pool, _, a) := a.resume t.pool now
      t.keep pool call (some a)
  | .hangUp call cause =>
    match t.calls call with
    | some (.queued _ key deadline) =>
      if cause = .expired ∧ now < deadline then t
      else { t with pool := t.pool.adjust key.generation (·.hangUp key.waiter) }
    | _ => t
  | .timeOut call =>
    match t.calls call with
    | some (.queued ticket key deadline) =>
      if now < deadline then t
      else
        t.keep (Acquisition.leave t.pool key now).1 call
          (some (.failed (.timedOut ticket.transport.text)))
    | _ => t
  | .cancel call =>
    match t.calls call with
    | none => t
    | some a => t.keep (a.cancel t.pool now).1 call none
  | .detach call =>
    match t.calls call with
    | some (.granted ..) => t.keep t.pool call none
    | _ => t
  | .release transport lease => { t with pool := (t.pool.release transport lease now).1 }
  | .reclaim maxHold => { t with pool := (t.pool.reclaim maxHold now).1 }
  | .configure transport limits => { t with pool := (t.pool.configure transport limits now).1 }
  | .retain keep => { t with pool := t.pool.retain keep }

/-- The traffic after moves at the given instants. -/
def run (t : Traffic) : List (Nat × Move) → Traffic
  | [] => t
  | (now, move) :: rest => (t.step now move).run rest

theorem run_append (t : Traffic) (before after : List (Nat × Move)) :
    t.run (before ++ after) = (t.run before).run after := by
  induction before generalizing t with
  | nil => rfl
  | cons head rest ih => exact ih _

/-- What each move keeps, every run keeps. -/
theorem run_induction {motive : Traffic → Prop} (t : Traffic) (start : motive t)
    (step : ∀ t now move, motive t → motive (t.step now move)) (moves : List (Nat × Move)) :
    motive (t.run moves) := by
  induction moves generalizing t with
  | nil => exact start
  | cons head rest ih => exact ih _ (step t head.1 head.2 start)

/-! ### What a move does to the pool -/

/-- A move changes slots, brings a new transport in, or drops idle ones. Only a beginning acquisition uses up
an id. -/
theorem pool_step (t : Traffic) (now : Nat) (move : Move) :
    ((∀ transport timeout, move ≠ .acquire transport timeout) ∧
      t.pool.SlotsOnly (t.step now move).pool) ∨
    (∃ transport timeout, move = .acquire transport timeout ∧
      Pool.SlotsOnly { t.pool with nextLease := t.pool.nextLease + 1 } (t.step now move).pool) ∨
    (∃ transport limits, move = .configure transport limits ∧ t.pool.find? transport = none) ∨
    (∃ keep, move = .retain keep) := by
  cases move with
  | acquire transport timeout =>
    refine Or.inr (Or.inl ⟨transport, timeout, rfl, ?_⟩)
    simp only [step, keep]
    cases found : t.pool.find? transport with
    | none => simpa only [Acquisition.start_absent found] using Pool.slotsOnly_refl _
    | some g => simpa only [Acquisition.start_found found] using Pool.slotsOnly_put _ _ _
  | resume call =>
    refine Or.inl ⟨by simp, ?_⟩
    cases waits : t.calls call with
    | none => simpa only [step, waits] using Pool.slotsOnly_refl _
    | some a =>
      cases a with
      | queued ticket key deadline =>
        simp only [step, waits, Acquisition.resume, keep]
        rcases Acquisition.resumeQueued_cases t.pool now ticket key deadline with
          ⟨s, s', grant, -, -, result⟩ | ⟨s, -, -, -, result⟩ | ⟨-, effects, result⟩
        · simpa only [result] using Pool.slotsOnly_put _ _ _
        · simpa only [result] using Pool.slotsOnly_refl _
        · simpa only [result, Acquisition.leave_eq_adjust] using Pool.slotsOnly_adjust _ _ _
      | requested transport timeout => simpa only [step, waits] using Pool.slotsOnly_refl _
      | _ => simpa only [step, waits, Acquisition.resume, keep] using Pool.slotsOnly_refl _
  | hangUp call cause =>
    refine Or.inl ⟨by simp, ?_⟩
    simp only [step]
    split
    · split
      · exact Pool.slotsOnly_refl _
      · exact Pool.slotsOnly_adjust _ _ _
    · exact Pool.slotsOnly_refl _
  | timeOut call =>
    refine Or.inl ⟨by simp, ?_⟩
    simp only [step]
    split
    · split
      · exact Pool.slotsOnly_refl _
      · simpa only [keep, Acquisition.leave_eq_adjust] using Pool.slotsOnly_adjust _ _ _
    · exact Pool.slotsOnly_refl _
  | cancel call =>
    refine Or.inl ⟨by simp, ?_⟩
    simp only [step]
    split
    · exact Pool.slotsOnly_refl _
    next a waits =>
      cases a with
      | queued ticket key deadline =>
        simpa only [keep, Acquisition.cancel, Acquisition.leave_eq_adjust] using
          Pool.slotsOnly_adjust _ _ _
      | pacing ticket grant => exact Pool.slotsOnly_release _ _ _ _
      | granted ticket instant => exact Pool.slotsOnly_release _ _ _ _
      | _ => exact Pool.slotsOnly_refl _
  | detach call =>
    refine Or.inl ⟨by simp, ?_⟩
    simp only [step]
    split <;> exact Pool.slotsOnly_refl _
  | release transport lease => exact Or.inl ⟨by simp, Pool.slotsOnly_release _ _ _ _⟩
  | reclaim maxHold => exact Or.inl ⟨by simp, _, Pool.reclaim_eq t.pool maxHold now⟩
  | configure transport limits =>
    cases found : t.pool.find? transport with
    | none => exact Or.inr (Or.inr (Or.inl ⟨transport, limits, rfl, found⟩))
    | some g =>
      refine Or.inl ⟨by simp, ?_⟩
      simpa only [step, Pool.configure_found found] using Pool.slotsOnly_put _ _ _
  | retain keep => exact Or.inr (Or.inr (Or.inr ⟨keep, rfl⟩))

theorem numbered_step {t : Traffic} (h : t.pool.Numbered) (now : Nat) (move : Move) :
    (t.step now move).pool.Numbered := by
  rcases pool_step t now move with ⟨-, only⟩ | ⟨_, _, rfl, only⟩ | ⟨transport, limits, rfl, absent⟩ |
    ⟨keep, rfl⟩
  · exact only.numbered h
  · exact only.numbered ⟨h.names_nodup, h.numbers_nodup, h.issued⟩
  · exact (Pool.configure_new h absent limits now).1
  · exact Pool.retain_numbered h keep

theorem nextLease_step (t : Traffic) (now : Nat) (move : Move) :
    ((∀ transport timeout, move ≠ .acquire transport timeout) ∧
      (t.step now move).pool.nextLease = t.pool.nextLease) ∨
    (∃ transport timeout, move = .acquire transport timeout ∧
      (t.step now move).pool.nextLease = t.pool.nextLease + 1) := by
  rcases pool_step t now move with ⟨other, only⟩ | ⟨transport, timeout, rfl, only⟩ |
    ⟨transport, limits, rfl, absent⟩ | ⟨keep, rfl⟩
  · exact Or.inl ⟨other, only.nextLease⟩
  · exact Or.inr ⟨transport, timeout, rfl, only.nextLease⟩
  · refine Or.inl ⟨by simp, ?_⟩
    simp only [step, Pool.configure, absent]
  · exact Or.inl ⟨by simp, rfl⟩

theorem nextLease_le (t : Traffic) (now : Nat) (move : Move) :
    t.pool.nextLease ≤ (t.step now move).pool.nextLease := by
  rcases nextLease_step t now move with ⟨-, same⟩ | ⟨_, _, -, next⟩ <;> omega

theorem nextLease_run_le (t : Traffic) (moves : List (Nat × Move)) :
    t.pool.nextLease ≤ (t.run moves).pool.nextLease := by
  induction moves generalizing t with
  | nil => exact Nat.le_refl _
  | cons head rest ih => exact Nat.le_trans (nextLease_le t head.1 head.2) (ih _)

theorem nextGeneration_le {t : Traffic} (h : t.pool.Numbered) (now : Nat) (move : Move) :
    t.pool.nextGeneration ≤ (t.step now move).pool.nextGeneration := by
  rcases pool_step t now move with ⟨-, only⟩ | ⟨_, _, rfl, only⟩ | ⟨name, limits, rfl, absent⟩ |
    ⟨keep, rfl⟩
  · exact Nat.le_of_eq only.nextGeneration.symm
  · exact Nat.le_of_eq only.nextGeneration.symm
  · have next := (Pool.configure_new h absent limits now).2.2
    simp only [step]
    omega
  · exact Nat.le_refl _

/-- A transport that is in the pool after a move was there before, of the same generation, or is new. -/
theorem find?_step {t : Traffic} (h : t.pool.Numbered) {now : Nat} {move : Move}
    {transport : TransportName} {g' : Generation}
    (found' : (t.step now move).pool.find? transport = some g') :
    (∃ g, t.pool.find? transport = some g ∧ g.number = g'.number) ∨
    (∃ limits, move = .configure transport limits ∧ t.pool.find? transport = none ∧
      g' = ⟨t.pool.nextGeneration, .fresh limits⟩) := by
  have slotsOnly : ∀ p : Pool, p.slots = t.pool.slots → p.SlotsOnly (t.step now move).pool →
      ∃ g, t.pool.find? transport = some g ∧ g.number = g'.number := by
    intro p same only
    have kept := only.number transport
    have equal : p.find? transport = t.pool.find? transport := by simp only [Pool.find?, same]
    rw [found', Option.map_some, equal] at kept
    exact Option.map_eq_some_iff.mp kept.symm
  rcases pool_step t now move with ⟨-, only⟩ | ⟨_, _, rfl, only⟩ | ⟨name, limits, rfl, absent⟩ |
    ⟨keep, rfl⟩
  · exact Or.inl (slotsOnly t.pool rfl only)
  · exact Or.inl (slotsOnly { t.pool with nextLease := t.pool.nextLease + 1 } rfl only)
  · obtain ⟨-, perm, -⟩ := Pool.configure_new h absent limits now
    rcases List.mem_cons.mp (perm.mem_iff.mp (Pool.find?_mem found')) with new | old
    · cases new
      exact Or.inr ⟨limits, rfl, absent, rfl⟩
    · exact Or.inl ⟨g', Pool.find?_of_mem h old, rfl⟩
  · exact Or.inl ⟨g', Pool.find?_of_mem h (List.mem_filter.mp (Pool.find?_mem found')).1, rfl⟩

/-! ### What a move does to an acquisition -/

/-- What an acquisition is after a move. -/
inductive Becomes (t : Traffic) (now call : Nat) : Move → Option Acquisition → Prop where
  | same {move} (apart : ∀ ticket key deadline,
      t.calls call = some (.queued ticket key deadline) → move ≠ .resume call) :
      Becomes t now call move (t.calls call)
  | begun {transport timeout} (new : call = t.pool.nextLease) :
      Becomes t now call (.acquire transport timeout)
        (some (Acquisition.start t.pool transport timeout now).2)
  | resumed {a} (waits : t.calls call = some a)
      (begun : ∀ transport timeout, a ≠ .requested transport timeout) :
      Becomes t now call (.resume call) (some (a.resume t.pool now).2.2)
  | timedOut {ticket key deadline} (queued : t.calls call = some (.queued ticket key deadline))
      (due : deadline ≤ now) :
      Becomes t now call (.timeOut call) (some (.failed (.timedOut ticket.transport.text)))
  | cancelled {a} (waits : t.calls call = some a) : Becomes t now call (.cancel call) none
  | detached {ticket instant} (granted : t.calls call = some (.granted ticket instant)) :
      Becomes t now call (.detach call) none

theorem becomes (t : Traffic) (now : Nat) (move : Move) (call : Nat) :
    t.Becomes now call move ((t.step now move).calls call) := by
  cases move with
  | acquire transport timeout =>
    by_cases new : call = t.pool.nextLease
    · simp only [step, keep, if_pos new]
      exact .begun new
    · simp only [step, keep, if_neg new]
      exact .same (by simp)
  | resume other =>
    simp only [step]
    split
    next gone =>
      refine .same fun ticket key deadline queued same => ?_
      cases same
      rw [gone] at queued
      cases queued
    next transport timeout begins =>
      refine .same fun ticket key deadline queued same => ?_
      cases same
      rw [begins] at queued
      cases queued
    next a begun waits =>
      by_cases mine : call = other
      · subst mine
        simp only [keep, if_true]
        exact .resumed waits begun
      · simp only [keep, if_neg mine]
        exact .same fun _ _ _ _ same => mine (by cases same; rfl)
  | hangUp other cause =>
    have unchanged : (t.step now (.hangUp other cause)).calls = t.calls := by
      simp only [step]
      split
      · split <;> rfl
      · rfl
    rw [unchanged]
    exact .same (by simp)
  | timeOut other =>
    simp only [step]
    split
    next ticket key deadline queued =>
      split
      · exact .same (by simp)
      next late =>
        by_cases mine : call = other
        · subst mine
          simp only [keep, if_true]
          exact .timedOut queued (Nat.not_lt.mp late)
        · simp only [keep, if_neg mine]
          exact .same (by simp)
    next => exact .same (by simp)
  | cancel other =>
    simp only [step]
    split
    · exact .same (by simp)
    next a waits =>
      by_cases mine : call = other
      · subst mine
        simp only [keep, if_true]
        exact .cancelled waits
      · simp only [keep, if_neg mine]
        exact .same (by simp)
  | detach other =>
    simp only [step]
    split
    next ticket instant granted =>
      by_cases mine : call = other
      · subst mine
        simp only [keep, if_true]
        exact .detached granted
      · simp only [keep, if_neg mine]
        exact .same (by simp)
    next => exact .same (by simp)
  | release transport lease => exact .same (by simp)
  | reclaim maxHold => exact .same (by simp)
  | configure transport limits => exact .same (by simp)
  | retain keep => exact .same (by simp)

/-! ### What a move does to a generation -/

/-- The operation on a transport, if it is of the generation. -/
def onTransport (t : Traffic) (n : Nat) (transport : TransportName) (op : Operation) : Option Operation :=
  match t.pool.find? transport with
  | some g => if n = g.number then some op else none
  | none => none

/-- The operation of a queued acquisition that goes on: it claims what it was handed, keeps waiting, or leaves
when its turn or its time is over. -/
def onResume (s : Slot) (now : Nat) (ticket : LeaseTicket) (waiter deadline : Nat) : Option Operation :=
  if (s.claim waiter ticket.leaseId).isSome then some (.claim waiter ticket.leaseId)
  else if s.waiters.any (·.id = waiter) ∧ now < deadline then none
  else some (.leave waiter .expired)

/-- The operation that a move performs on a generation. -/
def operation? (t : Traffic) (now : Nat) (move : Move) (n : Nat) : Option Operation :=
  match move with
  | .acquire transport timeout =>
    t.onTransport n transport (.enter t.pool.nextLease (now + timeout))
  | .resume call =>
    match t.calls call, t.pool.slot? n with
    | some (.queued ticket key deadline), some s =>
      if n = key.generation then onResume s now ticket key.waiter deadline else none
    | _, _ => none
  | .hangUp call cause =>
    match t.calls call with
    | some (.queued _ key deadline) =>
      if n = key.generation ∧ ¬ (cause = .expired ∧ now < deadline) then
        some (.hangUp key.waiter cause)
      else none
    | _ => none
  | .timeOut call =>
    match t.calls call with
    | some (.queued _ key deadline) =>
      if n = key.generation ∧ ¬ now < deadline then some (.leave key.waiter .expired) else none
    | _ => none
  | .cancel call =>
    match t.calls call with
    | some (.queued _ key _) =>
      if n = key.generation then some (.leave key.waiter .cancelled) else none
    | some (.pacing ticket _) | some (.granted ticket _) =>
      t.onTransport n ticket.transport (.release ticket.leaseId)
    | _ => none
  | .detach _ => none
  | .release transport lease => t.onTransport n transport (.release lease)
  | .reclaim maxHold => some (.reclaim maxHold)
  | .configure transport limits => t.onTransport n transport (.configure limits)
  | .retain _ => none

theorem onTransport_some {t : Traffic} {n : Nat} {transport : TransportName} {op op' : Operation}
    (performed : t.onTransport n transport op = some op') :
    op' = op ∧ ∃ g, t.pool.find? transport = some g ∧ n = g.number := by
  unfold onTransport at performed
  split at performed
  next g found =>
    split at performed
    next same =>
      cases performed
      exact ⟨rfl, g, found, same⟩
    next => cases performed
  next => cases performed

theorem onResume_some {s : Slot} {now : Nat} {ticket : LeaseTicket} {waiter deadline : Nat}
    {op : Operation} (performed : onResume s now ticket waiter deadline = some op) :
    (op = .claim waiter ticket.leaseId ∧ ∃ taken, s.claim waiter ticket.leaseId = some taken) ∨
      (op = .leave waiter .expired ∧ (waiter ∈ s.waiters.map (·.id) → deadline ≤ now)) := by
  unfold onResume at performed
  split at performed
  next claimed =>
    cases performed
    exact Or.inl ⟨rfl, Option.isSome_iff_exists.mp claimed⟩
  next =>
    split at performed
    · cases performed
    next leaves =>
      cases performed
      refine Or.inr ⟨rfl, fun queued => Nat.not_lt.mp fun early => leaves ⟨?_, early⟩⟩
      obtain ⟨w, member, same⟩ := List.mem_map.mp queued
      exact List.any_eq_true.mpr ⟨w, member, decide_eq_true same⟩

/-- When a move performs an operation on a generation. -/
inductive Performs (t : Traffic) (now n : Nat) : Move → Operation → Prop where
  | enter {transport timeout g} (found : t.pool.find? transport = some g) (same : n = g.number) :
      Performs t now n (.acquire transport timeout) (.enter t.pool.nextLease (now + timeout))
  | claim {call ticket key deadline} (queued : t.calls call = some (.queued ticket key deadline))
      (same : n = key.generation) :
      Performs t now n (.resume call) (.claim key.waiter ticket.leaseId)
  | hangUp {call ticket key deadline cause}
      (queued : t.calls call = some (.queued ticket key deadline)) (same : n = key.generation)
      (due : cause = .expired → deadline ≤ now) :
      Performs t now n (.hangUp call cause) (.hangUp key.waiter cause)
  | giveUp {call ticket key deadline} (queued : t.calls call = some (.queued ticket key deadline))
      (same : n = key.generation)
      (due : ∀ s, t.pool.slot? n = some s → key.waiter ∈ s.waiters.map (·.id) → deadline ≤ now) :
      Performs t now n (.resume call) (.leave key.waiter .expired)
  | timeOut {call ticket key deadline} (queued : t.calls call = some (.queued ticket key deadline))
      (same : n = key.generation) (due : deadline ≤ now) :
      Performs t now n (.timeOut call) (.leave key.waiter .expired)
  | cancel {call ticket key deadline} (queued : t.calls call = some (.queued ticket key deadline))
      (same : n = key.generation) :
      Performs t now n (.cancel call) (.leave key.waiter .cancelled)
  | drop {call a ticket g} (waits : t.calls call = some a) (holds : a.lease? = some ticket)
      (found : t.pool.find? ticket.transport = some g) (same : n = g.number) :
      Performs t now n (.cancel call) (.release ticket.leaseId)
  | release {transport lease g} (found : t.pool.find? transport = some g) (same : n = g.number) :
      Performs t now n (.release transport lease) (.release lease)
  | reclaim {maxHold} : Performs t now n (.reclaim maxHold) (.reclaim maxHold)
  | configure {transport limits g} (found : t.pool.find? transport = some g) (same : n = g.number) :
      Performs t now n (.configure transport limits) (.configure limits)

theorem performs {t : Traffic} {now n : Nat} {move : Move} {op : Operation}
    (performed : t.operation? now move n = some op) : t.Performs now n move op := by
  cases move with
  | acquire transport timeout =>
    obtain ⟨rfl, g, found, same⟩ := onTransport_some performed
    exact .enter found same
  | resume call =>
    simp only [operation?] at performed
    split at performed
    next ticket key deadline s queued found =>
      split at performed
      next same =>
        rcases onResume_some performed with ⟨rfl, -⟩ | ⟨rfl, due⟩
        · exact .claim queued same
        · refine .giveUp queued same fun s' found' => ?_
          rw [found] at found'
          cases found'
          exact due
      next => cases performed
    next => cases performed
  | hangUp call cause =>
    simp only [operation?] at performed
    split at performed
    next ticket key deadline queued =>
      split at performed
      next both =>
        cases performed
        exact .hangUp queued both.1 fun expired => Nat.not_lt.mp fun early => both.2 ⟨expired, early⟩
      next => cases performed
    next => cases performed
  | timeOut call =>
    simp only [operation?] at performed
    split at performed
    next ticket key deadline queued =>
      split at performed
      next both =>
        cases performed
        exact .timeOut queued both.1 (Nat.not_lt.mp both.2)
      next => cases performed
    next => cases performed
  | cancel call =>
    simp only [operation?] at performed
    split at performed
    next ticket key deadline queued =>
      split at performed
      next same =>
        cases performed
        exact .cancel queued same
      next => cases performed
    next ticket grant waits =>
      obtain ⟨rfl, g, found, same⟩ := onTransport_some performed
      exact .drop waits rfl found same
    next ticket instant waits =>
      obtain ⟨rfl, g, found, same⟩ := onTransport_some performed
      exact .drop waits rfl found same
    next => cases performed
  | detach call => cases performed
  | release transport lease =>
    obtain ⟨rfl, g, found, same⟩ := onTransport_some performed
    exact .release found same
  | reclaim maxHold =>
    cases performed
    exact .reclaim
  | configure transport limits =>
    obtain ⟨rfl, g, found, same⟩ := onTransport_some performed
    exact .configure found same
  | retain keep => cases performed

theorem slot?_onTransport {t : Traffic} {transport : TransportName} {g : Generation}
    (found : t.pool.find? transport = some g) (now : Nat) (op : Operation) (n : Nat) :
    (t.pool.adjust g.number fun s => (s.step now op).1).slot? n =
      (t.pool.slot? n).map fun s => s.after now (t.onTransport n transport op) := by
  rw [Pool.slot?_adjust]
  simp only [onTransport, found]
  split <;> rfl

theorem onTransport_absent {t : Traffic} {transport : TransportName}
    (absent : t.pool.find? transport = none) (op : Operation) (n : Nat) :
    t.onTransport n transport op = none := by
  simp only [onTransport, absent]

/-- Nothing is done to the slots of a generation. -/
theorem slot?_unchanged (t : Traffic) (now n : Nat) :
    t.pool.slot? n = (t.pool.slot? n).map fun s => s.after now none := by
  cases t.pool.slot? n <;> rfl

theorem slot?_acquire {t : Traffic} (h : t.pool.Numbered) (now : Nat) (transport : TransportName)
    (timeout n : Nat) :
    (t.step now (.acquire transport timeout)).pool.slot? n =
      (t.pool.slot? n).map fun s => s.after now (t.operation? now (.acquire transport timeout) n) := by
  cases found : t.pool.find? transport with
  | none =>
    simp only [step, keep, Acquisition.start_absent found, operation?, onTransport_absent found]
    exact slot?_unchanged t now n
  | some g =>
    simp only [step, keep, Acquisition.start_found found, operation?]
    rw [← slot?_onTransport found, ← Pool.put_eq_adjust h found fun s =>
      (s.step now (.enter t.pool.nextLease (now + timeout))).1]
    rfl

theorem slot?_leave (t : Traffic) (key : WaitKey) (cause : Cause) (now n : Nat) :
    (Acquisition.leave t.pool key now).1.slot? n =
      (t.pool.slot? n).map fun s =>
        s.after now (if n = key.generation then some (.leave key.waiter cause) else none) := by
  rw [Acquisition.leave_eq_adjust, Pool.slot?_adjust]
  congr 1
  funext s
  split <;> rfl

theorem slot?_resume (t : Traffic) (now call n : Nat) :
    (t.step now (.resume call)).pool.slot? n =
      (t.pool.slot? n).map fun s => s.after now (t.operation? now (.resume call) n) := by
  cases waits : t.calls call with
  | none =>
    simp only [step, operation?, waits]
    exact slot?_unchanged t now n
  | some a =>
    cases a with
    | queued ticket key deadline =>
      simp only [step, operation?, waits, Acquisition.resume, keep]
      by_cases other : n = key.generation
      · subst other
        rcases Acquisition.resumeQueued_cases t.pool now ticket key deadline with
          ⟨s, s', grant, found, claimed, result⟩ | ⟨s, found, unclaimed, stays, result⟩ |
          ⟨ended, effects, result⟩
        · simp [result, found, Pool.slot?_put, onResume, claimed, Slot.after, Slot.step]
        · simp [result, found, onResume, unclaimed, stays, Slot.after]
        · rw [result, Acquisition.leave_eq_adjust, Pool.slot?_adjust]
          cases found : t.pool.slot? key.generation with
          | none => rfl
          | some s =>
            obtain ⟨unclaimed, leaves⟩ := ended s found
            simp only [Option.map_some, if_true, onResume, unclaimed, if_neg leaves]
            rfl
      · have elsewhere : (Acquisition.resumeQueued t.pool now ticket key deadline).1.slot? n =
            t.pool.slot? n := by
          rcases Acquisition.resumeQueued_cases t.pool now ticket key deadline with
            ⟨s, s', grant, found, claimed, result⟩ | ⟨s, found, unclaimed, stays, result⟩ |
            ⟨ended, effects, result⟩
          · simp [result, Pool.slot?_put, other]
          · rw [result]
          · simp [result, Acquisition.leave_eq_adjust, Pool.slot?_adjust, other]
        rw [elsewhere]
        cases t.pool.slot? n with
        | none => rfl
        | some s => simp only [Option.map_some, if_neg other, Slot.after]
    | requested transport timeout =>
      simp only [step, operation?, waits]
      exact slot?_unchanged t now n
    | _ =>
      simp only [step, operation?, waits, Acquisition.resume, keep]
      exact slot?_unchanged t now n

theorem slot?_hangUp (t : Traffic) (now call : Nat) (cause : Cause) (n : Nat) :
    (t.step now (.hangUp call cause)).pool.slot? n =
      (t.pool.slot? n).map fun s => s.after now (t.operation? now (.hangUp call cause) n) := by
  cases waits : t.calls call with
  | none =>
    simp only [step, operation?, waits]
    exact slot?_unchanged t now n
  | some a =>
    cases a with
    | queued ticket key deadline =>
      simp only [step, operation?, waits]
      by_cases early : cause = .expired ∧ now < deadline
      · rw [if_pos early, if_neg fun both => both.2 early]
        exact slot?_unchanged t now n
      · rw [if_neg early]
        simp only [early, not_false_eq_true, and_true, Pool.slot?_adjust]
        congr 1
        funext s
        split <;> rfl
    | _ =>
      simp only [step, operation?, waits]
      exact slot?_unchanged t now n

theorem slot?_timeOut (t : Traffic) (now call n : Nat) :
    (t.step now (.timeOut call)).pool.slot? n =
      (t.pool.slot? n).map fun s => s.after now (t.operation? now (.timeOut call) n) := by
  cases waits : t.calls call with
  | none =>
    simp only [step, operation?, waits]
    exact slot?_unchanged t now n
  | some a =>
    cases a with
    | queued ticket key deadline =>
      simp only [step, operation?, waits]
      by_cases early : now < deadline
      · rw [if_pos early, if_neg fun both => both.2 early]
        exact slot?_unchanged t now n
      · rw [if_neg early]
        simp only [early, not_false_eq_true, and_true, keep]
        exact slot?_leave t key .expired now n
    | _ =>
      simp only [step, operation?, waits]
      exact slot?_unchanged t now n

theorem slot?_release {t : Traffic} (h : t.pool.Numbered) (now : Nat) (transport : TransportName)
    (lease n : Nat) :
    (t.pool.release transport lease now).1.slot? n =
      (t.pool.slot? n).map fun s => s.after now (t.onTransport n transport (.release lease)) := by
  cases found : t.pool.find? transport with
  | none =>
    rw [Pool.release_absent found, onTransport_absent found]
    exact slot?_unchanged t now n
  | some g =>
    rw [Pool.release_eq_adjust h found, ← slot?_onTransport found]
    rfl

theorem slot?_cancel {t : Traffic} (h : t.pool.Numbered) (now call n : Nat) :
    (t.step now (.cancel call)).pool.slot? n =
      (t.pool.slot? n).map fun s => s.after now (t.operation? now (.cancel call) n) := by
  cases waits : t.calls call with
  | none =>
    simp only [step, operation?, waits]
    exact slot?_unchanged t now n
  | some a =>
    simp only [step, operation?, waits, keep]
    cases a with
    | queued ticket key deadline => exact slot?_leave t key .cancelled now n
    | pacing ticket grant => exact slot?_release h now ticket.transport ticket.leaseId n
    | granted ticket instant => exact slot?_release h now ticket.transport ticket.leaseId n
    | _ => exact slot?_unchanged t now n

/-- A move performs at most one operation on a generation that is in the pool and stays there. -/
theorem slot?_step {t : Traffic} (h : t.pool.Numbered) (now : Nat) (move : Move) (n : Nat) :
    (t.step now move).pool.slot? n =
        (t.pool.slot? n).map (fun s => s.after now (t.operation? now move n)) ∨
      (∃ keep s, move = .retain keep ∧ t.pool.slot? n = some s ∧ s.isIdle = true ∧
        (t.step now move).pool.slot? n = none) ∨
      (∃ transport limits, move = .configure transport limits ∧ t.pool.slot? n = none ∧
        n = t.pool.nextGeneration ∧ (t.step now move).pool.slot? n = some (.fresh limits)) := by
  cases move with
  | acquire transport timeout => exact Or.inl (slot?_acquire h now transport timeout n)
  | resume call => exact Or.inl (slot?_resume t now call n)
  | hangUp call cause => exact Or.inl (slot?_hangUp t now call cause n)
  | timeOut call => exact Or.inl (slot?_timeOut t now call n)
  | cancel call => exact Or.inl (slot?_cancel h now call n)
  | detach call =>
    refine Or.inl ?_
    have same : (t.step now (.detach call)).pool = t.pool := by
      simp only [step]
      split <;> rfl
    rw [same]
    exact slot?_unchanged t now n
  | release transport lease => exact Or.inl (slot?_release h now transport lease n)
  | reclaim maxHold =>
    refine Or.inl ?_
    simp only [step, Pool.reclaim_eq, Pool.slot?_mapSlots]
    rfl
  | configure transport limits =>
    cases found : t.pool.find? transport with
    | some g =>
      refine Or.inl ?_
      simp only [step, operation?]
      rw [← slot?_onTransport found, Pool.configure_eq_adjust h found]
      rfl
    | none =>
      simp only [step, operation?, onTransport_absent found]
      rw [Pool.slot?_configure_new h found]
      split
      next last =>
        refine Or.inr (Or.inr ⟨transport, limits, rfl, ?_, last, rfl⟩)
        cases present : t.pool.slot? n with
        | none => rfl
        | some s => exact absurd (last ▸ Pool.slot?_issued h present) (Nat.lt_irrefl _)
      next => exact Or.inl (slot?_unchanged t now n)
  | retain keep =>
    rcases Pool.slot?_retain h keep n with same | ⟨gone, s, found, idle⟩
    · refine Or.inl ?_
      simp only [step, operation?, same]
      exact slot?_unchanged t now n
    · exact Or.inr (Or.inl ⟨keep, s, rfl, found, idle, gone⟩)

/-- The slots of a generation before a move and after it are one operation apart, or the same. -/
theorem slot?_both {t : Traffic} (h : t.pool.Numbered) {now n : Nat} {move : Move} {s s' : Slot}
    (found : t.pool.slot? n = some s) (found' : (t.step now move).pool.slot? n = some s') :
    s' = s.after now (t.operation? now move n) := by
  rcases slot?_step h now move n with same | ⟨_, _, -, -, -, gone⟩ | ⟨_, _, -, absent, -, -⟩
  · rw [found, found', Option.map_some] at same
    exact Option.some.inj same
  · rw [gone] at found'
    cases found'
  · rw [absent] at found
    cases found

/-- The slots of every transport are what operations have made of fresh ones. -/
theorem slot_history (moves : List (Nat × Move)) :
    ∀ n s, (empty.run moves).pool.slot? n = some s →
      ∃ limits ops, s = (Slot.fresh limits).run ops := by
  refine (run_induction (motive := fun t => t.pool.Numbered ∧ ∀ n s, t.pool.slot? n = some s →
    ∃ limits ops, s = (Slot.fresh limits).run ops) empty ⟨?_, ?_⟩ ?_ moves).2
  · exact ⟨List.nodup_nil, List.nodup_nil, by simp [empty, Pool.empty]⟩
  · simp [empty, Pool.empty, Pool.slot?]
  · rintro t now move ⟨numbered, history⟩
    refine ⟨numbered_step numbered now move, fun n s' found' => ?_⟩
    rcases slot?_step numbered now move n with same | ⟨_, _, -, -, -, gone⟩ | ⟨_, limits, -, -, -, fresh⟩
    · rw [found'] at same
      obtain ⟨s, found, rfl⟩ := Option.map_eq_some_iff.mp same.symm
      obtain ⟨limits, ops, rfl⟩ := history n s found
      cases t.operation? now move n with
      | none => exact ⟨limits, ops, rfl⟩
      | some op => exact ⟨limits, ops ++ [(now, op)], by rw [Slot.run_append]; rfl⟩
    · rw [gone] at found'
      cases found'
    · rw [fresh] at found'
      cases found'
      exact ⟨limits, [], rfl⟩

end Traffic

end RelayRamp.Lease
