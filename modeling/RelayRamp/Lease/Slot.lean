import RelayRamp.Routing.Transport

/-!
# The slots of one transport

A transport has a number of slots, each taken by a lease or by a hand-off that its waiter has not claimed yet.
A caller takes a free slot at once only when nobody waits; otherwise it waits, and freed slots are handed out
in order of arrival. The grant instant of a slot is reserved when it is taken or handed out: the earliest
instant that is neither past nor too close to the grant before. A waiter whose grant would come after its
deadline is passed over and takes neither slot nor instant.

Instants and spans are milliseconds on a monotonic clock.
-/
namespace RelayRamp.Lease

open RelayRamp.Routing

/-- A queued caller. One that no longer listens is about to leave and is not handed a slot. -/
structure Waiter where
  id : Nat
  deadline : Nat
  listening : Bool
  deriving DecidableEq, Repr

structure Slot where
  capacity : Nat
  rateDelay : Nat
  /-- Slots taken by leases and by unclaimed hand-offs. -/
  occupied : Nat
  /-- Outstanding leases with their grant instants. -/
  leases : List (Nat × Nat)
  waiters : List Waiter
  /-- Waiters that were handed a slot, with their grant instants. -/
  handed : List (Nat × Nat)
  lastGrant : Option Nat
  nextWaiter : Nat
  deriving DecidableEq, Repr

/-- What happens to a caller on entry. -/
inductive Entry where
  | granted (instant : Nat)
  | queued (waiter : Nat)
  | tooLate
  deriving DecidableEq, Repr

/-- What becomes of a waiter whose turn it is. -/
inductive Turn where
  /-- It is handed a slot for the grant instant. -/
  | handed (waiter grant : Nat)
  /-- It is passed over: its earliest grant comes after its deadline. -/
  | late (waiter earliest : Nat)
  /-- It is passed over: it no longer listens. -/
  | deaf (waiter : Nat)
  deriving DecidableEq, Repr

/-- The waiter, if it hears of its turn. -/
def Turn.hearer? : Turn → Option Nat
  | handed waiter _ | late waiter _ => some waiter
  | deaf _ => none

namespace Slot

def fresh (limits : TransportLimits) : Slot :=
  ⟨limits.concurrency, limits.rateDelay, 0, [], [], [], none, 0⟩

/-- The earliest grant that keeps the rate delay. -/
def nextGrant (s : Slot) (now : Nat) : Nat :=
  match s.lastGrant with
  | none => now
  | some last => max (last + s.rateDelay) now

/-- Takes a free slot for a lease when nobody waits, else joins the queue. -/
def enter (s : Slot) (now lease deadline : Nat) : Slot × Entry :=
  if s.waiters.isEmpty ∧ s.occupied < s.capacity then
    let grant := s.nextGrant now
    if grant > deadline then (s, .tooLate)
    else
      ({ s with
          occupied := s.occupied + 1
          lastGrant := some grant
          leases := s.leases ++ [(lease, grant)] },
        .granted grant)
  else
    ({ s with
        waiters := s.waiters ++ [⟨s.nextWaiter, deadline, true⟩]
        nextWaiter := s.nextWaiter + 1 },
      .queued s.nextWaiter)

/-- What becomes of a waiter when a slot is free for it. -/
def turn (s : Slot) (now : Nat) (w : Waiter) : Turn :=
  if s.nextGrant now > w.deadline then .late w.id (s.nextGrant now)
  else if w.listening then .handed w.id (s.nextGrant now)
  else .deaf w.id

/-- Takes the slot of a turn together with its grant instant. -/
def take (s : Slot) : Turn → Slot
  | .handed waiter grant =>
    { s with
      occupied := s.occupied + 1
      lastGrant := some grant
      handed := s.handed ++ [(waiter, grant)] }
  | .late .. | .deaf _ => s

/-- Hands out free slots to the given queue, and leaves the rest of it waiting. Gives the turns that were
taken, in order. -/
def serve (now : Nat) : List Waiter → Slot → Slot × List Turn
  | [], s => ({ s with waiters := [] }, [])
  | w :: rest, s =>
    if s.occupied < s.capacity then
      let turn := s.turn now w
      let (s, turns) := serve now rest (s.take turn)
      (s, turn :: turns)
    else ({ s with waiters := w :: rest }, [])

/-- Hands out free slots to the waiters in order of arrival. -/
def dispatch (s : Slot) (now : Nat) : Slot × List Turn :=
  serve now s.waiters s

/-- Gives back one slot. -/
def freeSlot (s : Slot) (now : Nat) : Slot × List Turn :=
  { s with occupied := s.occupied - 1 }.dispatch now

/-- New limits; a higher capacity is handed out at once, a lower one takes no lease away. -/
def configure (s : Slot) (limits : TransportLimits) (now : Nat) : Slot × List Turn :=
  { s with capacity := limits.concurrency, rateDelay := limits.rateDelay }.dispatch now

/-- A handed slot becomes a lease; gives its grant instant. -/
def claim (s : Slot) (waiter lease : Nat) : Option (Slot × Nat) :=
  match s.handed.lookup waiter with
  | none => none
  | some grant =>
    some
      ({ s with
          handed := s.handed.filter (·.1 ≠ waiter)
          leases := s.leases ++ [(lease, grant)] },
        grant)

/-- A waiter stops listening before it leaves. -/
def hangUp (s : Slot) (waiter : Nat) : Slot :=
  { s with waiters := s.waiters.map fun w => if w.id = waiter then { w with listening := false } else w }

/-- A caller leaves without a lease: out of the queue, or giving back the slot that it was handed. -/
def leave (s : Slot) (waiter now : Nat) : Slot × List Turn :=
  if s.waiters.any (·.id = waiter) then ({ s with waiters := s.waiters.filter (·.id ≠ waiter) }, [])
  else if s.handed.any (·.1 = waiter) then
    { s with handed := s.handed.filter (·.1 ≠ waiter) }.freeSlot now
  else (s, [])

/-- Ends a lease; none when it is not outstanding. -/
def release (s : Slot) (lease now : Nat) : Option (Slot × List Turn) :=
  if s.leases.any (·.1 = lease) then
    some ({ s with leases := s.leases.filter (·.1 ≠ lease) }.freeSlot now)
  else none

/-- The leases granted longer ago than allowed, in the order of their ids. -/
def expired (s : Slot) (maxHold now : Nat) : List Nat :=
  ((s.leases.filter fun (_, grant) => now - grant > maxHold).map (·.1)).mergeSort

/-- Ends leases one after the other, offering each slot to the waiters. -/
def releaseAll (now : Nat) : List Nat → Slot → Slot × List Turn
  | [], s => (s, [])
  | lease :: rest, s =>
    let (s, turns) := (s.release lease now).getD (s, [])
    let (s, more) := releaseAll now rest s
    (s, turns ++ more)

/-- Nothing holds or awaits a slot. -/
def isIdle (s : Slot) : Bool := s.occupied = 0 && s.waiters.isEmpty

end Slot

end RelayRamp.Lease
