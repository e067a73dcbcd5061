import RelayRamp.Lease.Pool

/-!
# Acquiring a lease

An acquisition runs from its start to a lease or a fault, and may have to wait twice: in the queue for a slot
until its deadline, and then with the lease in hand until the grant instant. It can be cancelled at each of
these points and then leaves nothing behind.
-/
namespace RelayRamp.Lease

open RelayRamp.Admission RelayRamp.Routing

inductive Acquisition where
  /-- Not begun. -/
  | requested (transport : TransportName) (timeout : Nat)
  /-- In the queue of a transport. -/
  | queued (ticket : LeaseTicket) (key : WaitKey) (deadline : Nat)
  /-- Holding a lease whose grant instant is still to come. -/
  | pacing (ticket : LeaseTicket) (grant : Nat)
  /-- Returned with a lease at an instant. -/
  | granted (ticket : LeaseTicket) (instant : Nat)
  | failed (fault : LeaseFault)
  deriving DecidableEq, Repr

namespace Acquisition

/-- The acquisition of a lease that is in hand from now on. -/
def paced (ticket : LeaseTicket) (grant now : Nat) : Acquisition :=
  if grant ≤ now then .granted ticket now else .pacing ticket grant

/-- Starts an acquisition: it uses up a lease id whatever becomes of it. -/
def start (p : Pool) (transport : TransportName) (timeout now : Nat) : Pool × Acquisition :=
  let ticket : LeaseTicket := ⟨transport, p.nextLease⟩
  let p := { p with nextLease := p.nextLease + 1 }
  match p.find? transport with
  | none => (p, .failed (.unknownTransport transport.text))
  | some g =>
    let (slot, entry) := g.slot.enter now ticket.leaseId (now + timeout)
    let p := p.put g.number slot
    match entry with
    | .granted grant => (p, paced ticket grant now)
    | .queued waiter => (p, .queued ticket ⟨g.number, waiter⟩ (now + timeout))
    | .tooLate => (p, .failed (.timedOut transport.text))

/-- Leaves the queue, or gives back the slot that was handed over. -/
def leave (p : Pool) (key : WaitKey) (now : Nat) : Pool × Effects :=
  match p.slot? key.generation with
  | none => (p, .none)
  | some slot =>
    let (slot, turns) := slot.leave key.waiter now
    (p.put key.generation slot, .serve key.generation turns)

/-- Goes on from the queue: claims a slot that was handed over, gives up when passed over or at the
deadline. -/
def resumeQueued (p : Pool) (now : Nat) (ticket : LeaseTicket) (key : WaitKey) (deadline : Nat) :
    Pool × Effects × Acquisition :=
  let timedOut := failed (.timedOut ticket.transport.text)
  match p.slot? key.generation with
  | none => (p, .none, timedOut)
  | some slot =>
    match slot.claim key.waiter ticket.leaseId with
    | some (slot, grant) => (p.put key.generation slot, .none, paced ticket grant now)
    | none =>
      if slot.waiters.any (·.id = key.waiter) ∧ now < deadline then
        (p, .none, .queued ticket key deadline)
      else
        let (p, effects) := leave p key now
        (p, effects, timedOut)

/-- Goes on as far as possible and waits only where it has to. -/
def resume (p : Pool) (now : Nat) : Acquisition → Pool × Effects × Acquisition
  | .requested transport timeout =>
    match start p transport timeout now with
    | (p, .queued ticket key deadline) => resumeQueued p now ticket key deadline
    | (p, begun) => (p, .none, begun)
  | .queued ticket key deadline => resumeQueued p now ticket key deadline
  | .pacing ticket grant => (p, .none, paced ticket grant now)
  | done => (p, .none, done)

/-- Stops an acquisition; a lease that it holds or was granted is released. -/
def cancel (p : Pool) (now : Nat) : Acquisition → Pool × Effects
  | .queued _ key _ => leave p key now
  | .pacing ticket _ | .granted ticket _ =>
    let (p, effects, _) := p.release ticket.transport ticket.leaseId now
    (p, effects)
  | .requested .. | .failed _ => (p, .none)


/-- The place in a queue that it waits at. -/
def awaits : Acquisition → Option WaitKey
  | .queued _ key _ => some key
  | _ => none

/-- Nothing is left to wait for. -/
def isDone : Acquisition → Bool
  | .granted .. | .failed _ => true
  | _ => false

end Acquisition

end RelayRamp.Lease
