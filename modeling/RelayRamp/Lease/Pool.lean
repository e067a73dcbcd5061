import RelayRamp.Admission.Verdict
import RelayRamp.Audit
import RelayRamp.Lease.Slot
import RelayRamp.Routing.Matcher

/-!
# The lease pool

One slot state for each configured transport. A transport that is idle and no longer wanted is dropped; when it
is configured again it is a new generation, and a caller that still waits on the old one reaches nothing.
Lease ids are unique in a pool. The first release of a lease frees its slot; every other one is an anomaly
that changes nothing and is reported.
-/
namespace RelayRamp.Lease

open RelayRamp.Admission RelayRamp.Routing

inductive LeaseFault where
  | unknownTransport (name : String)
  | timedOut (name : String)
  deriving DecidableEq, Repr

def LeaseFault.message : LeaseFault → String
  | .unknownTransport name => s!"transport `{name}` is not configured"
  | .timedOut name => s!"timed out waiting for a slot on transport `{name}`"

/-- A word for the cause, for programs. -/
def LeaseFault.label : LeaseFault → String
  | .unknownTransport _ => "unknown_transport"
  | .timedOut _ => "timed_out"

inductive ReleaseOutcome where
  | released
  | anomalous
  deriving DecidableEq, Repr

def ReleaseOutcome.label : ReleaseOutcome → String
  | released => "released"
  | anomalous => "anomalous"

/-- The place of a waiter: the generation of its transport and its number there. -/
structure WaitKey where
  generation : Nat
  waiter : Nat
  deriving DecidableEq, Repr

/-- What a step does beyond its result: the waiters it wakes, in order, and the events it reports. -/
structure Effects where
  wakes : List WaitKey
  events : List AuditEvent
  deriving DecidableEq, Repr

namespace Effects

def none : Effects := ⟨[], []⟩

def report (event : AuditEvent) : Effects := ⟨[], [event]⟩

def and (a b : Effects) : Effects := ⟨a.wakes ++ b.wakes, a.events ++ b.events⟩

/-- Wakes the waiters of a generation that hear of their turns. -/
def serve (generation : Nat) (turns : List Turn) : Effects :=
  ⟨(turns.filterMap Turn.hearer?).map (⟨generation, ·⟩), []⟩

end Effects

/-- The slots of a transport since it was last put into the pool. -/
structure Generation where
  number : Nat
  slot : Slot
  deriving DecidableEq, Repr

/-- The occupancy of one transport. -/
structure Occupancy where
  transport : TransportName
  capacity : Nat
  outstanding : Nat
  waiting : Nat
  deriving DecidableEq, Repr

structure Pool where
  slots : Roster Generation
  nextLease : Nat
  nextGeneration : Nat
  deriving DecidableEq, Repr

namespace Pool

def empty : Pool := ⟨[], 1, 0⟩

def find? (p : Pool) (transport : TransportName) : Option Generation := p.slots.get? transport

/-- The slot of a generation, if it is still in the pool. -/
def slot? (p : Pool) (generation : Nat) : Option Slot :=
  (p.slots.find? fun (_, g) => g.number = generation).map (·.2.slot)

/-- Replaces the slot of a generation if it is still in the pool. -/
def put (p : Pool) (generation : Nat) (slot : Slot) : Pool :=
  { p with
    slots := p.slots.map fun (name, g) =>
      if g.number = generation then (name, { g with slot := slot }) else (name, g) }

/-- Creates a transport or changes its limits; waiters may get slots by it. -/
def configure (p : Pool) (transport : TransportName) (limits : TransportLimits) (now : Nat) :
    Pool × Effects :=
  match p.find? transport with
  | some g =>
    let (slot, turns) := g.slot.configure limits now
    (p.put g.number slot, .serve g.number turns)
  | none =>
    let g : Generation := ⟨p.nextGeneration, .fresh limits⟩
    ({ p with
        slots := p.slots.upsert (fun _ => g) transport
        nextGeneration := p.nextGeneration + 1 },
      .none)

/-- Drops the idle transports that are not kept. -/
def retain (p : Pool) (keep : List TransportName) : Pool :=
  { p with slots := p.slots.filter fun (name, g) => keep.contains name || !g.slot.isIdle }

/-- Ends a lease. -/
def release (p : Pool) (transport : TransportName) (lease now : Nat) :
    Pool × Effects × ReleaseOutcome :=
  let freed := do
    let g ← p.find? transport
    let (slot, turns) ← g.slot.release lease now
    some (p.put g.number slot, Effects.serve g.number turns)
  match freed with
  | some (p, effects) => (p, effects, .released)
  | none =>
    let detail := "release of unknown or already released lease"
    (p, .report (.onLease .anomalousRelease detail transport lease), .anomalous)

/-- Ends every lease that was granted longer ago than allowed; each is reported. -/
def reclaim (p : Pool) (maxHold now : Nat) : Pool × Effects × List LeaseTicket :=
  let taken := p.slots.map fun (name, g) => (name, g, g.slot.expired maxHold now)
  let swept := taken.map fun (name, g, leases) =>
    let (slot, turns) := g.slot.releaseAll now leases
    ((name, { g with slot := slot }), Effects.serve g.number turns)
  let tickets := taken.flatMap fun (name, _, leases) => leases.map (LeaseTicket.mk name)
  let detail := s!"lease exceeded maximum delivery duration of {maxHold}ms"
  let events := tickets.map fun t => AuditEvent.onLease .leaseReclaimed detail t.transport t.leaseId
  ({ p with slots := swept.map (·.1) }, ⟨swept.flatMap (·.2.wakes), events⟩, tickets)

/-- The slots of a transport in use. -/
def outstanding (p : Pool) (transport : TransportName) : Option Nat :=
  (p.find? transport).map (·.slot.occupied)

/-- The occupancy of every transport in the order of their names. -/
def metrics (p : Pool) : List Occupancy :=
  p.slots.map fun (name, g) => ⟨name, g.slot.capacity, g.slot.occupied, g.slot.waiters.length⟩

end Pool

end RelayRamp.Lease
