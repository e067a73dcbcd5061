import RelayRamp.Lease.Waiting
import RelayRamp.Rehearsal.Tagged

/-!
# Rehearsing leases

A lease pool driven by hand on a virtual clock. Leases are kept under tags until they are released, dropped or
detached; acquisitions that were started without waiting for them are kept under tags of their own. A lease
that is replaced under its tag is released.
-/
namespace RelayRamp.Rehearsal

open RelayRamp.Admission RelayRamp.Lease RelayRamp.Routing RelayRamp.Schedule

structure Leases where
  board : Board Pool Acquisition
  tasks : Tagged Nat
  leases : Tagged LeaseTicket

/-- How an acquisition ended: with a lease and the instant of its return, or with a fault. -/
abbrev Acquired := Except LeaseFault (LeaseTicket × Nat)

namespace Leases

def conduct : Conduct Pool Acquisition := Acquisition.conduct

def fresh : Leases := ⟨.start .empty, [], []⟩

/-- Lets every woken acquisition go on. -/
def settled (r : Leases) : Leases := { r with board := r.board.settled conduct }

/-- Makes a call of the pool. -/
def act (r : Leases) (f : Nat → Pool → Pool × Effects × α) : Leases × α :=
  let (board, result) := r.board.act conduct f
  ({ r with board }, result)

def configure (r : Leases) (transport : TransportName) (limits : TransportLimits) : Leases :=
  (r.act fun now p => let (p, effects) := p.configure transport limits now; (p, effects, ())).1

def retain (r : Leases) (keep : List TransportName) : Leases :=
  (r.act fun _ p => (p.retain keep, .none, ())).1

def reclaim (r : Leases) (hold : Nat) : Leases × List LeaseTicket :=
  r.act fun now p => p.reclaim hold now

/-- Ends a lease by its ticket. -/
def release (r : Leases) (ticket : LeaseTicket) : Leases × ReleaseOutcome :=
  r.act fun now p => p.release ticket.transport ticket.leaseId now

/-- Takes a lease from its tag. -/
def take? (r : Leases) (tag : String) : Option (LeaseTicket × Leases) :=
  (r.leases.get? tag).map fun ticket => (ticket, { r with leases := r.leases.erase tag })

/-- Keeps a lease under a tag. -/
def keep (r : Leases) (tag : String) (ticket : LeaseTicket) : Leases :=
  let r := match r.take? tag with
    | some (old, r) => (r.release old).1
    | none => r
  { r with leases := r.leases.insert tag ticket }

/-- Collects an acquisition that has ended; its lease is kept under the tag. -/
def collect (r : Leases) (tag : String) (number : Nat) : Leases × Option Acquired :=
  match r.board.find? number with
  | some ⟨_, .granted ticket instant, _, _⟩ =>
    (({ r with board := r.board.remove number }).keep tag ticket, some (.ok (ticket, instant)))
  | some ⟨_, .failed fault, _, _⟩ => ({ r with board := r.board.remove number }, some (.error fault))
  | _ => (r, none)

def isOver (number : Nat) (board : Board Pool Acquisition) : Bool :=
  match board.find? number with
  | some task => task.job.isDone
  | none => true

/-- Acquires a lease and lets time pass until that has ended. -/
def acquire (r : Leases) (tag : String) (transport : TransportName) (timeout : Nat) :
    Leases × Option Acquired :=
  let (board, number) := r.board.add (.requested transport timeout)
  let fuel := (timeout + 2) * (16 * (board.jobs.length + board.ready.length + 2))
  let board := (board.run conduct number).runUntil conduct (isOver number) fuel
  ({ r with board }).collect tag number

/-- Starts to acquire a lease. An acquisition of the same tag is left to itself. -/
def spawn (r : Leases) (tag : String) (transport : TransportName) (timeout : Nat) : Leases :=
  let board := match r.tasks.get? tag with
    | some old => r.board.unwatch conduct old
    | none => r.board
  let (board, number) := board.add (.requested transport timeout)
  { r with board := board.rouse number, tasks := r.tasks.insert tag number }

/-- Collects a started acquisition if it has ended. -/
def poll (r : Leases) (tag : String) (number : Nat) : Leases × Option Acquired :=
  match r.collect tag number with
  | (_, none) => (r, none)
  | (r, some acquired) => ({ r with tasks := r.tasks.erase tag }, some acquired)

/-- Stops a started acquisition and waits until it is gone; tells whether it had ended before. -/
def cancel (r : Leases) (tag : String) (number : Nat) : Leases × Bool :=
  let r := { r with tasks := r.tasks.erase tag }
  if isOver number r.board then ({ r with board := r.board.discard conduct number }.settled, true)
  else ({ r with board := r.board.stop number }.settled, false)

def sleep (r : Leases) (ms : Nat) : Leases := { r with board := r.board.sleep conduct ms }

end Leases

end RelayRamp.Rehearsal
