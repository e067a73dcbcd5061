import RelayRamp.Admission.Attempt
import RelayRamp.Plane.Maintenance

/-!
# The running engine

Attempts and maintenance run as jobs on one plane. Wall time is part of the state: it is set from outside and
is independent of the clock on which jobs wait.
-/
namespace RelayRamp.Plane

open RelayRamp.Admission RelayRamp.Lease RelayRamp.Schedule RelayRamp.Store RelayRamp.Time

structure World (σ : Type) where
  plane : Plane σ
  wall : Instant

inductive Job where
  | attempt (attempt : Attempt)
  | maintenance (maintenance : Maintenance)

namespace Job

def isDone : Job → Bool
  | attempt a => a.isDone
  | maintenance .ended => true
  | maintenance _ => false

end Job

abbrev Engine (σ : Type) := Board (World σ) Job

namespace Engine

variable {σ : Type}

def resume [ThrottleStore σ] (now : Nat) (w : World σ) : Job → World σ × Effects × Job
  | .attempt a =>
    let (plane, effects, a) := a.resume w.plane ⟨w.wall, now⟩
    ({ w with plane }, effects, .attempt a)
  | .maintenance m =>
    let (plane, effects, m) := m.resume w.plane ⟨w.wall, now⟩
    ({ w with plane }, effects, .maintenance m)

def cancel (now : Nat) (w : World σ) : Job → World σ × Effects
  | .attempt a =>
    let (plane, effects) := a.cancel w.plane ⟨w.wall, now⟩
    ({ w with plane }, effects)
  | .maintenance _ => (w, .none)

/-- How jobs run on a plane. -/
def conduct [ThrottleStore σ] : Conduct (World σ) Job where
  resume := resume
  cancel := cancel
  alarms
    | .attempt a => a.alarms
    | .maintenance m => m.alarms
  awaits
    | .attempt a => a.awaits
    | .maintenance _ => none
  isDone := Job.isDone

/-- Makes a control-plane call. -/
def call [ThrottleStore σ] (e : Engine σ) (c : Call σ α) : Engine σ × Except PlaneFault α :=
  e.act conduct fun now w =>
    let (result, plane, effects) := c.run ⟨w.wall, now⟩ w.plane
    ({ w with plane }, effects, result)

/-- Lets time pass up to a moment; wall time is then that of the moment. -/
def upTo [ThrottleStore σ] (e : Engine σ) (moment : Moment) : Engine σ :=
  let e := { e with shared := { e.shared with wall := moment.wall } }
  Board.sleep conduct e (moment.tick - e.now)

/-- Starts an attempt without waiting for it; gives its number. -/
def startAttempt (e : Engine σ) (request : AdmissionRequest) : Engine σ × Nat :=
  let (e, number) := e.add (.attempt (.requested request))
  (e.rouse number, number)

/-- Starts maintenance; gives its number. -/
def startMaintenance (e : Engine σ) (persistEvery reclaimEvery : Nat) : Engine σ × Nat :=
  let (e, number) := e.add (.maintenance (.requested persistEvery reclaimEvery))
  (e.rouse number, number)

/-- Tells maintenance to end. -/
def endMaintenance (e : Engine σ) (number : Nat) : Engine σ := e.tell number fun _ => .maintenance .ending

/-- Lets every woken job go on. -/
def settle [ThrottleStore σ] (e : Engine σ) : Engine σ := e.settled conduct

/-- Records an event that no job reports. -/
def record (e : Engine σ) (event : AuditEvent) : Engine σ := { e with events := e.events ++ [event] }

/-- The verdict of an attempt that has ended. -/
def decided? (e : Engine σ) (number : Nat) : Option Admission :=
  match e.find? number with
  | some ⟨_, .attempt (.decided admission), _, _⟩ => some admission
  | _ => none

/-- The job has ended or is gone. -/
def isOver (number : Nat) (e : Engine σ) : Bool :=
  match e.find? number with
  | some task => task.job.isDone
  | none => true

/-- Makes an attempt and lets time pass until it is decided; it never waits longer than for its lease. -/
def attempt [ThrottleStore σ] (e : Engine σ) (request : AdmissionRequest) :
    Engine σ × Option Admission :=
  let patience := request.leaseTimeoutMs.getD e.shared.plane.settings.leaseTimeout
  let (e, number) := e.add (.attempt (.requested request))
  let fuel := (patience + 2) * (16 * (e.jobs.length + e.ready.length + 2))
  let e := (e.run conduct number).runUntil conduct (isOver number) fuel
  (e.remove number, decided? e number)

/-- Ends a lease that an admission holds. -/
def giveBack [ThrottleStore σ] (e : Engine σ) (ticket : LeaseTicket) : Engine σ :=
  (e.act conduct fun now w =>
    let (plane, effects) := Attempt.giveBack w.plane ticket ⟨w.wall, now⟩
    ({ w with plane }, effects, ())).1

/-- Ends an admission together with its lease. -/
def complete [ThrottleStore σ] (e : Engine σ) (admission : Admission) : Engine σ :=
  match admission.lease with
  | some ticket => e.giveBack ticket
  | none => e

/-- The engine of a plane that was just opened, at an instant of the clock on which jobs wait. -/
def opened (plane : Plane σ) (moment : Moment) (effects : Effects) : Engine σ :=
  { Board.start { plane, wall := moment.wall : World σ } with
    now := moment.tick
    events := effects.events }

end Engine

end RelayRamp.Plane
