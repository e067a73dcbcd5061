import RelayRamp.Lease.Waiting
import RelayRamp.Plane.Snapshot

/-!
# Attempts

One send attempt, from its request to a verdict. It is decided in order: a degraded store, throttling switched
off, an empty batch, a recipient or transport that cannot be routed, an unusable phase table, the windows, the
burst limit. Then it acquires a lease, which may take time, and commits both windows with a fresh reading of
the clock; when the commit fails the lease goes back. An admitted attempt holds its lease until it is given
back or handed out.
-/
namespace RelayRamp

/-- A verdict with the lease that backs it. -/
structure Admission where
  protected verdict : Admission.Verdict
  protected lease : Option Admission.LeaseTicket
  deriving DecidableEq, Repr

end RelayRamp

namespace RelayRamp.Admission

open RelayRamp.Lease RelayRamp.Plane RelayRamp.Routing RelayRamp.Schedule RelayRamp.Warmup

/-- What an attempt that waits for a lease goes on with. -/
structure Course where
  config : WarmupConfig
  table : PhaseTable
  route : Route
  amount : Nat

inductive Attempt where
  | requested (request : AdmissionRequest)
  | acquiring (course : Course) (acquisition : Acquisition)
  | decided (admission : Admission)

/-- The route that a request asks for. A transport asked for by name still needs a sound recipient. -/
def AdmissionRequest.route (r : AdmissionRequest) (m : Matcher) : Except ConfigurationFault Route :=
  match r.transport with
  | some name =>
    if (recipientDomain r.recipient).isNone then .error (.malformedDomain r.recipient) else m.byName name
  | none => m.resolveRecipient r.recipient

namespace Attempt

variable {σ : Type}

/-- Counts and reports a verdict without a lease. -/
def conclude (p : Plane σ) (verdict : Verdict) (transport : Option TransportName) :
    Plane σ × Effects × Attempt :=
  let effects := match verdict with
    | .admitted .. => Effects.none
    | .held reason =>
      .report { AuditEvent.plain .admissionHeld reason.describe with transport := transport }
    | .rejected reason => .report (.plain .admissionRejected reason.message)
  ({ p with tallies := p.tallies.count verdict }, effects, .decided ⟨verdict, none⟩)

/-- Admits without lease and without counting the items. -/
def bypass (p : Plane σ) (moment : Moment) : Plane σ × Effects × Attempt :=
  conclude p (.admitted none none none (p.counters.reading moment.wall)) none

/-- Releases a lease of the pool. -/
def giveBack (p : Plane σ) (ticket : LeaseTicket) (moment : Moment) : Plane σ × Effects :=
  let (pool, effects, _) := p.pool.release ticket.transport ticket.leaseId moment.tick
  ({ p with pool }, effects)

/-- Commits the windows with the lease in hand, or gives the lease back. -/
def commit (p : Plane σ) (course : Course) (ticket : LeaseTicket) (moment : Moment) :
    Plane σ × Effects × Attempt :=
  let limits := course.config.limits course.table moment.wall
  let (counters, result) := p.counters.commit limits course.amount moment.wall
  let p := { p with counters }
  match result with
  | .ok reading =>
    let verdict := .admitted course.route.transport course.route.ruleId ticket reading
    ({ p with tallies := p.tallies.count verdict }, .none, .decided ⟨verdict, ticket⟩)
  | .error reason =>
    let (p, freed) := giveBack p ticket moment
    let (p, effects, attempt) := conclude p (.held reason) course.route.transport
    (p, freed.and effects, attempt)

/-- Goes on with an acquisition as far as possible. -/
def proceed (p : Plane σ) (course : Course) (acquisition : Acquisition) (moment : Moment) :
    Plane σ × Effects × Attempt :=
  let (pool, freed, acquisition) := acquisition.resume p.pool moment.tick
  let p := { p with pool }
  let transport := course.route.transport
  let (p, effects, attempt) := match acquisition with
    | .granted ticket _ => commit p course ticket moment
    | .failed (.timedOut _) => conclude p (.held (.leaseTimeout transport)) transport
    | .failed (.unknownTransport name) => conclude p (.rejected (.unknownTransport name)) none
    | waiting => (p, .none, .acquiring course waiting)
  (p, freed.and effects, attempt)

/-- Decides a request up to the lease. -/
def begin (p : Plane σ) (r : AdmissionRequest) (moment : Moment) : Plane σ × Effects × Attempt :=
  let s := p.snapshot
  let reject (fault : ConfigurationFault) := conclude p (.rejected fault) none
  if s.degraded then
    match p.settings.failSafe with
    | .closed => conclude p (.held .failSafe) none
    | .flowing => bypass p moment
  else if !s.config.enabled then bypass p moment
  else if r.batchSize = 0 then reject .emptyBatch
  else
    match r.route s.matcher with
    | .error fault => reject fault
    | .ok route =>
      match s.table with
      | .error fault => reject fault
      | .ok table =>
        let limits := s.config.limits table moment.wall
        match p.counters.check limits r.batchSize moment.wall with
        | .error reason => conclude p (.held reason) route.transport
        | .ok _ =>
          if r.batchSize > limits.burst then
            conclude p (.held (.burstExceeded r.batchSize limits.burst)) route.transport
          else
            let timeout := r.leaseTimeoutMs.getD p.settings.leaseTimeout
            proceed p ⟨s.config, table, route, r.batchSize⟩ (.requested route.transport timeout) moment

/-- Goes on as far as possible. -/
def resume (p : Plane σ) (moment : Moment) : Attempt → Plane σ × Effects × Attempt
  | .requested r => begin p r moment
  | .acquiring course acquisition => proceed p course acquisition moment
  | done => (p, .none, done)

/-- Stops an attempt; whatever it holds or waits for is given back. -/
def cancel (p : Plane σ) (moment : Moment) : Attempt → Plane σ × Effects
  | .requested _ => (p, .none)
  | .acquiring _ acquisition =>
    let (pool, effects) := acquisition.cancel p.pool moment.tick
    ({ p with pool }, effects)
  | .decided ⟨_, some ticket⟩ => giveBack p ticket moment
  | .decided ⟨_, none⟩ => (p, .none)

def alarms : Attempt → List Alarm
  | .acquiring _ acquisition => acquisition.alarms
  | _ => []

def awaits : Attempt → Option WaitKey
  | .acquiring _ acquisition => acquisition.awaits
  | _ => none

def isDone : Attempt → Bool
  | .decided _ => true
  | _ => false

end Attempt

end RelayRamp.Admission
