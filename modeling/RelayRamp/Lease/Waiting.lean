import RelayRamp.Lease.Acquisition
import RelayRamp.Schedule.Board

/-!
# Acquisitions as jobs

Acquisitions on one pool, run on a board. The two waits of an acquisition set alarms of their own: the
deadline while it is queued, the grant instant while it holds its lease.
-/
namespace RelayRamp.Lease

open RelayRamp.Schedule

namespace Acquisition

def alarms : Acquisition → List Alarm
  | .queued _ _ deadline => [⟨0, deadline⟩]
  | .pacing _ grant => [⟨1, grant⟩]
  | _ => []

/-- How acquisitions run on a pool. -/
def conduct : Conduct Pool Acquisition where
  resume now p a := a.resume p now
  cancel now p a := a.cancel p now
  alarms := alarms
  awaits := awaits
  isDone := isDone

end Acquisition

end RelayRamp.Lease
