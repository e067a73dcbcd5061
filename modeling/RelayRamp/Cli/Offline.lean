import RelayRamp.Config.Loading
import RelayRamp.Postfix.ServiceBlock
import RelayRamp.Server.Setup

/-!
# Commands without a server

Operators can work on a durable store directly. A store in memory would be gone at the end of the command and is
refused. Text that is rendered can be written to a file, or put in place of the managed block of one.
-/
namespace RelayRamp.Cli

open RelayRamp.Config RelayRamp.Files RelayRamp.Plane RelayRamp.Server

inductive OfflineFault where
  | config (problem : Problem)
  | ephemeralStore
  | store (words : String)
  | plane (fault : PlaneFault)
  | file (path : String) (fault : FileFault)
  | tooLarge (path : String) (limit : Nat)
  deriving DecidableEq, Repr

def OfflineFault.message : OfflineFault → String
  | config problem => "invalid config: " ++ problemWords problem
  | ephemeralStore => "offline commands require store.type = \"sqlite\""
  | store words => "store unavailable: " ++ words
  | plane fault => fault.message
  | file path fault => s!"{path}: {fault.message}"
  | tooLarge path limit => s!"{path} exceeds {limit} bytes"

/-- The fault of a server that could not be set up, as seen by a command. -/
def OfflineFault.ofServer : ServerFault → OfflineFault
  | .config problem => config problem
  | .sink fault => store fault.message
  | .plane fault => plane (.validation fault)
  | fault => store fault.message

/-- The largest file into which a block is put, in octets. -/
def maxSplicedFile : Nat := 1024 * 1024

variable {m : Type → Type} [Monad m] [FileAccess m]

/-- Sets up an engine over the durable store of the configuration; it must be readable. What setting it up
recorded is in the second part, also when that failed. -/
def openOffline (c : GateConfig) (moment : Moment) : m (Except OfflineFault Station × List String) := do
  match c.validate, c.store.type with
  | .error problem, _ => pure (.error (.config problem), [])
  | .ok (), .memory => pure (.error .ephemeralStore, [])
  | .ok (), .durable =>
    match ← setUp c moment with
    | .error fault => pure (.error (.ofServer fault), [])
    | .ok station =>
      let (station, lines) ← station.report
      let snapshot := station.engine.shared.plane.snapshot
      if snapshot.degraded then
        let reason := match snapshot.phases with
          | .error fault => fault.message
          | .ok _ => ""
        pure (.error (.store reason), lines)
      else pure (.ok station, lines)

/-- Writes a text to a file. -/
def writeText (path text : String) : m (Except OfflineFault Unit) := do
  let written ← FileAccess.write path (Text.Utf8.encode text)
  pure (written.mapError (OfflineFault.file path))

/-- Puts a block in place of the managed block of a file. A file that does not exist will hold only the block. -/
def spliceFile (path block : String) : m (Except OfflineFault Unit) := do
  match ← FileAccess.read path with
  | .error .missing => writeText path (Postfix.splice "" block)
  | .error fault => pure (.error (.file path fault))
  | .ok octets =>
    if octets.length > maxSplicedFile then pure (.error (.tooLarge path maxSplicedFile))
    else
      match Text.Utf8.decode octets with
      | none => pure (.error (.file path .notText))
      | some text => writeText path (Postfix.splice (String.ofList text) block)

end RelayRamp.Cli
