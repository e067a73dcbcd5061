import RelayRamp.Audit
import RelayRamp.Config.Settings
import RelayRamp.Files.Access
import RelayRamp.Json.Printer
import RelayRamp.Text.Utf8
import RelayRamp.Time.Instant

/-!
# Where audit events go

Each event is one line of JSON, on the error output or at the end of a file. Failures to write a line are
ignored, so that auditing never stands in the way of an admission.
-/
namespace RelayRamp.Server

open RelayRamp.Config RelayRamp.Files RelayRamp.Time

inductive AuditSink where
  | discard
  | errorOutput
  | file (path : String)
  deriving DecidableEq, Repr

def AuditSink.ofSection (s : AuditSection) : AuditSink :=
  if !s.enabled then discard
  else
    match s.path with
    | some path => file path
    | none => errorOutput

/-- The line of an event, without its end. -/
def lineAt (wall : Instant) (event : AuditEvent) : String := (event.line wall.millis.toNat).compress

namespace AuditSink

variable {m : Type → Type} [Monad m] [FileAccess m]

/-- Makes ready: a file is made, with the directory it lies in. -/
def prepare : AuditSink → m (Except FileFault Unit)
  | discard | errorOutput => pure (.ok ())
  | file path => do
    let made ← if (parent path).isEmpty then pure (.ok ()) else FileAccess.makeDirectory (parent path)
    match made with
    | .ok () => FileAccess.append path []
    | .error fault => pure (.error fault)

/-- Takes in events; gives the lines for the error output. -/
def record (sink : AuditSink) (wall : Instant) (events : List AuditEvent) : m (List String) := do
  match sink with
  | discard => pure []
  | errorOutput => pure (events.map (lineAt wall))
  | file path =>
    events.forM fun event => do
      let _ ← FileAccess.append path (Text.Utf8.encode (lineAt wall event ++ "\n"))
    pure []

end AuditSink

end RelayRamp.Server
