import RelayRamp.Fault
import RelayRamp.Files.Access

/-!
# Faults of the configuration
-/
namespace RelayRamp.Config

open RelayRamp.Files

/-- What is wrong with a configured path. -/
inductive PathFault where
  | blank
  | long
  | longPart
  deriving DecidableEq, Repr

def PathFault.message : PathFault → String
  | blank => "must be non-empty"
  | long => "exceeds max length"
  | longPart => "path component too long"

/-- What makes a configuration invalid. -/
inductive Problem where
  | address (field text : String)
  | sharedAddress
  | outOfRange (field : String)
  | pathInMemory
  | pathMissing
  | path (field : String) (fault : PathFault)
  | transport (fault : ValidationFault)
  | longFile
  | notText
  | longLocation
  deriving DecidableEq, Repr

def Problem.message : Problem → String
  | address field text => s!"{field} must be a socket address, got `{text}`"
  | sharedAddress => "server.policy_bind must differ from server.bind"
  | outOfRange field => s!"{field} out of range"
  | pathInMemory => "memory store must not set path"
  | pathMissing => "sqlite store requires path"
  | path field fault => s!"{field} {fault.message}"
  | transport fault => s!"admission.default_transport: {fault.message}"
  | longFile => "config file exceeds size limit"
  | notText => "config file must be utf-8"
  | longLocation => "config path exceeds max length"

inductive ConfigFault where
  | io (path : String) (fault : FileFault)
  /-- The text is no TOML, or a value has the wrong type. -/
  | unreadable
  | invalid (problem : Problem)
  deriving DecidableEq, Repr

def ConfigFault.message : ConfigFault → String
  | io path fault => s!"config io error: {path}: {fault.message}"
  | unreadable => "config parse error: not a configuration in TOML"
  | invalid problem => s!"invalid config: {problem.message}"

/-- A word for the cause, for programs. -/
def ConfigFault.label : ConfigFault → String
  | io .. => "io"
  | unreadable => "parse"
  | invalid _ => "invalid"

end RelayRamp.Config
