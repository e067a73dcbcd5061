import RelayRamp.Config.Reading
import RelayRamp.Config.Validation
import RelayRamp.Text.Utf8

/-!
# Loading the configuration

A file is named by the caller, else by the environment, else by a default name. Its path and its size are
checked before its text is read.
-/
namespace RelayRamp.Config

open RelayRamp.Files RelayRamp.Text

/-- Used when no other file is named. -/
def defaultName : String := "warmup-gate.toml"

/-- The variable of the environment that names a file. -/
def variableName : String := "WARMUP_GATE_CONFIG"

/-- The largest file, in octets. -/
def maxFile : Nat := 256 * 1024

/-- Reads and checks the text of a configuration. -/
def GateConfig.ofText (text : String) : Except ConfigFault GateConfig :=
  match Toml.parse text >>= GateConfig.ofMembers? with
  | none => .error .unreadable
  | some config =>
    match config.validate with
    | .ok () => .ok config
    | .error problem => .error (.invalid problem)

/-- Reads and checks the content of a file. -/
def GateConfig.ofOctets (octets : Octets) : Except ConfigFault GateConfig :=
  if octets.length > maxFile then .error (.invalid .longFile)
  else
    match Utf8.decode octets with
    | none => .error (.invalid .notText)
    | some text => GateConfig.ofText (String.ofList text)

/-- The file to load, given the one that the caller names and the one of the environment. -/
def locate (named environment : Option String) : Except ConfigFault String :=
  match named, environment with
  | some path, _ => .ok path
  | none, some path =>
    if Text.octets path > maxPath then .error (.invalid .longLocation) else .ok path
  | none, none => .ok defaultName

/-- Loads a file. -/
def load [Monad m] [FileAccess m] (named environment : Option String) : m (Except ConfigFault GateConfig) := do
  let checked := do
    let path ← locate named environment
    (checkPath "config path" path).mapError ConfigFault.invalid
    pure path
  match checked with
  | .error fault => pure (.error fault)
  | .ok path =>
    match ← FileAccess.read path with
    | .error fault => pure (.error (.io path fault))
    | .ok octets => pure (GateConfig.ofOctets octets)

end RelayRamp.Config
