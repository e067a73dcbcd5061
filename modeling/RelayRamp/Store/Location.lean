import RelayRamp.Files.Path
import RelayRamp.Store.Call

/-!
# Where a store may be kept

The path of a store names a file, and is checked before the file is touched.
-/
namespace RelayRamp.Store

open RelayRamp.Files

/-- Why a path is refused. -/
inductive LocationFault where
  | empty
  | long
  | longPart
  | directory
  deriving DecidableEq, Repr

def LocationFault.message : LocationFault → String
  | empty => "store path must not be empty"
  | long => "store path exceeds length limit"
  | longPart => "store path contains an overlong component"
  | directory => "store path must be a file, not a directory"

def LocationFault.toStoreFault (f : LocationFault) : StoreFault := ⟨.invalid, f.message⟩

/-- Checks the path of a store, given whether there is a directory of that path. -/
def checkLocation (path : String) (isDirectory : Bool) : Except LocationFault Unit :=
  if path.isEmpty then .error .empty
  else if Text.octets path > maxPath then .error .long
  else if hasLongPart path then .error .longPart
  else if isDirectory then .error .directory
  else .ok ()

end RelayRamp.Store
