import Std.Time.DateTime.Timestamp
import RelayRamp.Files.Access
import RelayRamp.Plane.Snapshot

/-!
# The machine

Files and clocks of the machine that the program runs on. What goes wrong is told by the number that the system
gives for it.
-/
namespace RelayRamp.Host

open RelayRamp.Files RelayRamp.Plane RelayRamp.Time

/-- The number of a fault, which some operations give as a negative one. -/
def faultNumber (code : UInt32) : Nat := code.toInt32.toInt.natAbs

/-- The number and the words of the system for what went wrong. -/
def systemFault? : IO.Error → Option (Nat × String)
  | .noFileOrDirectory _ code words | .alreadyExists _ code words | .permissionDenied _ code words
  | .inappropriateType _ code words | .invalidArgument _ code words | .noSuchThing _ code words
  | .resourceExhausted _ code words | .interrupted _ code words | .otherError code words
  | .resourceBusy code words | .resourceVanished code words | .unsupportedOperation code words
  | .hardwareFault code words | .unsatisfiedConstraints code words | .illegalOperation code words
  | .protocolError code words | .timeExpired code words => some (faultNumber code, words)
  | _ => none

/-- The words for what went wrong, with the number. -/
def faultWords (e : IO.Error) : String :=
  match systemFault? e with
  | some (code, words) => s!"{words} (os error {code})"
  | none => toString e

def fileFault (e : IO.Error) : FileFault :=
  match systemFault? e with
  | some (2, _) => .missing
  | some (17, _) => .taken
  | some (20, _) => .notDirectory
  | some (21, _) => .isDirectory
  | some (36, _) => .longName
  | _ => .other (faultWords e)

/-- Works on the file of a path. -/
def onFile (path : String) (action : IO α) : IO (Except FileFault α) := do
  if path.toList.any (·.toNat = 0) then pure (.error .nulCharacter)
  else
    match ← action.toBaseIO with
    | .ok a => pure (.ok a)
    | .error e => pure (.error (fileFault e))

def packed (octets : Octets) : ByteArray := ⟨octets.toArray⟩

/-- A directory can be opened but not read. -/
def isDirectory (path : String) : IO Bool := do
  let looked ← onFile path do
    let handle ← IO.FS.Handle.mk path .read
    let _ ← handle.read 1
  match looked with
  | .error .isDirectory => pure true
  | _ => pure false

instance : FileAccess IO where
  read path := onFile path do pure (← IO.FS.readBinFile path).toList
  write path octets := onFile path (IO.FS.writeBinFile path (packed octets))
  append path octets := onFile path do
    let handle ← IO.FS.Handle.mk path .append
    handle.write (packed octets)
    handle.flush
  makeDirectory path := onFile path (IO.FS.createDirAll path)
  isDirectory := isDirectory

/-- The present wall time. -/
def wallNow : IO Instant := do
  let now ← Std.Time.Timestamp.now
  pure ⟨now.toNanosecondsSinceUnixEpoch.val⟩

/-- The present moment, on a clock that stood at zero at the given reading of the machine's clock. -/
def momentSince (begun : Nat) : IO Moment := do
  pure ⟨← wallNow, (← IO.monoMsNow) - begun⟩

end RelayRamp.Host
