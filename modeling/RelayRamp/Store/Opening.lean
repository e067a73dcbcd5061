import RelayRamp.Codec.Tables
import RelayRamp.Files.Access
import RelayRamp.Json.Parser
import RelayRamp.Json.Printer
import RelayRamp.Store.Location

/-!
# Durable stores in files

A durable store is kept as the JSON text of its tables. A file that does not exist, or is empty, is a store
without content; the directory it lies in is made if need be.
-/
namespace RelayRamp.Store

open RelayRamp.Files RelayRamp.Text

/-- The words for a store that cannot be opened. -/
def StoreFault.openingMessage (f : StoreFault) : String :=
  let kind := match f.kind with
    | .io => "io error"
    | .engine => "db error"
    | .corrupt => "corruption"
    | .versionMismatch => "version mismatch"
    | .invalid => "invalid data"
    | .conflict => "conflict"
  s!"sqlite store {kind}: {f.detail}"

/-- The store that a file holds. -/
def DurableStore.ofOctets (octets : Octets) : Except StoreFault DurableStore :=
  if octets.isEmpty then .ok .empty
  else
    match Json.parse octets >>= DurableStore.ofJson? with
    | some s => s.reopen
    | none => .error ⟨.engine, "file is not a database"⟩

def DurableStore.toOctets (s : DurableStore) : Octets := Utf8.encode s.toJson.compress

variable {m : Type → Type} [Monad m] [FileAccess m]

/-- Writes a store to its file. -/
def DurableStore.save (s : DurableStore) (path : String) : m (Except StoreFault Unit) := do
  let written ← FileAccess.write path s.toOctets
  pure (written.mapError fun fault => ⟨.io, fault.message⟩)

/-- Opens the store of a file. -/
def DurableStore.load (path : String) : m (Except StoreFault DurableStore) := do
  match checkLocation path (← FileAccess.isDirectory path) with
  | .error fault => pure (.error fault.toStoreFault)
  | .ok () =>
    let made ← if (parent path).isEmpty then pure (.ok ()) else FileAccess.makeDirectory (parent path)
    match made with
    | .error fault => pure (.error ⟨.io, fault.message⟩)
    | .ok () =>
      match ← FileAccess.read path with
      | .ok octets => pure (DurableStore.ofOctets octets)
      | .error .missing =>
        match ← DurableStore.empty.save path with
        | .ok () => pure (.ok .empty)
        | .error fault => pure (.error fault)
      | .error fault => pure (.error ⟨.engine, s!"unable to open database file: {fault.message}"⟩)

end RelayRamp.Store
