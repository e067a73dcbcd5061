import RelayRamp.Config.Settings
import RelayRamp.Toml.Parser
import RelayRamp.Width

/-!
# Reading the configuration

A section is a table, or a list of its values in order. Keys that are not known are ignored; a value of the
wrong type makes the whole configuration unreadable.
-/
namespace RelayRamp.Config

open RelayRamp.Plane RelayRamp.Toml

/-- The values of a section under the given keys. -/
def values (keys : List String) (section' : Value) : Option (List (Option Value)) :=
  match section' with
  | .table _ members => some (keys.map (Members.get? members))
  | other => other.items?.map fun items => keys.mapIdx fun i _ => items[i]?

/-- Reads a value that may be missing. -/
def orElse (fallback : α) (read : Value → Option α) : Option Value → Option α
  | some v => read v
  | none => some fallback

def optional (read : Value → Option α) : Option Value → Option (Option α)
  | some v => some <$> read v
  | none => some none

def readText : Value → Option String
  | .str s => some s
  | _ => none

def readBool : Value → Option Bool
  | .bool b => some b
  | _ => none

def readNat (bound : Nat) : Value → Option Nat
  | .int n => if 0 ≤ n ∧ n < bound then some n.toNat else none
  | _ => none

def readWord : Value → Option Nat := readNat Width.word

def readLong : Value → Option Nat := readNat Width.long

/-- A name among several: as text, or as the only key of a table, with nothing under it. -/
def readName : Value → Option String
  | .str s => some s
  | .table _ [(name, .table _ [])] => some name
  | .table _ [(name, .arr [])] => some name
  | _ => none

/-- One of several choices by its label. -/
def readChoice (choices : List α) (label : α → String) (v : Value) : Option α := do
  let name ← readName v
  choices.find? (label · = name)

def ServerSection.read (v : Value) : Option ServerSection := do
  let [bind, policyBind, maxBody] ← values ["bind", "policy_bind", "max_body_bytes"] v | none
  let base := standard
  pure
    { bind := ← orElse base.bind readText bind
      policyBind := ← optional readText policyBind
      maxBodyOctets := ← orElse base.maxBodyOctets readLong maxBody }

def StoreSection.read (v : Value) : Option StoreSection := do
  let keys := ["type", "path", "busy_timeout_ms", "journal_mode", "sync_mode"]
  let [type, path, timeout, journal, sync] ← values keys v | none
  let base := standard
  pure
    { type := ← orElse base.type (readChoice [.memory, .durable] StoreType.label) type
      path := ← optional readText path
      busyTimeout := ← orElse base.busyTimeout readLong timeout
      journal := ← orElse base.journal (readChoice [.wal, .delete] JournalMode.label) journal
      sync := ← orElse base.sync (readChoice [.full, .normal] SyncMode.label) sync }

def AdmissionSection.read (v : Value) : Option AdmissionSection := do
  let keys :=
    [ "lease_timeout_ms", "max_delivery_ms", "fail_safe", "default_transport", "default_concurrency",
      "default_rate_delay_seconds" ]
  let [timeout, delivery, failSafe, transport, concurrency, delay] ← values keys v | none
  let base := standard
  pure
    { leaseTimeout := ← orElse base.leaseTimeout readLong timeout
      maxDelivery := ← orElse base.maxDelivery readLong delivery
      failSafe := ← orElse base.failSafe (readChoice [.flowing, .closed] FailSafe.label) failSafe
      transport := ← orElse base.transport readText transport
      concurrency := ← orElse base.concurrency readWord concurrency
      rateDelaySeconds := ← orElse base.rateDelaySeconds readWord delay }

def SeedSection.read (v : Value) : Option SeedSection := do
  let [phases, rules] ← values ["default_phases", "default_rules"] v | none
  pure ⟨← orElse true readBool phases, ← orElse true readBool rules⟩

def MaintenanceSection.read (v : Value) : Option MaintenanceSection := do
  let [persist, reclaim] ← values ["persist_interval_ms", "reclaim_interval_ms"] v | none
  let base := standard
  pure
    ⟨← orElse base.persistInterval readLong persist, ← orElse base.reclaimInterval readLong reclaim⟩

def AuditSection.read (v : Value) : Option AuditSection := do
  let [enabled, path] ← values ["enabled", "path"] v | none
  pure ⟨← orElse true readBool enabled, ← optional readText path⟩

/-- Reads the sections of a document. -/
def GateConfig.ofMembers? (ms : Members) : Option GateConfig := do
  pure
    { server := ← orElse .standard ServerSection.read (ms.get? "server")
      store := ← orElse .standard StoreSection.read (ms.get? "store")
      admission := ← orElse .standard AdmissionSection.read (ms.get? "admission")
      seed := ← orElse .standard SeedSection.read (ms.get? "seed")
      maintenance := ← orElse .standard MaintenanceSection.read (ms.get? "maintenance")
      audit := ← orElse .standard AuditSection.read (ms.get? "audit") }

end RelayRamp.Config
