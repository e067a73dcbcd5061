import RelayRamp.Fault
import RelayRamp.Text.Blank

/-!
# Warmup phases

A phase bounds the volume of a sender per hour, per day and per admission for a number of days. A phase table
lists the phases of a warmup: they are numbered from zero without gaps and each lasts at least a day, so a
count of elapsed days has exactly one place in the table.
-/
namespace RelayRamp.Warmup

open RelayRamp.Text

structure PhaseLimits where
  maxPerHour : Nat
  maxPerDay : Nat
  burst : Nat
  deriving DecidableEq, Repr

structure WarmupPhase where
  number : Nat
  name : String
  durationDays : Nat
  limits : PhaseLimits
  deriving DecidableEq, Repr

/-- Changes to a phase; its number never changes. -/
structure PhasePatch where
  name : Option String
  durationDays : Option Nat
  maxPerHour : Option Nat
  maxPerDay : Option Nat
  burst : Option Nat
  deriving DecidableEq, Repr

namespace WarmupPhase

def maxNameLength : Nat := 128
def maxDurationDays : Nat := 3650

def patched (phase : WarmupPhase) (patch : PhasePatch) : WarmupPhase where
  number := phase.number
  name := patch.name.getD phase.name
  durationDays := patch.durationDays.getD phase.durationDays
  limits :=
    { maxPerHour := patch.maxPerHour.getD phase.limits.maxPerHour
      maxPerDay := patch.maxPerDay.getD phase.limits.maxPerDay
      burst := patch.burst.getD phase.limits.burst }

/-- The first thing wrong with the phase on its own. -/
def fault? (phase : WarmupPhase) : Option PhaseFault :=
  if (trimChars phase.name.toList).isEmpty then some .blankName
  else if octets phase.name > maxNameLength then some .longName
  else if phase.durationDays = 0 then some .zeroDuration
  else if phase.durationDays > maxDurationDays then some .longDuration
  else none

end WarmupPhase

/-- The first fault of phases that should be numbered from the given number on. -/
def firstFault? : Nat → List WarmupPhase → Option ValidationFault
  | _, [] => none
  | expected, phase :: rest =>
    if phase.number ≠ expected then some (.phaseTable (.gap expected phase.number))
    else
      match phase.fault? with
      | some fault => some (.phase phase.number fault)
      | none => firstFault? (expected + 1) rest

structure PhaseTable where
  phases : List WarmupPhase
  nonempty : phases ≠ []
  sound : firstFault? 0 phases = none
  deriving DecidableEq

/-- Where a count of elapsed days lies; established once every phase has passed. -/
structure PhasePosition where
  index : Nat
  established : Bool
  deriving DecidableEq, Repr

namespace PhaseTable

def maxPhases : Nat := 64

/-- Builds a table from phases in any order. -/
def ofPhases (phases : List WarmupPhase) : Except ValidationFault PhaseTable :=
  if phases.isEmpty then .error (.phaseTable .empty)
  else if phases.length > maxPhases then .error (.phaseTable (.tooMany maxPhases))
  else
    let sorted := phases.mergeSort (·.number ≤ ·.number)
    match found : firstFault? 0 sorted with
    | some fault => .error fault
    | none => if full : sorted ≠ [] then .ok ⟨sorted, full, found⟩ else .error (.phaseTable .empty)

def get? (table : PhaseTable) (number : Nat) : Option WarmupPhase := table.phases[number]?

/-- The last phase; its limits hold once the warmup is over. -/
def last (table : PhaseTable) : WarmupPhase := table.phases.getLast table.nonempty

/-- The days that phases last together. -/
def daysOf : List WarmupPhase → Nat
  | [] => 0
  | phase :: rest => phase.durationDays + daysOf rest

def totalDays (table : PhaseTable) : Nat := daysOf table.phases

/-- Days from the start of the warmup to the start of the phase. -/
def daysBefore (table : PhaseTable) (number : Nat) : Nat :=
  daysOf (table.phases.takeWhile (·.number < number))

/-- The place of elapsed days among phases that start at an index, after some days. -/
def place (days : Nat) : Nat → Nat → List WarmupPhase → Option Nat
  | _, _, [] => none
  | index, before, phase :: rest =>
    if days < before + phase.durationDays then some index
    else place days (index + 1) (before + phase.durationDays) rest

def position (table : PhaseTable) (days : Nat) : PhasePosition :=
  match place days 0 0 table.phases with
  | some index => ⟨index, false⟩
  | none => ⟨table.phases.length - 1, true⟩

/-- The phase that is active after so many days. -/
def active (table : PhaseTable) (days : Nat) : WarmupPhase :=
  (table.phases[(table.position days).index]?).getD table.last

/-- The table with one phase changed. -/
def withPatch (table : PhaseTable) (number : Nat) (patch : PhasePatch) :
    Except ValidationFault PhaseTable :=
  match table.get? number with
  | none => .error (.phase number .missing)
  | some current =>
    ofPhases (table.phases.map fun phase =>
      if phase.number = number then current.patched patch else phase)

end PhaseTable

end RelayRamp.Warmup
