import RelayRamp.Store.Call

/-!
# Stores that fail

A store around another one in which calls of chosen kinds are disrupted, always or for a number of times. A
disrupted call never reaches the inner store: it ends with a fault, or is answered as by an empty store.
-/
namespace RelayRamp.Store

structure Disruption where
  /-- The fault of the calls; without one they are answered as by an empty store. -/
  fault : Option StoreFault
  /-- The calls left to disrupt; without a number there is no end. -/
  remaining : Option Nat
  deriving DecidableEq, Repr

structure FailingStore (σ : Type) where
  inner : σ
  disruptions : List (CallKind × Disruption)

/-- What a store without content answers; it cannot invent an inserted rule. -/
def StoreCall.emptyAnswer : StoreCall α → Option α
  | loadConfig => some none
  | saveConfig _ => some ()
  | loadPhases => some []
  | replacePhases _ => some ()
  | listRules => some []
  | insertRule _ => none
  | updateRule _ => some false
  | deleteRule _ => some false
  | loadCounters => some []
  | saveCounters _ => some ()

namespace FailingStore

variable {σ : Type}

def sound (inner : σ) : FailingStore σ := ⟨inner, []⟩

/-- Disrupts the calls of a kind from now on, or no longer. -/
def disrupt (s : FailingStore σ) (kind : CallKind) (d : Option Disruption) : FailingStore σ :=
  let others := s.disruptions.filter (·.1 ≠ kind)
  { s with disruptions := match d with
    | none => others
    | some d => (kind, d) :: others }

/-- The disruption that the next call of a kind meets, and what is left of it. -/
def meet (s : FailingStore σ) (kind : CallKind) : Option (Option StoreFault × FailingStore σ) :=
  match s.disruptions.lookup kind with
  | none => none
  | some ⟨_, some 0⟩ => none
  | some ⟨fault, none⟩ => some (fault, s)
  | some ⟨fault, some (n + 1)⟩ => some (fault, s.disrupt kind (some ⟨fault, some n⟩))

/-- Asks the inner store. -/
def pass [ThrottleStore σ] (s : FailingStore σ) (c : StoreCall α) :
    Except StoreFault α × FailingStore σ :=
  let (answer, inner) := ThrottleStore.call c s.inner
  (answer, { s with inner })

def call [ThrottleStore σ] (s : FailingStore σ) (c : StoreCall α) :
    Except StoreFault α × FailingStore σ :=
  match s.meet c.kind with
  | none => s.pass c
  | some (some fault, s) => (.error fault, s)
  | some (none, s) =>
    match c.emptyAnswer with
    | some answer => (.ok answer, s)
    | none => s.pass c

end FailingStore

instance [ThrottleStore σ] : ThrottleStore (FailingStore σ) := ⟨fun c s => s.call c⟩

end RelayRamp.Store
