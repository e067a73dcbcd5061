import RelayRamp.Store.Call

/-!
# A store in memory

Phases are kept by number, rules by id, and counter buckets by kind and start. The store can be switched off;
every call then fails and changes nothing.
-/
namespace RelayRamp.Store

open RelayRamp.Routing RelayRamp.Time RelayRamp.Warmup

structure MemoryStore where
  config : Option WarmupConfig
  phases : List WarmupPhase
  rules : List TransportRule
  lastRuleId : Nat
  buckets : List CounterBucket
  offline : Bool
  deriving DecidableEq, Repr

namespace MemoryStore

def empty : MemoryStore := ⟨none, [], [], 0, [], false⟩

/-- Puts a phase in its place by number; it replaces the phase of the same number. -/
def putPhase (phase : WarmupPhase) : List WarmupPhase → List WarmupPhase
  | [] => [phase]
  | p :: rest =>
    if p.number = phase.number then phase :: rest
    else if phase.number < p.number then phase :: p :: rest
    else p :: putPhase phase rest

def duplicate (pattern : String) : StoreFault :=
  ⟨.conflict, s!"domain pattern `{pattern}` already exists"⟩

/-- Buckets are ordered by the label of their kind, then by start. -/
def bucketBefore (a b : CounterBucket) : Bool :=
  a.kind.label < b.kind.label
    || (a.kind == b.kind && a.windowStart.instant.millis < b.windowStart.instant.millis)

/-- The same kind and the same start in milliseconds. -/
def sameWindow (a b : CounterBucket) : Bool :=
  a.kind == b.kind && a.windowStart.instant.millis == b.windowStart.instant.millis

/-- Puts a bucket in its place; it replaces the bucket of the same window. -/
def putBucket (bucket : CounterBucket) : List CounterBucket → List CounterBucket
  | [] => [bucket]
  | b :: rest =>
    if sameWindow b bucket then bucket :: rest
    else if bucketBefore bucket b then bucket :: b :: rest
    else b :: putBucket bucket rest

/-- Takes out the older buckets of the kind and puts the bucket in. -/
def saveBucket (buckets : List CounterBucket) (bucket : CounterBucket) : List CounterBucket :=
  let start := bucket.windowStart.instant.millis
  putBucket bucket (buckets.filter fun b =>
    b.kind != bucket.kind || start ≤ b.windowStart.instant.millis)

/-- The answer of a store that is on. -/
def answer (s : MemoryStore) : StoreCall α → Except StoreFault α × MemoryStore
  | .loadConfig => (.ok s.config, s)
  | .saveConfig config => (.ok (), { s with config := some config })
  | .loadPhases => (.ok s.phases, s)
  | .replacePhases phases => (.ok (), { s with phases := phases.foldl (fun ps p => putPhase p ps) [] })
  | .listRules => (.ok s.rules, s)
  | .insertRule draft =>
    if s.rules.any (·.pattern = draft.pattern) then (.error (duplicate draft.pattern), s)
    else
      let rule := draft.withId (s.lastRuleId + 1)
      (.ok rule, { s with rules := s.rules ++ [rule], lastRuleId := s.lastRuleId + 1 })
  | .updateRule rule =>
    if !s.rules.any (·.id = rule.id) then (.ok false, s)
    else if s.rules.any fun other => other.id ≠ rule.id && other.pattern = rule.pattern then
      (.error (duplicate rule.pattern), s)
    else (.ok true, { s with rules := s.rules.map fun other => if other.id = rule.id then rule else other })
  | .deleteRule id =>
    (.ok (s.rules.any (·.id = id)), { s with rules := s.rules.filter (·.id ≠ id) })
  | .loadCounters => (.ok s.buckets, s)
  | .saveCounters buckets => (.ok (), { s with buckets := buckets.foldl saveBucket s.buckets })

def call (s : MemoryStore) (c : StoreCall α) : Except StoreFault α × MemoryStore :=
  if s.offline then (.error ⟨.io, "in-memory store offline"⟩, s) else s.answer c

end MemoryStore

instance : ThrottleStore MemoryStore := ⟨fun c s => s.call c⟩

end RelayRamp.Store
