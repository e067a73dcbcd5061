import RelayRamp.Proofs.Store.Effects

/-!
# What a store holds

A store is faithful to its contents when it answers with them, and when a call that fails, or finds nothing to write
to, leaves them alone. What a write leaves behind is the store's own affair: one in tables keeps instants to the
millisecond. The stores in memory and in tables are faithful, and so is any faithful store whose calls are made to
fail.
-/
namespace RelayRamp.Store

open RelayRamp.Routing RelayRamp.Warmup

/-- What a store holds besides the counters. -/
structure Contents where
  config : Option WarmupConfig
  phases : List WarmupPhase
  rules : List TransportRule

/-- What an answer says about the contents before and after the call. -/
def StoreCall.Answers {α : Type} : StoreCall α → α → Contents → Contents → Prop
  | loadConfig, config, before, after => config = before.config ∧ after = before
  | loadPhases, phases, before, after => phases = before.phases ∧ after = before
  | listRules, rules, before, after => rules = before.rules ∧ after = before
  | updateRule _, found, before, after => found = false → after = before
  | deleteRule _, found, before, after => found = false → after = before
  | loadCounters, _, before, after => after = before
  | saveCounters _, _, before, after => after = before
  | _, _, _, _ => True

/-- The calls of a store either take place or fail without effect, and its answers are what it holds. -/
structure Faithful {σ : Type} [ThrottleStore σ] (valid : σ → Prop) (contents : σ → Contents) : Prop where
  valid_call {α : Type} (c : StoreCall α) {s : σ} : valid s → valid (ThrottleStore.call c s).2
  fault {α : Type} (c : StoreCall α) {s : σ} {fault : StoreFault} : valid s →
    (ThrottleStore.call c s).1 = .error fault → contents (ThrottleStore.call c s).2 = contents s
  answer {α : Type} (c : StoreCall α) {s : σ} {a : α} : valid s →
    (ThrottleStore.call c s).1 = .ok a → c.Answers a (contents s) (contents (ThrottleStore.call c s).2)

/-! ### Stores in memory and in tables -/

namespace MemoryStore

def contents (s : MemoryStore) : Contents := ⟨s.config, s.phases, s.rules⟩

theorem answer_answers {α : Type} (s : MemoryStore) (c : StoreCall α) {a : α} (ok : (s.answer c).1 = .ok a) :
    c.Answers a s.contents (s.answer c).2.contents := by
  have kept (missed : c.missed a = true) : (s.answer c).2.contents = s.contents := by
    refine congrArg contents (answer_vain fun b answered => Or.inr ?_)
    cases ok.symm.trans answered
    exact missed
  cases c with
  | loadConfig | loadPhases | listRules =>
    cases ok
    exact ⟨rfl, rfl⟩
  | loadCounters | saveCounters _ => exact rfl
  | saveConfig _ | replacePhases _ | insertRule _ => trivial
  | updateRule _ | deleteRule _ =>
    rintro rfl
    exact kept rfl

theorem faithful : Faithful (fun _ => True) MemoryStore.contents where
  valid_call _ _ := id
  fault _ _ _ _ failed := congrArg contents (call_vain fun _ ok => nomatch failed.symm.trans ok)
  answer c s a _ ok := by
    simp only [ThrottleStore.call, call] at ok ⊢
    split
    · rename_i off
      rw [if_pos off] at ok
      cases ok
    · rename_i on
      rw [if_neg on] at ok
      exact answer_answers s c ok

end MemoryStore

namespace DurableStore

/-- What the tables hold, as far as it can be read. -/
def contents (s : DurableStore) : Contents where
  config := s.config.bind (·.toConfig.toOption)
  phases := (s.phases.mapM PhaseRow.toPhase).toOption.getD []
  rules := (s.rules.mapM RuleRow.toRule).toOption.getD []

theorem attempt_answers {α : Type} {s s' : DurableStore} {c : StoreCall α} {a : α}
    (ok : s.attempt c = .ok (a, s')) : c.Answers a s.contents s'.contents := by
  cases c with
  | loadConfig =>
    simp only [attempt] at ok
    split at ok
    · rename_i absent
      cases ok
      simp [StoreCall.Answers, contents, absent]
    · rename_i row present
      obtain ⟨config, read, same⟩ := ok_of_bind ok
      cases same
      simp [StoreCall.Answers, contents, present, read, Except.toOption]
  | loadPhases =>
    obtain ⟨phases, read, same⟩ := ok_of_bind ok
    cases same
    simp [StoreCall.Answers, contents, read, Except.toOption]
  | listRules =>
    obtain ⟨rules, read, same⟩ := ok_of_bind ok
    cases same
    simp [StoreCall.Answers, contents, read, Except.toOption]
  | loadCounters =>
    obtain ⟨buckets, -, same⟩ := ok_of_bind ok
    cases same
    exact rfl
  | saveCounters buckets =>
    obtain ⟨rows, -, same⟩ := ok_of_bind ok
    cases same
    exact rfl
  | saveConfig _ | replacePhases _ | insertRule _ => trivial
  | updateRule _ | deleteRule _ =>
    rintro rfl
    exact congrArg contents (attempt_vain (Or.inr rfl) ok)

theorem faithful : Faithful (fun _ => True) DurableStore.contents where
  valid_call _ _ := id
  fault _ _ _ _ failed := congrArg contents (call_vain fun _ ok => nomatch failed.symm.trans ok)
  answer _ _ _ _ ok := by
    obtain ⟨s', done, left⟩ := call_ok ok
    exact left ▸ attempt_answers done

end DurableStore

namespace Backing

def contents : Backing → Contents
  | memory store => store.contents
  | durable store => store.contents

theorem faithful : Faithful (fun _ => True) Backing.contents where
  valid_call _ _ := id
  fault c s _ valid failed := by
    cases s with
    | memory store => exact MemoryStore.faithful.fault c valid failed
    | durable store => exact DurableStore.faithful.fault c valid failed
  answer c s _ valid ok := by
    cases s with
    | memory store => exact MemoryStore.faithful.answer c valid ok
    | durable store => exact DurableStore.faithful.answer c valid ok

end Backing

/-! ### Stores that fail -/

/-- A store whose calls fail as planned: for each call to come there is the fault that it ends with, or none. After
the plan no call fails any more. -/
structure PlannedStore (σ : Type) where
  inner : σ
  plan : List (Option StoreFault)

namespace PlannedStore

variable {σ : Type} [ThrottleStore σ]

def call {α : Type} (s : PlannedStore σ) (c : StoreCall α) : Except StoreFault α × PlannedStore σ :=
  match s.plan with
  | some fault :: rest => (.error fault, { s with plan := rest })
  | _ :: rest => ((ThrottleStore.call c s.inner).1, ⟨(ThrottleStore.call c s.inner).2, rest⟩)
  | [] => ((ThrottleStore.call c s.inner).1, ⟨(ThrottleStore.call c s.inner).2, []⟩)

instance : ThrottleStore (PlannedStore σ) := ⟨fun c s => s.call c⟩

theorem call_cases {α : Type} (s : PlannedStore σ) (c : StoreCall α) :
    (∃ fault, (ThrottleStore.call c s).1 = .error fault ∧ (ThrottleStore.call c s).2.inner = s.inner) ∨
    (ThrottleStore.call c s).1 = (ThrottleStore.call c s.inner).1 ∧
      (ThrottleStore.call c s).2.inner = (ThrottleStore.call c s.inner).2 := by
  rcases s with ⟨inner, _ | ⟨_ | fault, rest⟩⟩
  · exact Or.inr ⟨rfl, rfl⟩
  · exact Or.inr ⟨rfl, rfl⟩
  · exact Or.inl ⟨fault, rfl, rfl⟩

/-- What a call of the inner store keeps, a call that may be made to fail keeps. -/
theorem call_inner {P : σ → Prop} {s : PlannedStore σ} {α : Type} (c : StoreCall α) (before : P s.inner)
    (after : P (ThrottleStore.call c s.inner).2) : P (ThrottleStore.call c s).2.inner := by
  rcases s.call_cases c with ⟨fault, -, same⟩ | ⟨-, passed⟩
  · rwa [same]
  · rwa [passed]

/-- Whatever the plan, the store is faithful. -/
theorem faithful {valid : σ → Prop} {contents : σ → Contents} (h : Faithful valid contents) :
    Faithful (fun s : PlannedStore σ => valid s.inner) fun s => contents s.inner where
  valid_call c _ sound := call_inner c sound (h.valid_call c sound)
  fault c s _ sound failed := by
    rcases s.call_cases c with ⟨fault, -, same⟩ | ⟨answer, passed⟩
    · rw [same]
    · rw [passed]
      exact h.fault c sound (answer ▸ failed)
  answer c s a sound ok := by
    rcases s.call_cases c with ⟨fault, failed, -⟩ | ⟨answer, passed⟩
    · rw [failed] at ok
      cases ok
    · rw [passed]
      exact h.answer c sound (answer ▸ ok)

end PlannedStore

end RelayRamp.Store
