import RelayRamp.Store.Backing

/-!
# What a call does to a store

A call that fails, that reads, or that finds nothing to write to leaves the store exactly as it was, counters and ids
included. A call that writes changes one part of the store.
-/
namespace RelayRamp.Store

open RelayRamp.Routing RelayRamp.Warmup

theorem ok_of_bind {ε α β : Type} {x : Except ε α} {f : α → Except ε β} {b : β} (ok : x >>= f = .ok b) :
    ∃ a, x = .ok a ∧ f a = .ok b := by
  cases x with
  | error _ => cases ok
  | ok a => exact ⟨a, rfl, ok⟩

theorem ok_of_toOption {ε α : Type} {x : Except ε α} {a : α} (some : x.toOption = .some a) : x = .ok a := by
  cases x with
  | error _ => cases some
  | ok b => exact congrArg _ (Option.some.inj some)

theorem ok_bind {ε α β : Type} (a : α) (f : α → Except ε β) : (Except.ok a >>= f) = f a := rfl

section

variable {ε α β : Type} {f : α → Except ε β} {l : List α} {results : List β}

/-- Of a list that went through, each entry did. -/
theorem map_of_mapM (done : l.mapM f = .ok results) : l.map f = results.map .ok := by
  induction l generalizing results with
  | nil =>
    cases done
    rfl
  | cons a rest ih =>
    rw [List.mapM_cons] at done
    obtain ⟨b, first, done⟩ := ok_of_bind done
    obtain ⟨others, later, same⟩ := ok_of_bind done
    cases same
    rw [List.map_cons, first, ih later, List.map_cons]

theorem mem_of_mapM (done : l.mapM f = .ok results) (b : β) : b ∈ results ↔ ∃ a ∈ l, f a = .ok b := by
  have member : b ∈ results ↔ .ok b ∈ l.map f := by
    rw [map_of_mapM done]
    simp
  rw [member, List.mem_map]

theorem ok_of_mapM (done : l.mapM f = .ok results) {a : α} (member : a ∈ l) : ∃ b, f a = .ok b := by
  have present : f a ∈ results.map .ok := map_of_mapM done ▸ List.mem_map_of_mem member
  obtain ⟨b, -, same⟩ := List.mem_map.mp present
  exact ⟨b, same.symm⟩

theorem mapM_ok {g : α → β} (each : ∀ a ∈ l, f a = .ok (g a)) : l.mapM f = .ok (l.map g) := by
  induction l with
  | nil => rfl
  | cons a rest ih =>
    obtain ⟨first, others⟩ := List.forall_mem_cons.mp each
    rw [List.mapM_cons, first, ih others]
    rfl

theorem exists_mapM (each : ∀ a ∈ l, ∃ b, f a = .ok b) : ∃ results, l.mapM f = .ok results := by
  induction l with
  | nil => exact ⟨[], rfl⟩
  | cons a rest ih =>
    obtain ⟨⟨b, first⟩, others⟩ := List.forall_mem_cons.mp each
    obtain ⟨results, done⟩ := ih others
    rw [List.mapM_cons, first, done]
    exact ⟨b :: results, rfl⟩

/-- What was written entry by entry is read back entry by entry. -/
theorem mapM_written {write : α → β} {read : β → Except ε α} (reads : ∀ a ∈ l, read (write a) = .ok a) :
    (l.map write).mapM read = .ok l := by
  have each : (l.map write).mapM read = l.mapM fun a => read (write a) := List.mapM_map
  rw [each, mapM_ok reads, List.map_id']

end

/-- The call asks for what is stored. -/
def StoreCall.isRead {α : Type} : StoreCall α → Bool
  | loadConfig | loadPhases | listRules | loadCounters => true
  | _ => false

/-- The answer says that there was nothing to write to. -/
def StoreCall.missed {α : Type} : StoreCall α → α → Bool
  | updateRule _, found => !found
  | deleteRule _, found => !found
  | _, _ => false

/-- The call has not written: it failed, it reads, or there was nothing to write to. -/
def StoreCall.Vain {α : Type} (c : StoreCall α) (answer : Except StoreFault α) : Prop :=
  ∀ a, answer = .ok a → c.isRead = true ∨ c.missed a = true

/-! ### The store in memory -/

namespace MemoryStore

variable {s : MemoryStore}

theorem insertRule_cases (s : MemoryStore) (draft : RuleDraft) :
    (∃ fault, s.answer (.insertRule draft) = (.error fault, s)) ∨
    ∃ id, s.answer (.insertRule draft) =
      (.ok (draft.withId id), { s with rules := s.rules ++ [draft.withId id], lastRuleId := id }) := by
  simp only [answer]
  split
  · exact Or.inl ⟨_, rfl⟩
  · exact Or.inr ⟨_, rfl⟩

theorem updateRule_cases (s : MemoryStore) (rule : TransportRule) :
    (∃ fault, s.answer (.updateRule rule) = (.error fault, s)) ∨ s.answer (.updateRule rule) = (.ok false, s) ∨
    s.answer (.updateRule rule) =
      (.ok true, { s with rules := s.rules.map fun other => if other.id = rule.id then rule else other }) := by
  simp only [answer]
  split
  · exact Or.inr (Or.inl rfl)
  · split
    · exact Or.inl ⟨_, rfl⟩
    · exact Or.inr (Or.inr rfl)

theorem answer_vain {α : Type} {c : StoreCall α} (vain : c.Vain (s.answer c).1) : (s.answer c).2 = s := by
  cases c with
  | insertRule draft =>
    rcases s.insertRule_cases draft with ⟨fault, failed⟩ | ⟨id, done⟩
    · rw [failed]
    · rw [done] at vain
      simpa [StoreCall.isRead, StoreCall.missed] using vain _ rfl
  | updateRule rule =>
    rcases s.updateRule_cases rule with ⟨fault, failed⟩ | missed | done
    · rw [failed]
    · rw [missed]
    · rw [done] at vain
      simpa [StoreCall.isRead, StoreCall.missed] using vain _ rfl
  | deleteRule id =>
    have absent := vain _ rfl
    simp only [StoreCall.isRead, StoreCall.missed, Bool.false_eq_true, false_or, Bool.not_eq_true',
      List.any_eq_false, decide_eq_true_eq] at absent
    have kept : s.rules.filter (·.id ≠ id) = s.rules := by
      rw [List.filter_eq_self]
      simpa using absent
    simp only [answer, kept]
  | loadConfig | loadPhases | listRules | loadCounters => rfl
  | saveConfig _ | replacePhases _ | saveCounters _ =>
    simpa [StoreCall.isRead, StoreCall.missed] using vain _ rfl

/-- A store that is on answers. -/
theorem call_on (on : s.offline = false) {α : Type} (c : StoreCall α) : s.call c = s.answer c := by
  rw [call, on]
  rfl

theorem on_of_ok {α : Type} {c : StoreCall α} {a : α} (ok : (s.call c).1 = .ok a) : s.offline = false := by
  unfold call at ok
  split at ok
  · cases ok
  · rename_i on
    exact Bool.eq_false_iff.mpr on

theorem call_vain {α : Type} {c : StoreCall α} (vain : c.Vain (s.call c).1) : (s.call c).2 = s := by
  unfold call at vain ⊢
  split
  · rfl
  · rename_i on
    rw [if_neg on] at vain
    exact answer_vain vain

/-- What a call of the kind has not to do with stays. -/
structure Confines (kind : CallKind) (s t : MemoryStore) : Prop where
  config : kind ≠ .saveConfig → t.config = s.config
  phases : kind ≠ .replacePhases → t.phases = s.phases
  buckets : kind ≠ .saveCounters → t.buckets = s.buckets
  offline : t.offline = s.offline

theorem Confines.refl (kind : CallKind) (s : MemoryStore) : Confines kind s s :=
  ⟨fun _ => rfl, fun _ => rfl, fun _ => rfl, rfl⟩

theorem call_confines {α : Type} (s : MemoryStore) (c : StoreCall α) : Confines c.kind s (s.call c).2 := by
  unfold call
  split
  · exact .refl _ s
  · cases c with
    | insertRule draft =>
      rcases s.insertRule_cases draft with ⟨fault, failed⟩ | ⟨id, done⟩
      · rw [failed]
        exact .refl _ s
      · rw [done]
        exact ⟨fun _ => rfl, fun _ => rfl, fun _ => rfl, rfl⟩
    | updateRule rule =>
      rcases s.updateRule_cases rule with ⟨fault, failed⟩ | missed | done
      · rw [failed]
        exact .refl _ s
      · rw [missed]
        exact .refl _ s
      · rw [done]
        exact ⟨fun _ => rfl, fun _ => rfl, fun _ => rfl, rfl⟩
    | deleteRule => exact ⟨fun _ => rfl, fun _ => rfl, fun _ => rfl, rfl⟩
    | saveConfig => exact ⟨fun other => absurd rfl other, fun _ => rfl, fun _ => rfl, rfl⟩
    | replacePhases => exact ⟨fun _ => rfl, fun other => absurd rfl other, fun _ => rfl, rfl⟩
    | saveCounters => exact ⟨fun _ => rfl, fun _ => rfl, fun other => absurd rfl other, rfl⟩
    | loadConfig | loadPhases | listRules | loadCounters => exact .refl _ s

end MemoryStore

/-! ### The store in tables -/

namespace DurableStore

variable {s s' : DurableStore}

theorem insertRule_ok {draft : RuleDraft} {rule : TransportRule} (ok : s.insertRule draft = .ok (rule, s')) :
    ∃ id, s' = { s with rules := s.rules ++ [.ofDraft id draft], lastRuleId := id } := by
  dsimp only [insertRule] at ok
  by_cases full : s.rules.foldl (fun m r => max m r.id) s.lastRuleId ≥ maxRuleId
  · rw [if_pos full] at ok
    cases ok
  · rw [if_neg full] at ok
    split at ok
    · cases ok
    · cases ok
      exact ⟨_, rfl⟩

theorem updateRule_ok {rule : TransportRule} {found : Bool} (ok : s.updateRule rule = .ok (found, s')) :
    found = false ∧ s' = s ∨ found = true ∧ ∃ id,
      s' = { s with rules := s.rules.map fun r => if r.id = id then .ofDraft id rule.toRuleDraft else r } := by
  obtain ⟨id, -, ok⟩ := ok_of_bind ok
  split at ok
  · cases ok
    exact Or.inl ⟨rfl, rfl⟩
  · split at ok
    · cases ok
    · cases ok
      exact Or.inr ⟨rfl, id, rfl⟩

theorem deleteRule_ok {id : Nat} {found : Bool} (ok : s.deleteRule id = .ok (found, s')) :
    (found = false → s' = s) ∧ ∃ id, s' = { s with rules := s.rules.filter (·.id ≠ id) } := by
  obtain ⟨id, -, same⟩ := ok_of_bind ok
  obtain ⟨rfl, rfl⟩ := Prod.mk.inj (Except.ok.inj same)
  refine ⟨fun absent => ?_, id, rfl⟩
  have kept : s.rules.filter (·.id ≠ id) = s.rules := by
    rw [List.filter_eq_self]
    simpa using absent
  rw [kept]

theorem call_ok {α : Type} {c : StoreCall α} {a : α} (ok : (s.call c).1 = .ok a) :
    ∃ s', s.attempt c = .ok (a, s') ∧ (s.call c).2 = s' := by
  unfold call at ok ⊢
  split at ok
  · rename_i done
    cases ok
    exact ⟨_, done, rfl⟩
  · cases ok

theorem attempt_read {α : Type} {c : StoreCall α} {a : α} (read : c.isRead = true)
    (done : s.attempt c = .ok (a, s')) : s' = s := by
  cases c with
  | loadConfig =>
    simp only [attempt] at done
    split at done
    · cases done
      rfl
    · obtain ⟨config, -, same⟩ := ok_of_bind done
      cases same
      rfl
  | loadPhases | listRules | loadCounters =>
    obtain ⟨_, -, same⟩ := ok_of_bind done
    cases same
    rfl
  | _ => cases read

theorem attempt_vain {α : Type} {c : StoreCall α} {a : α} (vain : c.isRead = true ∨ c.missed a = true)
    (done : s.attempt c = .ok (a, s')) : s' = s := by
  rcases vain with read | missed
  · exact attempt_read read done
  · cases c with
    | updateRule rule =>
      rcases updateRule_ok done with ⟨-, same⟩ | ⟨rfl, -⟩
      · exact same
      · cases missed
    | deleteRule id => exact (deleteRule_ok done).1 (by simpa [StoreCall.missed] using missed)
    | _ => cases missed

theorem call_vain {α : Type} {c : StoreCall α} (vain : c.Vain (s.call c).1) : (s.call c).2 = s := by
  unfold call at vain ⊢
  split
  · rename_i a s' done
    rw [done] at vain
    exact attempt_vain (vain a rfl) done
  · rfl

/-- What a call of the kind has not to do with stays. -/
structure Confines (kind : CallKind) (s t : DurableStore) : Prop where
  config : kind ≠ .saveConfig → t.config = s.config
  phases : kind ≠ .replacePhases → t.phases = s.phases
  counters : kind ≠ .saveCounters → t.counters = s.counters

theorem Confines.refl (kind : CallKind) (s : DurableStore) : Confines kind s s :=
  ⟨fun _ => rfl, fun _ => rfl, fun _ => rfl⟩

theorem call_confines {α : Type} (s : DurableStore) (c : StoreCall α) : Confines c.kind s (s.call c).2 := by
  unfold call
  split
  · rename_i a s' done
    cases c with
    | saveConfig config =>
      cases done
      exact ⟨fun other => absurd rfl other, fun _ => rfl, fun _ => rfl⟩
    | replacePhases phases =>
      obtain ⟨rows, -, same⟩ := ok_of_bind done
      cases same
      exact ⟨fun _ => rfl, fun other => absurd rfl other, fun _ => rfl⟩
    | saveCounters buckets =>
      obtain ⟨rows, -, same⟩ := ok_of_bind done
      cases same
      exact ⟨fun _ => rfl, fun _ => rfl, fun other => absurd rfl other⟩
    | insertRule draft =>
      obtain ⟨id, rfl⟩ := insertRule_ok done
      exact ⟨fun _ => rfl, fun _ => rfl, fun _ => rfl⟩
    | updateRule rule =>
      rcases updateRule_ok done with ⟨-, rfl⟩ | ⟨-, id, rfl⟩
      · exact .refl _ _
      · exact ⟨fun _ => rfl, fun _ => rfl, fun _ => rfl⟩
    | deleteRule id =>
      obtain ⟨-, id, rfl⟩ := deleteRule_ok done
      exact ⟨fun _ => rfl, fun _ => rfl, fun _ => rfl⟩
    | loadConfig | loadPhases | listRules | loadCounters =>
      rw [attempt_read rfl done]
      exact .refl _ s
  · exact .refl _ s

end DurableStore

/-! ### Either store -/

namespace Backing

theorem call_memory {α : Type} {store store' : MemoryStore} {c : StoreCall α} {answer : Except StoreFault α}
    (done : store.call c = (answer, store')) : (memory store).call c = (answer, memory store') := by
  rw [call, done]
  rfl

theorem call_durable {α : Type} {store store' : DurableStore} {c : StoreCall α} {answer : Except StoreFault α}
    (done : store.call c = (answer, store')) : (durable store).call c = (answer, durable store') := by
  rw [call, done]
  rfl

theorem call_vain {α : Type} {s : Backing} {c : StoreCall α} (vain : c.Vain (s.call c).1) : (s.call c).2 = s := by
  cases s with
  | memory store => exact congrArg memory (MemoryStore.call_vain vain)
  | durable store => exact congrArg durable (DurableStore.call_vain vain)

/-- What is read, or not found, is answered by the store as it is. -/
theorem call_of_vain {α : Type} {s : Backing} {c : StoreCall α} {a : α} (answer : (s.call c).1 = .ok a)
    (vain : c.isRead = true ∨ c.missed a = true) : s.call c = (.ok a, s) := by
  refine Prod.ext answer (call_vain fun b ok => ?_)
  cases answer.symm.trans ok
  exact vain

end Backing

end RelayRamp.Store
