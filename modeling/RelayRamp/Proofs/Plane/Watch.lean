import RelayRamp.Plane.Maintenance
import RelayRamp.Proofs.Plane.Calls

/-!
# Calls under watch

Whether the store fails while a call is made is told by a store that counts its failures. Watching changes nothing: a
call does the same over a watched store as over the store itself. So a call can be described by what it comes to
unless the store fails, step by step; a step at which the store has failed has to be watched, and no more.
-/
namespace RelayRamp.Store

/-- A store that counts the calls to it that fail. -/
structure WatchedStore (σ : Type) where
  inner : σ
  failures : Nat

namespace WatchedStore

variable {σ : Type} [ThrottleStore σ]

/-- The store answers; nothing of it depends on the count. -/
def call {α : Type} (s : WatchedStore σ) (c : StoreCall α) : Except StoreFault α × WatchedStore σ :=
  match ThrottleStore.call c s.inner with
  | (.ok a, inner) => (.ok a, ⟨inner, s.failures⟩)
  | (.error fault, inner) => (.error fault, ⟨inner, s.failures + 1⟩)

instance : ThrottleStore (WatchedStore σ) := ⟨fun c s => s.call c⟩

end WatchedStore

end RelayRamp.Store

namespace RelayRamp.Plane

open RelayRamp.Lease RelayRamp.Routing RelayRamp.Store RelayRamp.Time RelayRamp.Warmup

variable {σ α β : Type} {moment : Moment}

/-- The plane over its store under watch. -/
protected def watched (p : Plane σ) (failures : Nat) : Plane (WatchedStore σ) :=
  ⟨⟨p.store, failures⟩, p.snapshot, p.counters, p.pool, p.tallies, p.settings⟩

/-- The plane over the store that is watched. -/
protected def unwatched (p : Plane (WatchedStore σ)) : Plane σ :=
  ⟨p.store.inner, p.snapshot, p.counters, p.pool, p.tallies, p.settings⟩

/-- No call to the store fails while the call is made. -/
def Call.Unhindered (c : Call (WatchedStore σ) α) (moment : Moment) (p : Plane σ) : Prop :=
  (c.after moment (p.watched 0)).store.failures = 0

/-- What a call comes to over a watched store and over the store itself: to the same; failures only add up; and if
there was none the call succeeds with what is asserted, provided that it began well. -/
structure Agrees (failures : Nat) (P : Prop) (Q : α → Plane σ → Prop)
    (seen : Except PlaneFault α × Session (WatchedStore σ)) (done : Except PlaneFault α × Session σ) : Prop where
  same : done = (seen.1, ⟨seen.2.plane.unwatched, seen.2.effects⟩)
  counts : failures ≤ seen.2.plane.store.failures
  succeeds : P → seen.2.plane.store.failures = failures → ∃ a, seen.1 = .ok a ∧ Q a seen.2.plane.unwatched

namespace Call

/-- The two calls, the first over a watched store and the second over the store itself, agree. From a plane with the
first property they lead to a result and a plane with the second unless the store fails. -/
def Watched (moment : Moment) (P : Plane σ → Prop) (c : Call (WatchedStore σ) α) (d : Call σ α)
    (Q : α → Plane σ → Prop) : Prop :=
  ∀ p n effects, Agrees n (P p) Q (c.exec moment ⟨p.watched n, effects⟩) (d.exec moment ⟨p, effects⟩)

variable {P P' : Plane σ → Prop} {Q Q' : α → Plane σ → Prop} {R : β → Plane σ → Prop} {c : Call (WatchedStore σ) α}
  {d : Call σ α}

theorem Watched.mono (watched : Watched moment P c d Q) (first : ∀ p, P' p → P p) (last : ∀ a q, Q a q → Q' a q) :
    Watched moment P' c d Q' := fun p n effects =>
  let ⟨same, counts, succeeds⟩ := watched p n effects
  ⟨same, counts, fun begun none =>
    let ⟨a, ok, holds⟩ := succeeds (first p begun) none
    ⟨a, ok, last a _ holds⟩⟩

/-- Nothing is promised of a call that begins where none should. -/
theorem Watched.hopeless (watched : Watched moment P c d Q) : Watched moment (fun _ => False) c d Q' :=
  fun p n effects => ⟨(watched p n effects).same, (watched p n effects).counts, False.elim⟩

theorem Watched.bind {f : α → Call (WatchedStore σ) β} {g : α → Call σ β} (first : Watched moment P c d Q)
    (rest : ∀ a, Watched moment (Q a) (f a) (g a) R) : Watched moment P (c >>= f) (d >>= g) R := by
  intro p n effects
  obtain ⟨same, counts, succeeds⟩ := first p n effects
  rw [exec_bind, exec_bind, same]
  generalize c.exec moment ⟨p.watched n, effects⟩ = seen at counts succeeds
  obtain ⟨fault | a, t⟩ := seen
  · exact ⟨rfl, counts, fun begun none => nomatch (succeeds begun none).choose_spec.1⟩
  · obtain ⟨same', counts', succeeds'⟩ := rest a t.plane.unwatched t.plane.store.failures t.effects
    refine ⟨same', Nat.le_trans counts counts', fun begun none => ?_⟩
    -- The count at the end is the one at the beginning, so it is the one in between, too.
    have between : t.plane.store.failures = n := Nat.le_antisymm (none ▸ counts') counts
    obtain ⟨b, ok, holds⟩ := succeeds begun between
    cases ok
    exact succeeds' holds (none.trans between.symm)

theorem Watched.tryCatch {f : PlaneFault → Call (WatchedStore σ) α} {g : PlaneFault → Call σ α}
    (first : Watched moment P c d Q) (rest : ∀ fault, Watched moment (fun _ => False) (f fault) (g fault) Q) :
    Watched moment P (tryCatch c f) (tryCatch d g) Q := by
  intro p n effects
  obtain ⟨same, counts, succeeds⟩ := first p n effects
  rw [exec_tryCatch, exec_tryCatch, same]
  generalize c.exec moment ⟨p.watched n, effects⟩ = seen at counts succeeds
  obtain ⟨fault | a, t⟩ := seen
  · obtain ⟨same', counts', -⟩ := rest fault t.plane.unwatched t.plane.store.failures t.effects
    refine ⟨same', Nat.le_trans counts counts', fun begun none => ?_⟩
    have between : t.plane.store.failures = n := Nat.le_antisymm (none ▸ counts') counts
    exact nomatch (succeeds begun between).choose_spec.1
  · exact ⟨rfl, counts, succeeds⟩

theorem watched_pure {a : α} (holds : ∀ p, P p → Q a p) : Watched moment P (pure a) (pure a) Q :=
  fun p _ _ => ⟨rfl, Nat.le_refl _, fun begun _ => ⟨a, rfl, holds p begun⟩⟩

theorem watched_throw (fault : PlaneFault) (never : ∀ p, ¬ P p) : Watched moment P (throw fault) (throw fault) Q :=
  fun p _ _ => ⟨rfl, Nat.le_refl _, fun begun _ => absurd begun (never p)⟩

theorem watched_ite {b : Prop} [Decidable b] {c' : Call (WatchedStore σ) α} {d' : Call σ α}
    (yes : b → Watched moment P c d Q) (no : ¬ b → Watched moment P c' d' Q) :
    Watched moment P (if b then c else c') (if b then d else d') Q := by
  by_cases holds : b
  · rw [if_pos holds, if_pos holds]
    exact yes holds
  · rw [if_neg holds, if_neg holds]
    exact no holds

theorem watched_affect (effects : Effects) : Watched moment P (affect effects) (affect effects) fun _ => P :=
  fun _ _ _ => ⟨rfl, Nat.le_refl _, fun begun _ => ⟨(), rfl, begun⟩⟩

theorem watched_plane_bind {f : Plane (WatchedStore σ) → Call (WatchedStore σ) β} {g : Plane σ → Call σ β}
    (rest : ∀ p n, Watched moment (fun q => P q ∧ q = p) (f (p.watched n)) (g p) R) :
    Watched moment P (plane >>= f) (plane >>= g) R := by
  intro p n effects
  rw [exec_bind, exec_bind]
  obtain ⟨same, counts, succeeds⟩ := rest p n p n effects
  exact ⟨same, counts, fun begun => succeeds ⟨begun, rfl⟩⟩

theorem watched_wallNow_bind {f : Instant → Call (WatchedStore σ) β} {g : Instant → Call σ β}
    (rest : Watched moment P (f moment.wall) (g moment.wall) R) :
    Watched moment P (wallNow >>= f) (wallNow >>= g) R := by
  intro p n effects
  rw [exec_bind, exec_bind]
  exact rest p n effects

theorem watched_read_bind {f : Moment → Call (WatchedStore σ) β} {g : Moment → Call σ β}
    (rest : Watched moment P (f moment) (g moment) R) : Watched moment P (read >>= f) (read >>= g) R := by
  intro p n effects
  rw [exec_bind, exec_bind]
  exact rest p n effects

/-- The plane is changed in the same way whether its store is watched or not. -/
theorem watched_setPlane {f : Plane (WatchedStore σ) → Plane (WatchedStore σ)} {g : Plane σ → Plane σ}
    {Q : Unit → Plane σ → Prop} (alike : ∀ p n, f (p.watched n) = (g p).watched n) (holds : ∀ p, P p → Q () (g p)) :
    Watched moment P (setPlane f) (setPlane g) Q := by
  intro p n effects
  have seen : (setPlane f).exec moment ⟨p.watched n, effects⟩ = (.ok (), ⟨(g p).watched n, effects⟩) := by
    rw [← alike]
    rfl
  rw [seen]
  exact ⟨rfl, Nat.le_refl _, fun begun _ => ⟨(), rfl, holds p begun⟩⟩

theorem watched_orInvalid {r : Except ValidationFault α} (valid : ∀ p, P p → ∃ a, r = .ok a ∧ Q a p) :
    Watched moment P (orInvalid r) (orInvalid r) Q := by
  cases r with
  | ok a =>
    refine watched_pure fun p begun => ?_
    obtain ⟨b, same, holds⟩ := valid p begun
    cases same
    exact holds
  | error fault => exact watched_throw _ fun p begun => nomatch (valid p begun).choose_spec.1

theorem watched_forM {f : β → Call (WatchedStore σ) Unit} {g : β → Call σ Unit} :
    ∀ l : List β, (∀ b ∈ l, Watched moment P (f b) (g b) fun _ => P) →
      Watched moment P (l.forM f) (l.forM g) fun _ => P
  | [], _ => watched_pure fun _ => id
  | b :: rest, each => (each b (List.mem_cons_self ..)).bind fun _ =>
      watched_forM rest fun b member => each b (List.mem_cons_of_mem _ member)

/-- An answer of the store is a success unless the store fails. -/
theorem watched_ask [ThrottleStore σ] (s : StoreCall α)
    (answered : ∀ p a, P p → (ThrottleStore.call s p.store).1 = .ok a →
      Q a { p with store := (ThrottleStore.call s p.store).2 }) : Watched moment P (ask s) (ask s) Q := by
  intro p n effects
  rw [exec_ask, exec_ask]
  have answered := answered p
  change Agrees n (P p) Q ((WatchedStore.call ⟨p.store, n⟩ s).1.mapError .store,
    ⟨{ p.watched n with store := (WatchedStore.call ⟨p.store, n⟩ s).2 }, effects⟩) _
  unfold WatchedStore.call
  dsimp only
  generalize ThrottleStore.call s p.store = answer at answered
  obtain ⟨fault | a, store⟩ := answer
  · exact ⟨rfl, Nat.le_succ n, fun _ none => absurd none (Nat.succ_ne_self n)⟩
  · exact ⟨rfl, Nat.le_refl n, fun begun _ => ⟨a, rfl, answered a begun rfl⟩⟩

end Call

end RelayRamp.Plane
