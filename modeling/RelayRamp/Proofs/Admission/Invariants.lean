import RelayRamp.Proofs.Admission.Restoring
import RelayRamp.Proofs.Admission.Volume
import RelayRamp.Proofs.Plane.Coherence

/-!
# What holds of every service

A service changes its store by calls alone, and its counters by advancing their windows. A property of planes that
outlives both, and that does not depend on the snapshot, the leases and the tallies, holds throughout a service once
it holds when the plane is opened.
-/
namespace RelayRamp.Plane

open RelayRamp.Admission RelayRamp.Store RelayRamp.Time

variable {σ : Type}

/-- Nothing was asked of the store, the settings are the same and the windows have at most advanced. -/
structure Touches (now : Instant) (p q : Plane σ) : Prop where
  store : q.store = p.store
  settings : q.settings = p.settings
  counters : p.counters.Advances now q.counters

/-- The property outlives whatever a service does up to an instant. -/
structure Invariant [ThrottleStore σ] (t : Instant) (I : Plane σ → Prop) : Prop where
  touched {now : Instant} {p q : Plane σ} : now ≤ t → Touches now p q → I p → I q
  asked {p : Plane σ} {α : Type} (s : StoreCall α) : s.Vetted → I p → I (p.asked s)
  saved {p : Plane σ} : I p → I (p.asked (.saveCounters p.counters.buckets))

theorem touches_same {now : Instant} {p q : Plane σ} (store : q.store = p.store) (settings : q.settings = p.settings)
    (counters : q.counters = p.counters) : Touches now p q :=
  ⟨store, settings, counters ▸ .refl _⟩

namespace Invariant

variable [ThrottleStore σ] {t : Instant} {I : Plane σ → Prop} {moment : Moment} {p q : Plane σ}

theorem changes (h : Invariant t I) (le : moment.wall ≤ t) (changes : Changes moment p q) (holds : I p) : I q := by
  induction changes with
  | refl => exact holds
  | tail _ change ih =>
    cases change with
    | asked s vetted => exact h.asked s vetted ih
    | saved => exact h.saved ih
    | rolled =>
      refine h.touched le ?_ ih
      exact ⟨rfl, rfl, .rolled _ _⟩
    | published | configured | retained =>
      refine h.touched le ?_ ih
      exact touches_same rfl rfl rfl

theorem command (h : Invariant t I) (le : moment.wall ≤ t) (command : Command) (holds : I p) :
    I (command.perform moment p) := by
  rcases command.changes moment p with changes | ⟨_, _, -, released⟩ | ⟨-, reclaimed⟩
  · exact h.changes le changes holds
  · refine h.touched le ?_ holds
    exact released ▸ touches_same rfl rfl rfl
  · refine h.touched le ?_ holds
    exact reclaimed ▸ touches_same rfl rfl rfl

/-- What holds of the blank plane holds of the opened one. -/
theorem launched (h : Invariant t I) (le : moment.wall ≤ t) {store : σ} {settings : EngineSettings}
    {effects : Lease.Effects} (launched : Plane.launch store settings moment = .ok (p, effects))
    (holds : ∀ blank, Plane.unloaded store settings moment.wall = .ok blank → I blank) : I p := by
  obtain ⟨blank, unloaded, rfl⟩ := of_launch launched
  have preorder : IsPreorder (Plane σ) fun p q => I p → I q :=
    { refl := fun _ => id, trans := fun _ _ _ first rest holds => rest (first holds) }
  have permits : Call.Permits moment fun p q : Plane σ => I p → I q :=
    { asks := fun _ _ s vetted => h.asked s vetted
      configured := fun _ _ _ => h.touched le (touches_same rfl rfl rfl)
      retained := fun _ _ => h.touched le (touches_same rfl rfl rfl)
      published := fun _ _ => h.touched le (touches_same rfl rfl rfl) }
  have loads : (load : Call σ Unit).Keeps moment fun p q => I p → I q :=
    Call.load_keeps permits fun _ buckets => h.touched le ⟨rfl, rfl, .restore _ buckets⟩
  exact loads.after blank (holds blank unloaded)

end Invariant

end RelayRamp.Plane

namespace RelayRamp.Admission

open RelayRamp.Plane RelayRamp.Store RelayRamp.Time

variable {σ : Type}

namespace Attempt

variable {p q : Plane σ} {moment : Moment}

theorem Proceeds.touches {course : Course} {acquisition : Lease.Acquisition} {a : Attempt}
    (proceeds : Proceeds p course acquisition moment q a) : Touches moment.wall p q := by
  cases proceeds with
  | waits | failed => exact touches_same rfl rfl rfl
  | admitted => exact ⟨rfl, rfl, (Counters.Advances.rolled _ _).trans (.plus _ _)⟩
  | lost => exact ⟨rfl, rfl, .rolled _ _⟩

theorem resume_touches (p : Plane σ) (moment : Moment) (a : Attempt) :
    Touches moment.wall p (a.resume p moment).1 := by
  cases a with
  | requested request =>
    have begun := begins p request moment
    simp only [resume]
    generalize (begin p request moment).1 = q at begun
    generalize (begin p request moment).2.2 = b at begun
    cases begun with
    | decided => exact touches_same rfl rfl rfl
    | proceeded _ _ _ proceeds => exact proceeds.touches
  | acquiring course acquisition => exact (proceeds p course acquisition moment).touches
  | decided => exact touches_same rfl rfl rfl

theorem cancel_touches (p : Plane σ) (moment : Moment) (a : Attempt) :
    Touches moment.wall p (a.cancel p moment).1 := by
  cases a with
  | decided admission =>
    obtain ⟨verdict, _ | ticket⟩ := admission
    · exact touches_same rfl rfl rfl
    · exact touches_same rfl rfl rfl
  | _ => exact touches_same rfl rfl rfl

end Attempt

namespace Service

variable [ThrottleStore σ] {t : Instant} {I : Plane σ → Prop}

/-- Only commands ask the store. -/
theorem step_touches (s : Service σ) (moment : Moment) {act : Act} (other : ∀ command, act ≠ .command command) :
    Touches moment.wall s.plane (s.step moment act).plane := by
  cases act with
  | submit request => exact Attempt.resume_touches _ _ _
  | resume n =>
    simp only [step]
    split
    · split
      · exact touches_same rfl rfl rfl
      · exact Attempt.resume_touches _ _ _
    · exact touches_same rfl rfl rfl
  | cancel n =>
    simp only [step]
    split
    · exact Attempt.cancel_touches _ _ _
    · exact touches_same rfl rfl rfl
  | detach n =>
    simp only [step]
    split
    · split
      · exact touches_same rfl rfl rfl
      · exact touches_same rfl rfl rfl
    · exact touches_same rfl rfl rfl
  | command command => exact absurd rfl (other command)

theorem step_holds (h : Invariant t I) {s : Service σ} {moment : Moment} (le : moment.wall ≤ t) (act : Act)
    (holds : I s.plane) : I (s.step moment act).plane := by
  by_cases commands : ∃ command, act = .command command
  · obtain ⟨command, rfl⟩ := commands
    exact h.command le command holds
  · exact h.touched le (s.step_touches moment fun command same => commands ⟨command, same⟩) holds

/-- What holds when a plane is opened holds after every run up to the instant. -/
theorem run_holds (h : Invariant t I) {s : Service σ} (acts : List (Moment × Act))
    (before : ∀ entry ∈ acts, entry.1.wall ≤ t) (holds : I s.plane) : I (s.run acts).plane := by
  induction acts generalizing s with
  | nil => exact holds
  | cons entry rest ih =>
    obtain ⟨first, later⟩ := List.forall_mem_cons.mp before
    exact ih later (step_holds h first entry.2 holds)

/-- What outlives a service up to every instant holds throughout, once it holds before anything is loaded. -/
theorem served_holds (h : ∀ t, Invariant t I) {store : σ} {settings : EngineSettings} {opening : Moment} {p : Plane σ}
    {effects : Lease.Effects} (launched : Plane.launch store settings opening = .ok (p, effects))
    (holds : ∀ blank, Plane.unloaded store settings opening.wall = .ok blank → I blank) (acts : List (Moment × Act)) :
    I ((opened p).run acts).plane := by
  obtain ⟨last, earlier⟩ := exists_later (walls opening.wall acts)
  obtain ⟨first, later⟩ := List.forall_mem_cons.mp earlier
  exact run_holds (h last) acts (fun entry member => later _ (List.mem_map_of_mem member))
    ((h last).launched first launched holds)

/-- A plane keeps the settings that it was opened with. -/
theorem served_settings {store : σ} {settings : EngineSettings} {opening : Moment} {p : Plane σ}
    {effects : Lease.Effects} (launched : Plane.launch store settings opening = .ok (p, effects))
    (acts : List (Moment × Act)) : ((opened p).run acts).plane.settings = settings := by
  have kept (t : Instant) : Invariant t fun q : Plane σ => q.settings = settings :=
    { touched := fun _ touches same => touches.settings.trans same
      asked := fun _ _ same => same
      saved := fun same => same }
  exact served_holds kept launched (fun blank unloaded => (of_unloaded unloaded).2.1) acts

end Service

/-! ### Stores that only planes have written -/

/-- The store began empty. What was written since are rules that passed validation, buckets of windows that had begun
by the instant, and whatever else a plane writes. -/
inductive WrittenBy (t : Instant) : Backing → Prop
  | memory : WrittenBy t (.memory .empty)
  | durable : WrittenBy t (.durable .empty)
  | asked {store : Backing} {α : Type} (c : StoreCall α) (vetted : c.Vetted) :
      WrittenBy t store → WrittenBy t (store.call c).2
  | saved {store : Backing} {buckets : List CounterBucket} (kinds : buckets.Pairwise (·.kind ≠ ·.kind))
      (begun : ∀ b ∈ buckets, b.Begun t) : WrittenBy t store → WrittenBy t (store.call (.saveCounters buckets)).2

theorem written_invariant (t : Instant) :
    Invariant t fun p : Plane (PlannedStore Backing) => WrittenBy t p.store.inner ∧ p.counters.Begun t where
  touched le touches := fun ⟨written, begun⟩ =>
    ⟨touches.store.symm ▸ written, begun.advances le touches.counters⟩
  asked c vetted := fun ⟨written, begun⟩ => ⟨PlannedStore.call_inner c written (written.asked c vetted), begun⟩
  saved {p} := fun ⟨written, begun⟩ =>
    ⟨PlannedStore.call_inner (.saveCounters p.counters.buckets) written
      (written.saved p.counters.buckets_kinds begun.buckets), begun⟩

section

variable {t : Instant} {store : Backing} {plan : List (Option StoreFault)} {settings : EngineSettings} {moment : Moment}
  {p : Plane (PlannedStore Backing)} {effects : Lease.Effects} {acts : List (Moment × Act)}

theorem WrittenBy.serving (written : WrittenBy t store)
    (launched : Plane.launch ⟨store, plan⟩ settings moment = .ok (p, effects))
    (before : ∀ wall ∈ Service.walls moment.wall acts, wall ≤ t) :
    let q := ((Service.opened p).run acts).plane
    WrittenBy t q.store.inner ∧ q.counters.Begun t := by
  obtain ⟨first, later⟩ := List.forall_mem_cons.mp before
  have start := (written_invariant t).launched first launched fun blank unloaded => by
    obtain ⟨matcher, -, same⟩ := ok_of_bind unloaded
    cases same
    exact ⟨written, .fresh first⟩
  exact Service.run_holds (written_invariant t) acts (fun entry member =>
    later _ (List.mem_map_of_mem member)) start

/-- What a plane that serves up to an instant leaves of such a store is one again. -/
theorem WrittenBy.served (written : WrittenBy t store)
    (launched : Plane.launch ⟨store, plan⟩ settings moment = .ok (p, effects))
    (before : ∀ wall ∈ Service.walls moment.wall acts, wall ≤ t) :
    WrittenBy t ((Service.opened p).run acts).plane.store.inner := (written.serving launched before).1

end

end RelayRamp.Admission
