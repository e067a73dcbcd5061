import RelayRamp.Proofs.Lease.History
import RelayRamp.Proofs.Routing.Rosters

/-!
# How transports are set up

A transport in the pool is of one generation and has limits in force. Only two moves change that: new limits, and a
sweep that drops what is idle and not kept. Callers that come, wait, leave and give back leases do not. So after a
pool was given the limits of a roster and was swept by it, every transport of the roster is set up with its limits, and
every other one that is left was busy.
-/
namespace RelayRamp.Lease

open RelayRamp.Admission RelayRamp.Routing

/-- The generation of a transport and its limits in force. -/
structure Setup where
  generation : Nat
  capacity : Nat
  rateDelay : Nat
  deriving DecidableEq, Repr

def Generation.setup (g : Generation) : Setup := ⟨g.number, g.slot.capacity, g.slot.rateDelay⟩

namespace Pool

def setup? (p : Pool) (name : TransportName) : Option Setup := (p.find? name).map (·.setup)

/-- Every transport stays as it is set up. -/
def Steady (p q : Pool) : Prop := p.Numbered → q.Numbered ∧ ∀ name, q.setup? name = p.setup? name

instance : IsPreorder Pool Steady where
  refl _ numbered := ⟨numbered, fun _ => rfl⟩
  trans _ _ _ first rest numbered := by
    obtain ⟨numbered, same⟩ := first numbered
    obtain ⟨numbered, same'⟩ := rest numbered
    exact ⟨numbered, fun name => (same' name).trans (same name)⟩

theorem steady_same {p q : Pool} (same : q = p) : p.Steady q := by
  rw [same]
  exact Std.Refl.refl p

end Pool

/-! ### Moves of callers -/

/-- The move changes neither limits nor which transports there are. -/
def Move.Plain : Move → Prop
  | .configure .. | .retain _ => False
  | _ => True

theorem Slot.after_limits (s : Slot) (now : Nat) {op : Option Operation}
    (fixed : ∀ limits, op ≠ some (.configure limits)) :
    (s.after now op).capacity = s.capacity ∧ (s.after now op).rateDelay = s.rateDelay := by
  cases op with
  | none => exact ⟨rfl, rfl⟩
  | some op =>
    rcases Slot.step_serves s now op with served | ⟨limits, rfl, -⟩
    · exact ⟨served.capacity, served.rateDelay⟩
    · exact absurd rfl (fixed limits)

theorem Traffic.steady_step (t : Traffic) (now : Nat) (move : Move) (plain : move.Plain) :
    t.pool.Steady (t.step now move).pool := by
  intro numbered
  have numbered' := numbered_step numbered now move
  refine ⟨numbered', fun name => ?_⟩
  have number : ((t.step now move).pool.find? name).map (·.number) = (t.pool.find? name).map (·.number) := by
    rcases pool_step t now move with ⟨-, only⟩ | ⟨_, _, -, only⟩ | ⟨_, _, rfl, -⟩ | ⟨_, rfl⟩
    · exact only.number name
    · exact only.number name
    · exact plain.elim
    · exact plain.elim
  have fixed (n : Nat) (limits : TransportLimits) : t.operation? now move n ≠ some (.configure limits) := by
    intro performed
    cases performs performed with
    | configure => exact plain.elim
  -- The name keeps its generation, and no operation on that generation's slot gives it new limits.
  unfold Pool.setup?
  cases found : t.pool.find? name with
  | none =>
    rw [found] at number
    rw [Option.map_eq_none_iff.mp number]
  | some g =>
    rw [found] at number
    obtain ⟨g', found', same⟩ := Option.map_eq_some_iff.mp number
    have slot := Pool.slot?_of_find? numbered found
    have slot' := Pool.slot?_of_find? numbered' found'
    rw [same] at slot'
    obtain ⟨capacity, rateDelay⟩ := g.slot.after_limits now (fixed g.number)
    rw [found', Option.map_some, Option.map_some, Generation.setup, Generation.setup, same,
      slot?_both numbered slot slot', capacity, rateDelay]

namespace Pool

theorem steady_release (p : Pool) (transport : TransportName) (lease now : Nat) :
    p.Steady (p.release transport lease now).1 :=
  Traffic.steady_step ⟨p, fun _ => none⟩ now (.release transport lease) trivial

theorem steady_reclaim (p : Pool) (maxHold now : Nat) : p.Steady (p.reclaim maxHold now).1 :=
  Traffic.steady_step ⟨p, fun _ => none⟩ now (.reclaim maxHold) trivial

theorem steady_cancel (p : Pool) (a : Acquisition) (now : Nat) : p.Steady (a.cancel p now).1 :=
  Traffic.steady_step ⟨p, fun _ => some a⟩ now (.cancel 0) trivial

theorem steady_resume (p : Pool) (a : Acquisition) (now : Nat) : p.Steady (a.resume p now).1 := by
  cases a with
  | requested transport timeout =>
    -- To begin is to call and then to have a first turn.
    let t : Traffic := ⟨p, fun _ => none⟩
    have both : t.pool.Steady (t.run [(now, .acquire transport timeout), (now, .resume p.nextLease)]).pool :=
      IsTrans.trans _ _ _ (t.steady_step now (.acquire transport timeout) trivial)
        (Traffic.steady_step _ now (.resume p.nextLease) trivial)
    rw [Traffic.run_acquire t transport timeout now] at both
    exact both
  | queued ticket key deadline =>
    exact Traffic.steady_step ⟨p, fun _ => some (.queued ticket key deadline)⟩ now (.resume 0) trivial
  | _ => exact Std.Refl.refl p

/-! ### New limits -/

variable {p : Pool} {name other : TransportName}

theorem find?_put (p : Pool) (generation : Nat) (slot : Slot) (name : TransportName) :
    (p.put generation slot).find? name =
      (p.find? name).map fun g => if g.number = generation then { g with slot } else g := by
  rw [put_eq, find?_mapSlots]
  congr 1
  funext g
  split
  · rfl
  · rfl

/-- New limits set up their transport, of the generation that it was or of a new one, and no other. -/
theorem setup?_configure (h : p.Numbered) (name : TransportName) (limits : TransportLimits) (now : Nat) :
    (p.configure name limits now).1.Numbered ∧
      (∃ generation, (p.configure name limits now).1.setup? name =
        some ⟨generation, limits.concurrency, limits.rateDelay⟩) ∧
      ∀ other, other ≠ name → (p.configure name limits now).1.setup? other = p.setup? other := by
  cases found : p.find? name with
  | some g =>
    have served := Slot.configure_serves g.slot limits now
    rw [configure_found found, put_eq]
    refine ⟨mapSlots_numbered h _, ⟨g.number, ?_⟩, fun other apart => ?_⟩
    · rw [← put_eq, setup?, find?_put, found]
      simp only [Option.map_some, if_true, Generation.setup, served.capacity, served.rateDelay]
    · rw [← put_eq, setup?, setup?, find?_put]
      cases found' : p.find? other with
      | none => rfl
      | some g' =>
        have differs : g'.number ≠ g.number := fun same => apart (name_unique h found' found same)
        simp only [Option.map_some, if_neg differs]
  | none =>
    obtain ⟨numbered, perm, -⟩ := configure_new h found limits now
    refine ⟨numbered, ⟨p.nextGeneration, ?_⟩, fun other apart => ?_⟩
    · rw [setup?, find?_of_mem numbered (perm.mem_iff.mpr (List.mem_cons_self ..))]
      rfl
    · have same : (p.configure name limits now).1.find? other = p.find? other := by
        apply Option.ext
        intro g
        constructor
        · intro found'
          rcases List.mem_cons.mp (perm.mem_iff.mp (find?_mem found')) with new | old
          · exact absurd (congrArg Prod.fst new) apart
          · exact find?_of_mem h old
        · intro found'
          exact find?_of_mem numbered (perm.mem_iff.mpr (List.mem_cons_of_mem _ (find?_mem found')))
      rw [setup?, same]
      rfl

/-- Gives each transport of a roster its limits. -/
def configureAll (p : Pool) (roster : Roster TransportLimits) (now : Nat) : Pool :=
  roster.foldl (fun p entry => (p.configure entry.1 entry.2 now).1) p

theorem setup?_configureAll (h : p.Numbered) {roster : Roster TransportLimits}
    (nodup : (roster.map (·.1)).Nodup) (now : Nat) :
    (p.configureAll roster now).Numbered ∧
      (∀ entry ∈ roster, ∃ generation, (p.configureAll roster now).setup? entry.1 =
        some ⟨generation, entry.2.concurrency, entry.2.rateDelay⟩) ∧
      ∀ other, other ∉ roster.map (·.1) → (p.configureAll roster now).setup? other = p.setup? other := by
  induction roster generalizing p with
  | nil => exact ⟨h, nofun, fun _ _ => rfl⟩
  | cons first rest ih =>
    obtain ⟨new, nodup⟩ := List.nodup_cons.mp nodup
    obtain ⟨numbered, ⟨generation, mine⟩, others⟩ := setup?_configure h first.1 first.2 now
    obtain ⟨numbered, listed, unlisted⟩ := ih numbered nodup
    refine ⟨numbered, fun entry member => ?_, fun other absent => ?_⟩
    · rcases List.mem_cons.mp member with rfl | member
      · -- The rest of the roster does not list the first name again, so its limits stay.
        exact ⟨generation, (unlisted _ new).trans mine⟩
      · exact listed entry member
    · obtain ⟨apart, absent⟩ := not_or.mp fun member => absent (List.mem_cons.mpr member)
      exact (unlisted other absent).trans (others other apart)

/-! ### Sweeps -/

theorem find?_retain (h : p.Numbered) (keep : List TransportName) {g : Generation} :
    (p.retain keep).find? name = some g ↔
      p.find? name = some g ∧ (name ∈ keep ∨ g.slot.isIdle = false) := by
  have kept : (keep.contains name || !g.slot.isIdle) = true ↔ name ∈ keep ∨ g.slot.isIdle = false := by simp
  constructor
  · intro found
    obtain ⟨member, stays⟩ := List.mem_filter.mp (find?_mem found)
    exact ⟨find?_of_mem h member, kept.mp stays⟩
  · rintro ⟨found, stays⟩
    exact find?_of_mem (retain_numbered h keep) (List.mem_filter.mpr ⟨find?_mem found, kept.mpr stays⟩)

/-- The pool after new limits for a roster and a sweep by it. -/
def reroute (p : Pool) (roster : Roster TransportLimits) (now : Nat) : Pool :=
  (p.configureAll roster now).retain (roster.map (·.1))

/-- The pool is as a sweep by the roster leaves it: what the roster lists is set up with its limits, and whatever else is
left is busy. -/
structure Swept (p : Pool) (roster : Roster TransportLimits) : Prop where
  listed : ∀ name limits, roster.get? name = some limits →
    ∃ generation, p.setup? name = some ⟨generation, limits.concurrency, limits.rateDelay⟩
  unlisted : ∀ name g, roster.get? name = none → p.find? name = some g → g.slot.isIdle = false

theorem reroute_swept (h : p.Numbered) {roster : Roster TransportLimits} (nodup : (roster.map (·.1)).Nodup)
    (now : Nat) : (p.reroute roster now).Numbered ∧ (p.reroute roster now).Swept roster := by
  obtain ⟨numbered, listed, -⟩ := setup?_configureAll h nodup now
  refine ⟨retain_numbered numbered _, fun name limits found => ?_, fun name g absent found => ?_⟩
  · have member := Roster.mem_of_get? found
    obtain ⟨generation, set⟩ := listed _ member
    obtain ⟨g, present, same⟩ := Option.map_eq_some_iff.mp set
    have kept := (find?_retain numbered _).mpr ⟨present, Or.inl (List.mem_map_of_mem member)⟩
    exact ⟨generation, by rw [setup?, reroute, kept, Option.map_some, same]⟩
  · have stays := ((find?_retain numbered _).mp found).2
    exact stays.resolve_left (Roster.not_mem_of_get? absent)

end Pool

/-- What is not idle has leases, hand-offs that nobody has claimed yet, or waiters. -/
theorem Slot.Sound.busy {s : Slot} (h : s.Sound) (busy : s.isIdle = false) :
    s.leases ≠ [] ∨ s.handed ≠ [] ∨ s.waiters ≠ [] := by
  by_contra nothing
  obtain ⟨leases, handed, waiters⟩ := by simpa only [not_or, not_not] using nothing
  have free : s.occupied = 0 := by simp [h.balance, leases, handed]
  simp [isIdle, free, waiters] at busy

/-! ### Known transports -/

namespace Acquisition

/-- The acquisition asked for a transport that is not in the pool. -/
def unknown? : Acquisition → Option String
  | .failed (.unknownTransport name) => some name
  | _ => none

theorem paced_unknown? (ticket : LeaseTicket) (grant now : Nat) : (paced ticket grant now).unknown? = none := by
  unfold paced
  split <;> rfl

theorem resumeQueued_unknown? (p : Pool) (now : Nat) (ticket : LeaseTicket) (key : WaitKey) (deadline : Nat) :
    (resumeQueued p now ticket key deadline).2.2.unknown? = none := by
  rcases resumeQueued_cases p now ticket key deadline with
    ⟨_, _, grant, -, -, result⟩ | ⟨_, -, -, -, result⟩ | ⟨-, _, result⟩
  · rw [result]
    exact paced_unknown? ticket grant now
  · rw [result]
    rfl
  · rw [result]
    rfl

/-- The pool says that a transport is unknown only to an acquisition that begins, and only if it is not there. -/
theorem resume_unknown? {a : Acquisition} (unfinished : a.isDone = false) (p : Pool) (now : Nat)
    (known : ∀ transport timeout, a = .requested transport timeout → (p.find? transport).isSome = true) :
    (a.resume p now).2.2.unknown? = none := by
  cases a with
  | requested transport timeout =>
    obtain ⟨g, found⟩ := Option.isSome_iff_exists.mp (known transport timeout rfl)
    obtain ⟨-, -, same⟩ := Traffic.resume_begun p transport timeout now
    rw [← same, start_found found]
    cases (g.slot.enter now p.nextLease (now + timeout)).2 with
    | granted grant =>
      simp only [entered, paced]
      split
      · rfl
      · exact paced_unknown? _ grant now
    | queued waiter => exact resumeQueued_unknown? _ now _ _ _
    | tooLate => rfl
  | queued ticket key deadline => exact resumeQueued_unknown? p now ticket key deadline
  | pacing ticket grant => exact paced_unknown? ticket grant now
  | granted => cases unfinished
  | failed => cases unfinished

end Acquisition

end RelayRamp.Lease
