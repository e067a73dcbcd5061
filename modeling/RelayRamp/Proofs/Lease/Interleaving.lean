import RelayRamp.Proofs.Lease.Errands

/-!
# Moves as steps on handles

A move of the traffic runs from the look-up to its last effect without a break. It is one of the ways in which the steps of
an archive can follow each other, so every run of the traffic is seen in some run of an archive, and what all of these keep
holds of it.
-/
namespace RelayRamp.Lease

open RelayRamp.Admission RelayRamp.Routing

/-- The acquisition, from when it has entered its slots or was refused. -/
def Errand.acquisition? : Errand → Option Acquisition
  | .seeking .. | .holding .. => none
  | .refused fault => some (.failed fault)
  | .entered _ a => a

namespace Pool

variable {p : Pool} {name : TransportName} {g : Generation} {n : Nat}

theorem mapSlots_congr {f f' : Nat → Slot → Slot} (same : ∀ n s, p.slot? n = some s → f n s = f' n s)
    (h : p.Numbered) : p.mapSlots f = p.mapSlots f' := by
  unfold mapSlots
  congr 1
  apply List.map_congr_left
  rintro ⟨name, g⟩ member
  dsimp only
  rw [same g.number g.slot (slot?_of_mem h member)]

theorem adjust_eq_mapSlots (h : p.Numbered) (n : Nat) (f : Slot → Slot) :
    p.adjust n f = p.mapSlots fun m s => if m = n then f s else s := by
  unfold adjust
  split
  · rename_i absent
    have same : p.mapSlots (fun m s => if m = n then f s else s) = p.mapSlots fun _ s => s := by
      apply mapSlots_congr _ h
      intro m s found
      apply if_neg
      rintro rfl
      cases absent.symm.trans found
    rw [same]
    simp [mapSlots]
  · rename_i s found
    rw [put_eq]
    apply mapSlots_congr _ h
    intro m s' found'
    split
    · rename_i same
      subst same
      cases found.symm.trans found'
      rfl
    · rfl

theorem mapSlots_mapSlots (p : Pool) (f f' : Nat → Slot → Slot) :
    (p.mapSlots f).mapSlots f' = p.mapSlots fun n s => f' n (f n s) := by
  simp only [mapSlots, List.map_map]
  rfl

/-- A release by name is one on the slots that the name leads to. -/
theorem release_adjust (h : p.Numbered) (found : p.find? name = some g) (lease now : Nat) :
    (p.release name lease now).1 = p.adjust g.number fun s => (s.step now (.release lease)).1 := by
  cases released : g.slot.release lease now with
  | none =>
    have unchanged : (p.release name lease now).1 = p := by simp [release, found, released]
    rw [unchanged, adjust_self h]
    intro s present
    cases present.symm.trans (slot?_of_find? h found)
    rw [Slot.step, released]
    rfl
  | some freed =>
    have changed : (p.release name lease now).1 = p.put g.number freed.1 := by simp [release, found, released]
    rw [changed, ← put_eq_adjust h found fun s => (s.step now (.release lease)).1, Slot.step, released]
    rfl

end Pool

/-- To keep what is kept changes nothing. -/
theorem Traffic.keep_same {t : Traffic} {l : Nat} {a : Option Acquisition} (kept : t.calls l = a) :
    t.keep t.pool l a = t := by
  unfold keep
  congr 1
  funext k
  split
  · rename_i same
    rw [same, kept]
  · rfl

namespace Archive

variable {r r' : Archive} {now n l : Nat} {lease : Option Nat} {ticket : LeaseTicket} {key : WaitKey} {deadline : Nat}

/-- The traffic on a pool whose dropped slots are out of sight. -/
def view (r : Archive) : Traffic := ⟨r.pool, fun l => (r.calls l).bind Errand.acquisition?⟩

theorem view_keep (r : Archive) (l : Nat) (e : Option Errand) :
    (r.keep l e).view = r.view.keep r.pool l (e.bind Errand.acquisition?) := by
  unfold view keep Traffic.keep
  congr 1
  funext k
  dsimp only
  split <;> rfl

theorem view_operate_keep (r : Archive) (now n : Nat) (op : Operation) (l : Nat) (e : Option Errand) :
    ((r.operate now n op).keep l e).view =
      r.view.keep (r.pool.adjust n fun s => (s.step now op).1) l (e.bind Errand.acquisition?) :=
  view_keep (r.operate now n op) l e

theorem Runs.one (now : Nat) (step : Step now r lease r') : Runs r r' := Relation.ReflTransGen.single ⟨now, lease, step⟩

/-- What has not failed has entered its slots. -/
theorem entered_of_view {a : Acquisition} (kept : r.view.calls l = some a) (stands : ∀ fault, a ≠ .failed fault) :
    ∃ n, r.calls l = some (.entered n (some a)) := by
  obtain ⟨e, called, same⟩ := Option.bind_eq_some_iff.mp kept
  cases e with
  | seeking | holding => cases same
  | refused fault =>
    cases same
    exact absurd rfl (stands fault)
  | entered n b =>
    cases same
    exact ⟨n, called⟩

theorem Sound.queued_of_view (h : r.Sound) (queued : r.view.calls l = some (.queued ticket key deadline)) :
    r.calls l = some (.entered key.generation (some (.queued ticket key deadline))) ∧
      ∃ s, r.slot? key.generation = some s := by
  obtain ⟨n, called⟩ := entered_of_view queued (by simp)
  have fits := h.calls l _ called
  obtain rfl := fits.key n ticket key deadline rfl
  exact ⟨called, Option.ne_none_iff_exists'.mp (fits.reached _ _ rfl)⟩

/-! ### Each move -/

theorem Sound.view_acquire (h : r.Sound) (now : Nat) (transport : TransportName) (timeout : Nat) :
    ∃ r', Runs r r' ∧ r'.view = r.view.step now (.acquire transport timeout) := by
  let l := r.pool.nextLease
  let issued : Archive := { r with pool := { r.pool with nextLease := l + 1 } }
  let begun := issued.keep l (some (.seeking ⟨transport, l⟩ (now + timeout)))
  have begins : Runs r begun := .one now (.request transport timeout)
  have seeks : begun.calls l = some (.seeking ⟨transport, l⟩ (now + timeout)) := if_pos rfl
  have looked : Step now begun _ _ := .lookUp seeks
  cases found : r.pool.find? transport with
  | none =>
    have absent : begun.pool.find? transport = none := found
    have start := Acquisition.start_absent (p := r.view.pool) found timeout now
    rw [absent] at looked
    refine ⟨_, begins.tail ⟨_, _, looked⟩, ?_⟩
    rw [view_keep, view_keep issued, Traffic.keep_keep, Traffic.step, start]
    rfl
  | some g =>
    have present : begun.pool.find? transport = some g := found
    have start := Acquisition.start_found (p := r.view.pool) found timeout now
    rw [present] at looked
    have sound := (begins.sound h).step looked
    have holds : (begun.keep l (some (.holding ⟨transport, l⟩ (now + timeout) g.number))).calls l =
        some (.holding ⟨transport, l⟩ (now + timeout) g.number) := if_pos rfl
    have entered : Step now _ (some l) _ :=
      .enter holds (sound.alive present) (slot?_of_find? sound.toTidy present)
    refine ⟨_, (begins.tail ⟨_, _, looked⟩).tail ⟨_, _, entered⟩, ?_⟩
    have put := Pool.put_eq_adjust sound.numbered present fun s => (s.enter now l (now + timeout)).1
    rw [view_operate_keep, view_keep, view_keep issued, Traffic.keep_keep, Traffic.keep_keep, Traffic.step, start]
    exact congrArg (fun p => r.view.keep p l _) put.symm

theorem slot?_of_pool {s : Slot} (present : r.pool.slot? n = some s) : r.slot? n = some s := by
  rw [slot?, present]
  rfl

/-- A waiter that cannot go on and has no time left to wait leaves. -/
theorem Sound.may_leave (h : r.Sound) {s : Slot} (found : r.slot? key.generation = some s)
    (ends : ∀ s', r.pool.slot? key.generation = some s' → s'.claim key.waiter ticket.leaseId = none ∧
      ¬ (s'.waiters.any (·.id = key.waiter) ∧ now < deadline)) :
    deadline ≤ now ∨ s.waiters.any (·.id = key.waiter) = false ∧ s.claim key.waiter ticket.leaseId = none := by
  obtain ⟨name, present | dropped⟩ := (slot?_eq_some h.toTidy).mp found
  · obtain ⟨missing, ends⟩ := ends s (Pool.slot?_of_find? h.numbered present)
    by_cases early : now < deadline
    · exact Or.inr ⟨Bool.eq_false_iff.mpr fun waits => ends ⟨waits, early⟩, missing⟩
    · exact Or.inl (Nat.not_lt.mp early)
  · obtain ⟨waiters, -, handed⟩ := (h.slots _ s found).empty_of_idle (h.gone _ name s dropped).2.2
    right
    simp [Slot.claim, waiters, handed]

theorem Sound.view_resume (h : r.Sound) (now l : Nat) :
    ∃ r', Runs r r' ∧ r'.view = r.view.step now (.resume l) := by
  cases kept : r.view.calls l with
  | none => exact ⟨r, .refl, by simp only [Traffic.step, kept]⟩
  | some a =>
    cases a with
    | requested transport timeout => exact ⟨r, .refl, by simp only [Traffic.step, kept]⟩
    | queued ticket key deadline =>
      obtain ⟨called, s, found⟩ := h.queued_of_view kept
      rcases Acquisition.resumeQueued_cases r.view.pool now ticket key deadline with
        ⟨s', s'', grant, present, claimed, result⟩ | ⟨s', -, -, -, result⟩ | ⟨ends, effects, result⟩
      · cases found.symm.trans (slot?_of_pool present)
        have pool : r.pool.adjust key.generation (fun s => (s.step now (.claim key.waiter ticket.leaseId)).1) =
            r.pool.put key.generation s'' := by
          unfold Pool.adjust
          rw [show r.pool.slot? key.generation = some s from present]
          simp only [Slot.step, claimed, Option.map_some, Option.getD_some]
        refine ⟨_, .one now (.claim called found claimed), ?_⟩
        rw [view_operate_keep, pool]
        simp only [Traffic.step, kept, Acquisition.resume, result]
        rfl
      · refine ⟨r, .refl, ?_⟩
        simp only [Traffic.step, kept, Acquisition.resume, result]
        exact (Traffic.keep_same kept).symm
      · refine ⟨_, .one now (.leave called found (h.may_leave found ends)), ?_⟩
        rw [view_operate_keep]
        simp only [Traffic.step, kept, Acquisition.resume, result, Acquisition.leave_eq_adjust]
        rfl
    | pacing ticket grant =>
      obtain ⟨n, called⟩ := entered_of_view kept (by simp)
      refine ⟨_, .one now (.pace called), ?_⟩
      rw [view_keep]
      simp only [Traffic.step, kept]
      rfl
    | granted | failed =>
      refine ⟨r, .refl, ?_⟩
      simp only [Traffic.step, kept]
      exact (Traffic.keep_same kept).symm

theorem Sound.view_hangUp (h : r.Sound) (now l : Nat) (cause : Cause) :
    ∃ r', Runs r r' ∧ r'.view = r.view.step now (.hangUp l cause) := by
  simp only [Traffic.step]
  split
  · rename_i ticket key deadline kept
    split
    · exact ⟨r, .refl, rfl⟩
    · exact ⟨_, .one now (.hangUp (h.queued_of_view kept).1 cause), rfl⟩
  · exact ⟨r, .refl, rfl⟩

theorem Sound.view_timeOut (h : r.Sound) (now l : Nat) :
    ∃ r', Runs r r' ∧ r'.view = r.view.step now (.timeOut l) := by
  simp only [Traffic.step]
  split
  · rename_i ticket key deadline kept
    split
    · exact ⟨r, .refl, rfl⟩
    · rename_i late
      obtain ⟨called, s, found⟩ := h.queued_of_view kept
      refine ⟨_, .one now (.leave called found (Or.inl (Nat.not_lt.mp late))), ?_⟩
      rw [view_operate_keep, Acquisition.leave_eq_adjust]
      rfl
  · exact ⟨r, .refl, rfl⟩

/-- A release by name is a step if the transport is in the pool, and does nothing if not. -/
theorem Sound.view_release (h : r.Sound) (now : Nat) (transport : TransportName) (lease : Nat) :
    ∃ r', Runs r r' ∧ r'.view = r.view.step now (.release transport lease) := by
  cases found : r.pool.find? transport with
  | none =>
    refine ⟨r, .refl, ?_⟩
    simp only [Traffic.step, Pool.release_absent (p := r.view.pool) found]
  | some g =>
    refine ⟨_, .one now (.release g.number lease), ?_⟩
    simp only [Traffic.step, Pool.release_adjust (p := r.view.pool) h.numbered found]
    rfl

/-- Once an acquisition has no place in a queue it can be forgotten. -/
theorem forgets (now : Nat) {a : Acquisition} (kept : r.view.calls l = some a)
    (apart : ∀ ticket key deadline, a ≠ .queued ticket key deadline) :
    ∃ e, Step now r (some l) (r.keep l e) ∧ e.bind Errand.acquisition? = none := by
  obtain ⟨e, called, same⟩ := Option.bind_eq_some_iff.mp kept
  cases e with
  | seeking | holding => cases same
  | refused fault => exact ⟨none, .withdraw called nofun, rfl⟩
  | entered n b =>
    cases same
    refine ⟨some (.entered n none), .forget called ?_, rfl⟩
    rintro ticket key deadline ⟨⟩
    exact apart ticket key deadline rfl

theorem Sound.view_cancel (h : r.Sound) (now l : Nat) :
    ∃ r', Runs r r' ∧ r'.view = r.view.step now (.cancel l) := by
  have inHand {ticket : LeaseTicket} {a : Acquisition} (kept : r.view.calls l = some a)
      (apart : ∀ ticket key deadline, a ≠ .queued ticket key deadline) :
      ∃ r', Runs r r' ∧ r'.view =
        r.view.keep (r.pool.release ticket.transport ticket.leaseId now).1 l none := by
    obtain ⟨e, step, gone⟩ := forgets now kept apart
    obtain ⟨r', runs, same⟩ := (h.step step).view_release now ticket.transport ticket.leaseId
    refine ⟨r', (Runs.one now step).trans runs, ?_⟩
    rw [same, view_keep, gone]
    rfl
  cases kept : r.view.calls l with
  | none => exact ⟨r, .refl, by simp only [Traffic.step, kept]⟩
  | some a =>
    simp only [Traffic.step, kept]
    cases a with
    | queued ticket key deadline =>
      refine ⟨_, .one now (.abandon (h.queued_of_view kept).1), ?_⟩
      rw [view_operate_keep, Acquisition.cancel, Acquisition.leave_eq_adjust]
      rfl
    | pacing ticket grant => exact inHand kept (by simp)
    | granted ticket instant => exact inHand kept (by simp)
    | requested | failed =>
      obtain ⟨e, step, gone⟩ := forgets now kept (by simp)
      refine ⟨_, .one now step, ?_⟩
      rw [view_keep, gone]
      rfl

theorem view_detach (r : Archive) (now l : Nat) :
    ∃ r', Runs r r' ∧ r'.view = r.view.step now (.detach l) := by
  simp only [Traffic.step]
  split
  · rename_i ticket instant kept
    obtain ⟨e, step, gone⟩ := forgets now kept (by simp)
    refine ⟨_, .one now step, ?_⟩
    rw [view_keep, gone]
    rfl
  · exact ⟨r, .refl, rfl⟩

/-- Reclaiming is done on one generation after the other. -/
theorem Sound.reclaims (h : r.Sound) (now maxHold : Nat) (numbers : List Nat) (nodup : numbers.Nodup) :
    ∃ r', Runs r r' ∧ r'.calls = r.calls ∧
      r'.pool = r.pool.mapSlots fun n s => if n ∈ numbers then (s.step now (.reclaim maxHold)).1 else s := by
  induction numbers with
  | nil => exact ⟨r, .refl, rfl, by simp [Pool.mapSlots]⟩
  | cons n rest ih =>
    obtain ⟨r', runs, calls, pool⟩ := ih (List.nodup_cons.mp nodup).2
    refine ⟨_, runs.tail ⟨now, _, .reclaim n maxHold⟩, calls, ?_⟩
    change r'.pool.adjust n _ = _
    rw [Pool.adjust_eq_mapSlots (runs.sound h).numbered, pool, Pool.mapSlots_mapSlots]
    congr 1
    funext m s
    by_cases same : m = n
    · subst same
      simp [(List.nodup_cons.mp nodup).1]
    · simp [same]

theorem Sound.view_reclaim (h : r.Sound) (now maxHold : Nat) :
    ∃ r', Runs r r' ∧ r'.view = r.view.step now (.reclaim maxHold) := by
  obtain ⟨r', runs, calls, pool⟩ := h.reclaims now maxHold _ h.numbered.numbers_nodup
  refine ⟨r', runs, ?_⟩
  have all : r'.pool = (r.pool.reclaim maxHold now).1 := by
    rw [pool, Pool.reclaim_eq]
    apply Pool.mapSlots_congr _ h.numbered
    intro n s found
    obtain ⟨name, member⟩ := Pool.slot?_mem found
    apply if_pos
    exact List.mem_map_of_mem (f := fun entry : TransportName × Generation => entry.2.number) member
  simp only [view, calls, all, Traffic.step]

theorem Sound.view_configure (h : r.Sound) (now : Nat) (transport : TransportName) (limits : TransportLimits) :
    ∃ r', Runs r r' ∧ r'.view = r.view.step now (.configure transport limits) := by
  cases found : r.pool.find? transport with
  | none => exact ⟨_, .one now (.create found limits), rfl⟩
  | some g =>
    refine ⟨_, .one now (.limit found limits), ?_⟩
    simp only [Traffic.step, Pool.configure_eq_adjust (p := r.view.pool) h.numbered found]
    rfl

/-! ### Every run -/

/-- A move is some steps of an archive. -/
theorem Sound.view_step (h : r.Sound) (now : Nat) (move : Move) :
    ∃ r', Runs r r' ∧ r'.view = r.view.step now move := by
  cases move with
  | acquire transport timeout => exact h.view_acquire now transport timeout
  | resume l => exact h.view_resume now l
  | hangUp l cause => exact h.view_hangUp now l cause
  | timeOut l => exact h.view_timeOut now l
  | cancel l => exact h.view_cancel now l
  | detach l => exact r.view_detach now l
  | release transport lease => exact h.view_release now transport lease
  | reclaim maxHold => exact h.view_reclaim now maxHold
  | configure transport limits => exact h.view_configure now transport limits
  | retain names => exact ⟨_, .one now (.sweep names), rfl⟩

/-- However the traffic goes on, that is seen in a run of the archive. -/
theorem Sound.view_run (h : r.Sound) (moves : List (Nat × Move)) : ∃ r', Runs r r' ∧ r'.view = r.view.run moves := by
  induction moves generalizing r with
  | nil => exact ⟨r, .refl, rfl⟩
  | cons head rest ih =>
    obtain ⟨q, first, same⟩ := h.view_step head.1 head.2
    obtain ⟨r', more, last⟩ := ih (first.sound h)
    refine ⟨r', first.trans more, ?_⟩
    rw [last, same]
    rfl

end Archive

end RelayRamp.Lease
