import RelayRamp.Proofs.Lease.Handles

/-!
# Acquisitions and the slots that they reach

What an acquisition says of itself is so: it has its own lease, it holds slots of its transport, and its lease is in the
slots that it has entered or nowhere. Every step keeps that, for the acquisition that takes it and for all others, and
with it that the slots are sound and that dropped ones are idle.
-/
namespace RelayRamp.Lease

open RelayRamp.Admission RelayRamp.Routing

/-- The ticket of an acquisition that has not got its lease. -/
def Errand.ticket? : Errand → Option LeaseTicket
  | seeking ticket _ | holding ticket _ _ | entered _ (some (.queued ticket _ _)) => some ticket
  | _ => none

/-- What an acquisition says is so: its ticket has its id, it holds slots of its transport, and its lease is in the slots
that it has entered if it is anywhere. -/
structure Errand.Fits (e : Errand) (r : Archive) (l : Nat) : Prop where
  issued : l < r.pool.nextLease
  ticket : ∀ ticket, e.ticket? = some ticket → ticket.leaseId = l
  held : ∀ ticket deadline n, e = .holding ticket deadline n → r.Of n ticket.transport
  key : ∀ n ticket key deadline, e = .entered n (some (.queued ticket key deadline)) → key.generation = n
  reached : ∀ n a, e = .entered n a → r.slot? n ≠ none
  leased : ∀ n s, r.slot? n = some s → l ∈ s.leases.map (·.1) → ∃ a, e = .entered n a ∧ e.ticket? = none

namespace Errand.Fits

variable {r : Archive} {e : Errand} {l n : Nat}

/-- An acquisition that waits for its lease has it nowhere. -/
theorem unleased (fits : e.Fits r l) {ticket : LeaseTicket} (waits : e.ticket? = some ticket) {s : Slot}
    (found : r.slot? n = some s) : l ∉ s.leases.map (·.1) := by
  intro held
  obtain ⟨a, -, none⟩ := fits.leased n s found held
  cases none.symm.trans waits

/-- An acquisition that waits for nothing more fits where it has entered. -/
theorem settled {a a' : Option Acquisition} (fits : (entered n a).Fits r l) (done : (entered n a').ticket? = none) :
    (entered n a').Fits r l where
  issued := fits.issued
  ticket := by
    intro ticket waits
    cases done.symm.trans waits
  held := nofun
  key := by
    rintro m ticket key deadline ⟨⟩
    cases done
  reached := by
    rintro m b ⟨⟩
    exact fits.reached n a rfl
  leased := by
    intro m s found held
    obtain ⟨b, ⟨⟩, -⟩ := fits.leased m s found held
    exact ⟨a', rfl, done⟩

end Errand.Fits

theorem Acquisition.paced_ticket? (n : Nat) (ticket : LeaseTicket) (grant now : Nat) :
    (Errand.entered n (some (paced ticket grant now))).ticket? = none := by
  unfold paced
  split <;> rfl

/-- An acquisition that has entered waits for its lease only if it was queued. -/
theorem Acquisition.entered_waits {n deadline now : Nat} {ticket ticket' : LeaseTicket} {entry : Entry}
    (waits : (Errand.entered n (some (entered ticket n deadline now entry))).ticket? = some ticket') :
    ticket' = ticket ∧ ∃ waiter, entry = .queued waiter := by
  cases entry with
  | granted grant => cases (paced_ticket? n ticket grant now).symm.trans waits
  | queued waiter =>
    cases waits
    exact ⟨rfl, waiter, rfl⟩
  | tooLate => cases waits

namespace Archive

/-- The archive is tidy, every acquisition fits, and the leases have ids that were given out. -/
structure Sound (r : Archive) : Prop extends r.Tidy where
  calls : ∀ l e, r.calls l = some e → e.Fits r l
  issued : ∀ n s l, r.slot? n = some s → l ∈ s.leases.map (·.1) → l < r.pool.nextLease

variable {r : Archive} {now n l : Nat} {op : Operation} {e : Errand}

/-- The leases after an operation were there, or it made them. -/
theorem leases_operate {s' : Slot} {m : Nat} (found : (r.operate now n op).slot? m = some s')
    (held : l ∈ s'.leases.map (·.1)) :
    ∃ s, r.slot? m = some s ∧ (l ∈ s.leases.map (·.1) ∨ m = n ∧ op.newLease? = some l ∧
      ((∃ deadline grant, op = .enter l deadline ∧ (s.enter now l deadline).2 = .granted grant) ∨
        ∃ waiter taken, op = .claim waiter l ∧ s.claim waiter l = some taken)) := by
  rw [slot?_operate] at found
  obtain ⟨s, present, rfl⟩ := Option.map_eq_some_iff.mp found
  refine ⟨s, present, ?_⟩
  split at held
  · rename_i same
    rcases Slot.mem_leases_step held with old | ⟨deadline, grant, rfl, granted⟩ | ⟨waiter, taken, rfl, claimed⟩
    · exact Or.inl old
    · exact Or.inr ⟨same, rfl, Or.inl ⟨deadline, grant, rfl, granted⟩⟩
    · exact Or.inr ⟨same, rfl, Or.inr ⟨waiter, taken, rfl, claimed⟩⟩
  · exact Or.inl held

/-- An operation that makes another lease, or none, leaves an acquisition fitting. -/
theorem fits_operate (fits : e.Fits r l) (h : r.Tidy) (suits : r.Suits n op) (now : Nat)
    (spared : op.newLease? ≠ some l) : e.Fits (r.operate now n op) l where
  issued := (Pool.nextLease_adjust r.pool n _).symm ▸ fits.issued
  ticket := fits.ticket
  held ticket deadline m same := (fits.held ticket deadline m same).operate h suits now
  key := fits.key
  reached := by
    intro m a same
    rw [slot?_operate, Ne, Option.map_eq_none_iff]
    exact fits.reached m a same
  leased := by
    intro m s' found held
    obtain ⟨s, present, old | ⟨-, made, -⟩⟩ := leases_operate found held
    · exact fits.leased m s present old
    · exact absurd made spared

theorem fits_retain (fits : e.Fits r l) (h : r.Tidy) (names : List TransportName) : e.Fits (r.retain names) l where
  issued := fits.issued
  ticket := fits.ticket
  held ticket deadline m same := (fits.held ticket deadline m same).retain h names
  key := fits.key
  reached m a same := by
    rw [slot?_retain h]
    exact fits.reached m a same
  leased m s found held := by
    rw [slot?_retain h] at found
    exact fits.leased m s found held

theorem fits_create (fits : e.Fits r l) (h : r.Tidy) {name : TransportName} (absent : r.pool.find? name = none)
    (limits : TransportLimits) (now : Nat) : e.Fits { r with pool := (r.pool.configure name limits now).1 } l where
  issued := by
    simp only [Pool.configure, absent]
    exact fits.issued
  ticket := fits.ticket
  held ticket deadline m same := (fits.held ticket deadline m same).create h absent limits now
  key := fits.key
  reached m a same := by
    rw [(h.create absent limits now).2.1]
    split
    · exact Option.some_ne_none _
    · exact fits.reached m a same
  leased m s found held := by
    rw [(h.create absent limits now).2.1] at found
    split at found
    · cases found
      cases held
    · exact fits.leased m s found held

theorem empty_sound : empty.Sound where
  numbered := ⟨List.nodup_nil, List.nodup_nil, by simp [empty, Pool.empty]⟩
  gone := nofun
  older := nofun
  slots := nofun
  calls := nofun
  issued := nofun

/-- An archive is sound in which one acquisition is kept anew, if that fits and so do all others. -/
theorem sound_keep {e : Option Errand} (tidy : r.Tidy)
    (issued : ∀ n s k, r.slot? n = some s → k ∈ s.leases.map (·.1) → k < r.pool.nextLease)
    (others : ∀ k e', k ≠ l → r.calls k = some e' → e'.Fits r k) (mine : ∀ e', e = some e' → e'.Fits r l) :
    (r.keep l e).Sound where
  toTidy := ⟨tidy.numbered, tidy.gone, tidy.older, tidy.slots⟩
  issued := issued
  calls := by
    intro k e' kept
    have fits : e'.Fits r k := by
      simp only [Archive.keep] at kept
      split at kept
      · rename_i same
        exact same ▸ mine e' kept
      · rename_i other
        exact others k e' other kept
    exact ⟨fits.issued, fits.ticket, fits.held, fits.key, fits.reached, fits.leased⟩

/-- What becomes of one acquisition does not touch the others. -/
theorem Sound.keep (h : r.Sound) {e : Option Errand} (fits : ∀ e', e = some e' → e'.Fits r l) : (r.keep l e).Sound :=
  sound_keep h.toTidy h.issued (fun k e' _ kept => h.calls k e' kept) fits

theorem issued_operate (h : r.Sound) (now n : Nat) (made : ∀ lease, op.newLease? = some lease → lease < r.pool.nextLease) :
    ∀ m s l, (r.operate now n op).slot? m = some s → l ∈ s.leases.map (·.1) →
      l < (r.operate now n op).pool.nextLease := by
  intro m s' l found held
  have next : (r.operate now n op).pool.nextLease = r.pool.nextLease := Pool.nextLease_adjust r.pool n _
  rw [next]
  obtain ⟨s, present, old | ⟨-, new, -⟩⟩ := leases_operate found held
  · exact h.issued m s l present old
  · exact made l new

/-- An operation that makes no lease changes nothing that is known of the acquisitions. -/
theorem Sound.operate (h : r.Sound) (suits : r.Suits n op) (now : Nat) (none : op.newLease? = none) :
    (r.operate now n op).Sound where
  toTidy := h.toTidy.operate suits now
  calls l e kept := fits_operate (h.calls l e kept) h.toTidy suits now (by rw [none]; nofun)
  issued := issued_operate h now n (by rw [none]; nofun)

/-- An operation that makes a lease is performed by the acquisition that has its id. -/
theorem Sound.operate_keep (h : r.Sound) (suits : r.Suits n op) (made : op.newLease? = some l)
    (fits : e.Fits (r.operate now n op) l) : ((r.operate now n op).keep l (some e)).Sound := by
  have next : (r.operate now n op).pool.nextLease = r.pool.nextLease := Pool.nextLease_adjust r.pool n _
  apply sound_keep (h.toTidy.operate suits now)
  · apply issued_operate h now n
    intro lease also
    cases made.symm.trans also
    exact next ▸ fits.issued
  · intro k e' other kept
    apply fits_operate (h.calls k e' kept) h.toTidy suits now
    rw [made]
    rintro ⟨⟩
    exact other rfl
  · rintro e' ⟨⟩
    exact fits

/-! ### Every step -/

theorem suits_late (r : Archive) (n : Nat) (op : Operation) (late : op.Late) (none : op.newLease? = none) : r.Suits n op :=
  ⟨by rw [none]; nofun, Or.inr late⟩

/-- A lease is new wherever its acquisition gets it. -/
theorem Sound.suits_new (h : r.Sound) {ticket : LeaseTicket} (waits : r.calls l = some e)
    (ahead : e.ticket? = some ticket) (made : op.newLease? = some ticket.leaseId) (free : r.dropped n = none ∨ op.Late) :
    r.Suits n op := by
  have fits := h.calls l e waits
  refine ⟨fun lease also s found => ?_, free⟩
  cases made.symm.trans also
  rw [fits.ticket ticket ahead]
  exact fits.unleased ahead found

theorem Sound.fits_enter (h : r.Sound) {ticket : LeaseTicket} {deadline : Nat} {s : Slot}
    (holds : r.calls ticket.leaseId = some (.holding ticket deadline n)) (found : r.slot? n = some s) :
    (Errand.entered n (some (.entered ticket n deadline now (s.enter now ticket.leaseId deadline).2))).Fits
      (r.operate now n (.enter ticket.leaseId deadline)) ticket.leaseId where
  issued := (Pool.nextLease_adjust r.pool n _).symm ▸ (h.calls _ _ holds).issued
  ticket ticket' waits := congrArg LeaseTicket.leaseId (Acquisition.entered_waits waits).1
  held := nofun
  key := by
    intro m ticket' key deadline' same
    obtain ⟨-, waiter, queued⟩ := Acquisition.entered_waits (congrArg Errand.ticket? same)
    rw [queued] at same
    cases same
    rfl
  reached := by
    rintro m a ⟨⟩
    rw [slot?_operate, found]
    nofun
  leased := by
    intro m s' present held
    obtain ⟨s₁, before, old | ⟨rfl, -, ⟨deadline', grant, ⟨⟩, granted⟩ | ⟨_, _, ⟨⟩, -⟩⟩⟩ := leases_operate present held
    · exact absurd old ((h.calls _ _ holds).unleased rfl before)
    · cases found.symm.trans before
      refine ⟨_, rfl, ?_⟩
      rw [granted]
      exact Acquisition.paced_ticket? _ _ _ _

theorem Sound.fits_claim (h : r.Sound) {ticket : LeaseTicket} {key : WaitKey} {deadline grant : Nat}
    (queued : r.calls ticket.leaseId = some (.entered n (some (.queued ticket key deadline)))) :
    (Errand.entered n (some (.paced ticket grant now))).Fits (r.operate now n (.claim key.waiter ticket.leaseId))
      ticket.leaseId where
  issued := (Pool.nextLease_adjust r.pool n _).symm ▸ (h.calls _ _ queued).issued
  ticket := by
    intro ticket' waits
    cases (Acquisition.paced_ticket? n ticket grant now).symm.trans waits
  held := nofun
  key := by
    intro m ticket' key' deadline' same
    cases (Acquisition.paced_ticket? n ticket grant now).symm.trans (congrArg Errand.ticket? same)
  reached := by
    rintro m a ⟨⟩
    rw [slot?_operate, Ne, Option.map_eq_none_iff]
    exact (h.calls _ _ queued).reached n _ rfl
  leased := by
    intro m s' present held
    obtain ⟨s, before, old | ⟨rfl, -⟩⟩ := leases_operate present held
    · exact absurd old ((h.calls _ _ queued).unleased rfl before)
    · exact ⟨_, rfl, Acquisition.paced_ticket? _ _ _ _⟩

theorem Sound.fits_lookUp (h : r.Sound) {ticket : LeaseTicket} {deadline : Nat}
    (seeks : r.calls l = some (.seeking ticket deadline)) :
    Errand.Fits
      (match r.pool.find? ticket.transport with
        | some g => .holding ticket deadline g.number
        | none => .refused (.unknownTransport ticket.transport.text)) r l := by
  have fits := h.calls l _ seeks
  have unleased (n : Nat) (s : Slot) (found : r.slot? n = some s) := fits.unleased rfl found
  cases found : r.pool.find? ticket.transport with
  | none =>
    refine ⟨fits.issued, nofun, nofun, nofun, nofun, fun n s present held => ?_⟩
    exact absurd held (unleased n s present)
  | some g =>
    refine ⟨fits.issued, ?_, ?_, nofun, nofun, fun n s present held => ?_⟩
    · rintro _ ⟨⟩
      exact fits.ticket ticket rfl
    · rintro _ _ _ ⟨⟩
      exact Or.inl ⟨g, found, rfl⟩
    · exact absurd held (unleased n s present)

theorem Sound.request (h : r.Sound) (transport : TransportName) (deadline : Nat) :
    ({ r with pool := { r.pool with nextLease := r.pool.nextLease + 1 } }.keep r.pool.nextLease
      (some (.seeking ⟨transport, r.pool.nextLease⟩ deadline))).Sound := by
  let begun : Archive := { r with pool := { r.pool with nextLease := r.pool.nextLease + 1 } }
  have sound : begun.Sound :=
    { numbered := ⟨h.numbered.names_nodup, h.numbered.numbers_nodup, h.numbered.issued⟩
      gone := h.gone
      older := h.older
      slots := h.slots
      calls := fun k e kept =>
        have fits := h.calls k e kept
        ⟨Nat.lt_succ_of_lt fits.issued, fits.ticket, fits.held, fits.key, fits.reached, fits.leased⟩
      issued := fun n s k found held => Nat.lt_succ_of_lt (h.issued n s k found held) }
  apply sound.keep
  rintro e ⟨⟩
  refine ⟨Nat.lt_succ_self _, ?_, nofun, nofun, nofun, fun n s found held => ?_⟩
  · rintro ticket ⟨⟩
    rfl
  · exact absurd (h.issued n s _ found held) (Nat.lt_irrefl _)

/-- Every step keeps the archive sound. -/
theorem Sound.step (h : r.Sound) {lease : Option Nat} {r' : Archive} (step : Step now r lease r') : r'.Sound := by
  cases step with
  | request transport timeout => exact h.request transport _
  | lookUp seeks =>
    apply h.keep
    rintro e ⟨⟩
    exact h.fits_lookUp seeks
  | redirect holds gone =>
    have fits := h.calls _ _ holds
    apply h.keep
    rintro e ⟨⟩
    refine ⟨fits.issued, fits.ticket, nofun, nofun, nofun, fun n s found held => ?_⟩
    exact absurd held (fits.unleased rfl found)
  | enter holds alive found =>
    obtain rfl := (h.calls _ _ holds).ticket _ rfl
    exact h.operate_keep (h.suits_new holds rfl rfl (Or.inl alive)) rfl (h.fits_enter holds found)
  | claim queued found handed =>
    obtain rfl := (h.calls _ _ queued).ticket _ rfl
    exact h.operate_keep (h.suits_new queued rfl rfl (Or.inr trivial)) rfl (h.fits_claim queued)
  | hangUp queued cause => exact h.operate (suits_late r _ (.hangUp _ cause) trivial rfl) now rfl
  | @leave _ n _ key _ _ queued found ends =>
    have suits := suits_late r n (.leave key.waiter .expired) trivial rfl
    have fits := fits_operate (h.calls _ _ queued) h.toTidy suits now nofun
    apply (h.operate suits now rfl).keep
    rintro e ⟨⟩
    exact fits.settled rfl
  | @abandon _ n _ key _ queued =>
    have suits := suits_late r n (.leave key.waiter .cancelled) trivial rfl
    have fits := fits_operate (h.calls _ _ queued) h.toTidy suits now nofun
    apply (h.operate suits now rfl).keep
    rintro e ⟨⟩
    exact fits.settled rfl
  | pace pacing =>
    apply h.keep
    rintro e ⟨⟩
    exact (h.calls _ _ pacing).settled (Acquisition.paced_ticket? _ _ _ _)
  | withdraw waits outside => exact h.keep nofun
  | forget waits apart =>
    apply h.keep
    rintro e ⟨⟩
    exact (h.calls _ _ waits).settled rfl
  | release n lease => exact h.operate (suits_late r n (.release lease) trivial rfl) now rfl
  | reclaim n maxHold => exact h.operate (suits_late r n (.reclaim maxHold) trivial rfl) now rfl
  | @limit _ g found limits =>
    have suits : r.Suits g.number (.configure limits) := ⟨fun _ made => (by cases made), Or.inl (h.alive found)⟩
    exact h.operate suits now rfl
  | create absent limits =>
    refine { toTidy := (h.toTidy.create absent limits now).1, calls := fun l e kept => ?_, issued := ?_ }
    · exact fits_create (h.calls l e kept) h.toTidy absent limits now
    · intro n s l found held
      rw [(h.toTidy.create absent limits now).2.1] at found
      simp only [Pool.configure, absent]
      split at found
      · cases found
        cases held
      · exact h.issued n s l found held
  | sweep names =>
    refine { toTidy := h.toTidy.retain names, calls := fun l e kept => fits_retain (h.calls l e kept) h.toTidy names,
             issued := fun n s l found held => ?_ }
    rw [slot?_retain h.toTidy] at found
    exact h.issued n s l found held

/-- So does every run. -/
theorem Runs.sound {r' : Archive} (runs : Runs r r') (h : r.Sound) : r'.Sound := by
  induction runs with
  | refl => exact h
  | tail _ step ih =>
    obtain ⟨now, lease, step⟩ := step
    exact ih.step step

end Archive

end RelayRamp.Lease
