import RelayRamp.Proofs.Lease.Interleaving

/-!
# Generations that were dropped

Once a transport is dropped its slots are dead. No step changes them, and none of a caller that had entered them changes
anything else: its queue entry and its lease are nowhere, whatever has the same number in the slots that the transport has
now. A caller that had only looked them up is sent on to those, or hears that the transport is unknown.
-/
namespace RelayRamp.Lease

open RelayRamp.Admission RelayRamp.Routing

namespace Archive

variable {r r' : Archive} {now n m l : Nat} {lease : Option Nat} {op : Operation} {name : TransportName}

/-- A step performs an operation that suits the slots, sets up a transport, sweeps, or leaves all slots alone. -/
theorem Sound.effect (h : r.Sound) (step : Step now r lease r') :
    (∃ n op, r.Suits n op ∧ r'.pool = (r.operate now n op).pool ∧ r'.dropped = (r.operate now n op).dropped) ∨
    (∃ transport limits, r.pool.find? transport = none ∧ r'.pool = (r.pool.configure transport limits now).1 ∧
      r'.dropped = r.dropped) ∨
    (∃ names, r' = r.retain names) ∨
    r'.pool.slots = r.pool.slots ∧ r'.dropped = r.dropped := by
  cases step with
  | request | lookUp | redirect | pace | withdraw | forget => exact Or.inr (Or.inr (Or.inr ⟨rfl, rfl⟩))
  | @enter _ ticket deadline n _ holds alive found =>
    exact Or.inl ⟨n, .enter ticket.leaseId deadline, h.suits_new holds rfl rfl (Or.inl alive), rfl, rfl⟩
  | @claim _ n ticket key _ _ _ queued found handed =>
    exact Or.inl ⟨n, .claim key.waiter ticket.leaseId, h.suits_new queued rfl rfl (Or.inr trivial), rfl, rfl⟩
  | @hangUp _ n _ key _ queued cause =>
    exact Or.inl ⟨n, .hangUp key.waiter cause, suits_late r n _ trivial rfl, rfl, rfl⟩
  | @leave _ n _ key _ _ queued found ends =>
    exact Or.inl ⟨n, .leave key.waiter .expired, suits_late r n _ trivial rfl, rfl, rfl⟩
  | @abandon _ n _ key _ queued =>
    exact Or.inl ⟨n, .leave key.waiter .cancelled, suits_late r n _ trivial rfl, rfl, rfl⟩
  | release n lease => exact Or.inl ⟨n, .release lease, suits_late r n _ trivial rfl, rfl, rfl⟩
  | reclaim n maxHold => exact Or.inl ⟨n, .reclaim maxHold, suits_late r n _ trivial rfl, rfl, rfl⟩
  | @limit _ g found limits =>
    exact Or.inl ⟨g.number, .configure limits, ⟨fun _ made => (by cases made), Or.inl (h.alive found)⟩, rfl, rfl⟩
  | @create transport absent limits => exact Or.inr (Or.inl ⟨transport, limits, absent, rfl, rfl⟩)
  | sweep names => exact Or.inr (Or.inr (Or.inl ⟨names, rfl⟩))

/-- No step changes slots that were dropped. -/
theorem Sound.dropped_step (h : r.Sound) (step : Step now r lease r') {entry : TransportName × Slot}
    (dropped : r.dropped n = some entry) : r'.dropped n = some entry := by
  rcases h.effect step with ⟨m, op, suits, -, same⟩ | ⟨_, _, -, -, same⟩ | ⟨names, rfl⟩ | ⟨-, same⟩
  · rw [same, dropped_operate h.toTidy suits.2, dropped]
  · rw [same, dropped]
  · exact (dropped_retain h.toTidy names).mpr (Or.inl dropped)
  · rw [same, dropped]

/-- A generation stays one of its transport. -/
theorem Sound.of_step (h : r.Sound) (step : Step now r lease r') (of : r.Of m name) : r'.Of m name := by
  rcases h.effect step with ⟨n, op, suits, pool, dropped⟩ | ⟨_, limits, absent, pool, dropped⟩ | ⟨names, rfl⟩ |
    ⟨slots, dropped⟩
  · have after := of.operate h.toTidy suits now
    rwa [Of, ← pool, ← dropped] at after
  · have after := of.create h.toTidy absent limits now
    rwa [Of, ← pool, ← dropped] at after
  · exact of.retain h.toTidy names
  · have same : r'.pool.find? name = r.pool.find? name := congrArg (Roster.get? name) slots
    rwa [Of, ← same, ← dropped] at of

/-- A step changes what is kept of the acquisition that it is made for, and of no other. -/
theorem calls_step (step : Step now r lease r') (other : lease ≠ some l) : r'.calls l = r.calls l := by
  have kept (q : Archive) (k : Nat) (e : Option Errand) (differs : some k ≠ some l) : (q.keep k e).calls l = q.calls l :=
    if_neg fun same => differs (congrArg some same.symm)
  cases step with
  | release | reclaim | limit | create | sweep | hangUp => rfl
  | _ => exact kept _ _ _ other

theorem nextLease_step (step : Step now r lease r') : r.pool.nextLease ≤ r'.pool.nextLease := by
  cases step with
  | request => exact Nat.le_succ _
  | lookUp | redirect | pace | withdraw | forget | sweep => exact Nat.le_refl _
  | create absent =>
    simp only [Pool.configure, absent]
    exact Nat.le_refl _
  | _ => exact Nat.le_of_eq (Pool.nextLease_adjust ..).symm

/-! ### Those that had entered -/

/-- Where an acquisition has entered, there it has entered for good. -/
theorem Sound.entered_step (h : r.Sound) (step : Step now r lease r') {a : Option Acquisition}
    (entered : r.calls l = some (.entered n a)) : ∃ a', r'.calls l = some (.entered n a') := by
  by_cases mine : lease = some l
  · subst mine
    cases step with
    | request => exact absurd (h.calls _ _ entered).issued (Nat.lt_irrefl _)
    | lookUp waits | redirect waits | enter waits => cases entered.symm.trans waits
    | withdraw waits outside =>
      cases entered.symm.trans waits
      exact absurd rfl (outside n a)
    | claim waits | leave waits | abandon waits | pace waits | forget waits =>
      cases entered.symm.trans waits
      exact ⟨_, if_pos rfl⟩
    | hangUp | release => exact ⟨a, entered⟩
  · exact ⟨a, (calls_step step mine).trans entered⟩

/-- Nothing is changed by an operation on dropped slots that callers perform who had entered them. -/
theorem operate_dead (h : r.Tidy) {entry : TransportName × Slot} (dropped : r.dropped n = some entry) (late : op.Late)
    (now : Nat) : (r.operate now n op).pool = r.pool ∧ (r.operate now n op).dropped = r.dropped := by
  have gone : r.pool.slot? n = none := (h.gone n entry.1 entry.2 dropped).1
  constructor
  · apply Pool.adjust_self h.numbered
    intro s present
    cases gone.symm.trans present
  · exact dropped_operate h (Or.inr late) now

/-- An acquisition that had entered slots that were dropped changes no slots any more, neither those nor any in the pool. -/
theorem Sound.dead_step (h : r.Sound) (step : Step now r (some l) r') {a : Option Acquisition}
    {entry : TransportName × Slot} (entered : r.calls l = some (.entered n a)) (dropped : r.dropped n = some entry) :
    r'.pool = r.pool ∧ r'.dropped = r.dropped := by
  cases step with
  | request => exact absurd (h.calls _ _ entered).issued (Nat.lt_irrefl _)
  | lookUp waits | redirect waits | enter waits => cases entered.symm.trans waits
  | withdraw | pace | forget => exact ⟨rfl, rfl⟩
  | claim waits | leave waits | abandon waits | hangUp waits =>
    cases entered.symm.trans waits
    exact operate_dead h.toTidy dropped (by trivial) now
  | release m =>
    constructor
    · apply Pool.adjust_self h.numbered
      intro s present
      apply Slot.step_release
      intro held
      -- The lease could only be in the slots that were dropped, and these are not in the pool.
      obtain ⟨b, same, -⟩ := (h.calls l _ entered).leased m s (slot?_of_pool present) held
      cases same
      cases (h.gone n entry.1 entry.2 dropped).1.symm.trans present
    · exact dropped_operate h.toTidy (Or.inr (by trivial)) now

/-! ### Those that had not -/

/-- What can have become of an acquisition that held slots of a transport when they were dropped: it holds them still, looks
its transport up again, holds or has entered slots that the transport got since, was refused because it is not in the
pool, or was given up. -/
inductive Redirected (r : Archive) (n : Nat) (ticket : LeaseTicket) (deadline : Nat) : Option Errand → Prop where
  | stale : Redirected r n ticket deadline (some (.holding ticket deadline n))
  | seeking : Redirected r n ticket deadline (some (.seeking ticket deadline))
  | holding {k} (later : n < k) (of : r.Of k ticket.transport) :
    Redirected r n ticket deadline (some (.holding ticket deadline k))
  | entered {k a} (later : n < k) (of : r.Of k ticket.transport) :
    Redirected r n ticket deadline (some (.entered k a))
  | refused : Redirected r n ticket deadline (some (.refused (.unknownTransport ticket.transport.text)))
  | withdrawn : Redirected r n ticket deadline none

variable {ticket : LeaseTicket} {deadline : Nat} {s : Slot} {e : Option Errand}

theorem Redirected.mono (fate : Redirected r n ticket deadline e)
    (stays : ∀ m, r.Of m ticket.transport → r'.Of m ticket.transport) : Redirected r' n ticket deadline e := by
  cases fate with
  | stale => exact .stale
  | seeking => exact .seeking
  | holding later of => exact .holding later (stays _ of)
  | entered later of => exact .entered later (stays _ of)
  | refused => exact .refused
  | withdrawn => exact .withdrawn

/-- A look-up finds slots that the transport got since, or the acquisition is refused. -/
theorem Redirected.looked (h : r.Sound) (dropped : r.dropped n = some (ticket.transport, s)) :
    Redirected r n ticket deadline
      (some
        (match r.pool.find? ticket.transport with
          | some g => .holding ticket deadline g.number
          | none => .refused (.unknownTransport ticket.transport.text))) := by
  cases found : r.pool.find? ticket.transport with
  | none => exact .refused
  | some g => exact .holding (h.older n _ s g dropped found) (Or.inl ⟨g, found, rfl⟩)

/-- Every step leaves an acquisition that held dropped slots with one of these fates. -/
theorem Sound.redirected_step (h : r.Sound) (step : Step now r lease r') (issued : l < r.pool.nextLease)
    (dropped : r.dropped n = some (ticket.transport, s)) (fate : Redirected r n ticket deadline (r.calls l)) :
    Redirected r' n ticket deadline (r'.calls l) := by
  apply Redirected.mono (r := r) _ fun m of => h.of_step step of
  by_cases mine : lease = some l
  · subst mine
    have kept (q : Archive) (e : Option Errand) (as : Redirected r n ticket deadline e) :
        Redirected r n ticket deadline ((q.keep l e).calls l) := by
      rwa [calls_keep]
    -- What is kept for the acquisition is given by the step, so its fate tells which steps it can take.
    cases step with
    | request => exact absurd issued (Nat.lt_irrefl _)
    | hangUp | release => exact fate
    | withdraw => exact kept _ _ .withdrawn
    | lookUp seeks =>
      rw [seeks] at fate
      cases fate
      exact kept _ _ (.looked h dropped)
    | redirect holds =>
      rw [holds] at fate
      apply kept
      cases fate <;> exact .seeking
    | enter holds alive =>
      rw [holds] at fate
      cases fate with
      | stale => cases alive.symm.trans dropped
      | holding later of => exact kept _ _ (.entered later of)
    | claim waits | leave waits | abandon waits | pace waits | forget waits =>
      rw [waits] at fate
      cases fate with
      | entered later of => exact kept _ _ (.entered later of)
  · exact calls_step step mine ▸ fate

/-! ### Every run -/

/-- What every step keeps, every run keeps. -/
theorem Runs.keeps {motive : Archive → Prop} (runs : Runs r r') (h : r.Sound) (start : motive r)
    (kept : ∀ q q' now lease, q.Sound → Step now q lease q' → motive q → motive q') : motive r' := by
  induction runs with
  | refl => exact start
  | @tail q q' before step ih =>
    obtain ⟨now, lease, step⟩ := step
    exact kept q q' now lease (Runs.sound before h) step ih

/-- However long ago a generation was dropped, its slots are as they were. -/
theorem Runs.dropped (runs : Runs r r') (h : r.Sound) {entry : TransportName × Slot} (dropped : r.dropped n = some entry) :
    r'.dropped n = some entry :=
  runs.keeps h (motive := fun q => q.dropped n = some entry) dropped fun _ _ _ _ sound step => sound.dropped_step step

theorem Runs.entered (runs : Runs r r') (h : r.Sound) {a : Option Acquisition} (entered : r.calls l = some (.entered n a)) :
    ∃ a', r'.calls l = some (.entered n a') := by
  apply runs.keeps h (motive := fun q => ∃ a', q.calls l = some (.entered n a')) ⟨a, entered⟩
  rintro q q' now lease sound step ⟨a', there⟩
  exact sound.entered_step step there

theorem Runs.redirected (runs : Runs r r') (h : r.Sound) (holds : r.calls l = some (.holding ticket deadline n))
    (dropped : r.dropped n = some (ticket.transport, s)) : Redirected r' n ticket deadline (r'.calls l) := by
  have issued := (h.calls l _ holds).issued
  have all := runs.keeps h (motive := fun q => l < q.pool.nextLease ∧ q.dropped n = some (ticket.transport, s) ∧
    Redirected q n ticket deadline (q.calls l)) ⟨issued, dropped, holds.symm ▸ .stale⟩ (by
      rintro q q' now lease sound step ⟨issued, dropped, fate⟩
      exact ⟨Nat.lt_of_lt_of_le issued (nextLease_step step), sound.dropped_step step dropped,
        sound.redirected_step step issued dropped fate⟩)
  exact all.2.2

/-- An acquisition that holds dropped slots can always go on, and is refused or enters the slots that its transport has. -/
theorem Sound.goes_on (h : r.Sound) (holds : r.calls l = some (.holding ticket deadline n))
    (dropped : r.dropped n = some (ticket.transport, s)) (now : Nat) :
    ∃ r₁ r₂, Step now r (some l) r₁ ∧ Step now r₁ (some l) r₂ ∧
      (r.pool.find? ticket.transport = none ∧
          r₂.calls l = some (.refused (.unknownTransport ticket.transport.text)) ∨
        ∃ g r₃ a, r.pool.find? ticket.transport = some g ∧ Step now r₂ (some l) r₃ ∧
          r₃.calls l = some (.entered g.number (some a))) := by
  let seeking := r.keep l (some (.seeking ticket deadline))
  have redirects : Step now r (some l) seeking := .redirect holds dropped
  have looked : Step now seeking (some l) _ := .lookUp (calls_keep ..)
  refine ⟨seeking, _, redirects, looked, ?_⟩
  cases found : r.pool.find? ticket.transport with
  | none =>
    have absent : seeking.pool.find? ticket.transport = none := found
    rw [absent]
    exact Or.inl ⟨rfl, calls_keep ..⟩
  | some g =>
    have present : seeking.pool.find? ticket.transport = some g := found
    rw [present]
    let holding := seeking.keep l (some (.holding ticket deadline g.number))
    have same : holding.slot? g.number = some g.slot := slot?_of_find? (r := r) h.toTidy found
    have entered : Step now holding (some l) _ := .enter (calls_keep ..) (h.alive found) same
    exact Or.inr ⟨g, _, _, rfl, entered, calls_keep ..⟩

/-- What is so of a generation from when it was dropped. -/
structure Dead (r : Archive) (n : Nat) (transport : TransportName) (s : Slot) : Prop where
  /-- Its slots stay as they are, and not in the pool. -/
  frozen : ∀ r', Runs r r' → r'.dropped n = some (transport, s) ∧ r'.pool.slot? n = none
  /-- When the transport is set up again it is of a later generation. -/
  replaced : ∀ r' g, Runs r r' → r'.pool.find? transport = some g → n < g.number
  /-- No step of an acquisition that had entered the slots changes these or any in the pool. -/
  spent : ∀ r' r'' now l a, Runs r r' → r.calls l = some (.entered n a) → Step now r' (some l) r'' →
    r''.pool = r'.pool ∧ r''.dropped = r'.dropped
  /-- One that had only looked the transport up gets into slots that the transport was given since, or ends with its fault. -/
  redirected : ∀ r' l ticket deadline, Runs r r' → r.calls l = some (.holding ticket deadline n) →
    ticket.transport = transport ∧ Redirected r' n ticket deadline (r'.calls l)
  /-- Neither has to be waited for: its next steps can be taken at any time. -/
  goes_on : ∀ r' l ticket deadline now, Runs r r' → r'.calls l = some (.holding ticket deadline n) →
    ∃ r₁ r₂, Step now r' (some l) r₁ ∧ Step now r₁ (some l) r₂ ∧
      (r'.pool.find? transport = none ∧ r₂.calls l = some (.refused (.unknownTransport transport.text)) ∨
        ∃ g r₃ a, r'.pool.find? transport = some g ∧ Step now r₂ (some l) r₃ ∧
          r₃.calls l = some (.entered g.number (some a)))

/-- Whoever holds slots that were dropped has looked up their transport. -/
theorem Sound.transport_of_holding (h : r.Sound) (holds : r.calls l = some (.holding ticket deadline n))
    (dropped : r.dropped n = some (name, s)) : ticket.transport = name := by
  rcases (h.calls l _ holds).held ticket deadline n rfl with ⟨g, found, rfl⟩ | ⟨s', same⟩
  · cases (h.alive found).symm.trans dropped
  · cases same.symm.trans dropped
    rfl

theorem Sound.dead (h : r.Sound) (dropped : r.dropped n = some (name, s)) : Dead r n name s where
  frozen r' runs :=
    have stays := runs.dropped h dropped
    ⟨stays, ((runs.sound h).gone n name s stays).1⟩
  replaced r' g runs found := (runs.sound h).older n name s g (runs.dropped h dropped) found
  spent r' r'' now l a runs entered step := by
    obtain ⟨a', there⟩ := runs.entered h entered
    exact (runs.sound h).dead_step step there (runs.dropped h dropped)
  redirected r' l ticket deadline runs holds := by
    obtain rfl := h.transport_of_holding holds dropped
    exact ⟨rfl, runs.redirected h holds dropped⟩
  goes_on r' l ticket deadline now runs holds := by
    have stays := runs.dropped h dropped
    obtain rfl := (runs.sound h).transport_of_holding holds stays
    exact (runs.sound h).goes_on holds stays now

/-- A sweep drops the idle transports that it does not keep, and a dropped transport is dead. That holds in every run of an
archive, and the traffic goes on as in one of these. -/
theorem dropped_is_dead (runs : Runs empty r) :
    (∀ names transport g, r.pool.find? transport = some g → g.slot.isIdle = true → transport ∉ names →
      (r.retain names).pool.find? transport = none ∧ (r.retain names).dropped g.number = some (transport, g.slot)) ∧
    (∀ n transport s, r.dropped n = some (transport, s) → Dead r n transport s) ∧
    ∀ moves, ∃ r', Runs r r' ∧ r'.view = r.view.run moves := by
  have h := runs.sound empty_sound
  refine ⟨fun names transport g found idle unkept => ?_, fun n transport s dropped => h.dead dropped, h.view_run⟩
  constructor
  · exact absent_retain h.toTidy found idle unkept
  · exact (dropped_retain h.toTidy names).mpr (Or.inr ⟨found, idle, unkept⟩)

/-- One caller is passed over and another has looked the transport up when it is dropped and set up again. -/
theorem dropped_is_dead_renewed : ∃ r s, Dead r 0 ⟨"bulk"⟩ s ∧
    r.dropped 0 = some (⟨"bulk"⟩, s) ∧
    r.pool.find? ⟨"bulk"⟩ = some ⟨1, .fresh ⟨1, 0⟩⟩ ∧
    r.calls 2 = some (.entered 0 (some (.queued ⟨⟨"bulk"⟩, 2⟩ ⟨0, 0⟩ 5))) ∧
    r.calls 3 = some (.holding ⟨⟨"bulk"⟩, 3⟩ 20 0) := by
  let bulk : TransportName := ⟨"bulk"⟩
  obtain ⟨r, runs, seen⟩ := empty_sound.view_run
    [(0, .configure bulk ⟨1, 0⟩), (0, .acquire bulk 0), (0, .acquire bulk 5), (6, .release bulk 1)]
  have idle : r.pool = ⟨[(bulk, ⟨0, { Slot.fresh ⟨1, 0⟩ with lastGrant := some 0, nextWaiter := 1 }⟩)], 3, 1⟩ :=
    congrArg Traffic.pool seen
  have waits : r.view.calls 2 = some (.queued ⟨bulk, 2⟩ ⟨0, 0⟩ 5) := congrFun (congrArg Traffic.calls seen) 2
  have queued := ((runs.sound empty_sound).queued_of_view waits).1
  obtain ⟨pool, dropped, calls⟩ := r
  cases idle
  have runs := runs.tail ⟨6, _, .request bulk 14⟩
  have runs := runs.tail ⟨6, some 3, .lookUp rfl⟩
  have swept := ((dropped_is_dead runs).1 [] bulk _ rfl rfl nofun).2
  have runs := runs.tail ⟨6, _, .sweep []⟩
  have runs := runs.tail ⟨6, _, .create (show Pool.find? _ bulk = none from rfl) ⟨1, 0⟩⟩
  exact ⟨_, _, (dropped_is_dead runs).2.1 0 bulk _ swept, swept, rfl, queued, rfl⟩

end Archive

end RelayRamp.Lease
