import RelayRamp.Proofs.Admission.Transports
import RelayRamp.Proofs.Lease.Succession

/-!
# Spacing and the life of a transport

The instant of the last grant is kept in the slots of a transport, and a publication that does not list the transport
drops idle slots with it. So the grants on a transport keep their distance for as long as it stays in the pool; one
that was dropped and comes back starts without a last grant.
-/
namespace RelayRamp.Lease

open RelayRamp.Admission RelayRamp.Routing

namespace Traffic

/-- A ticket was there before the move, or the move begins the acquisition. -/
theorem ticket_step {t : Traffic} {now call : Nat} {move : Move} {a : Acquisition} {ticket : LeaseTicket}
    (present : (t.step now move).calls call = some a) (has : a.ticket? = some ticket) :
    (∃ old, t.calls call = some old ∧ old.ticket? = some ticket) ∨
      ∃ transport timeout g, move = .acquire transport timeout ∧ call = t.pool.nextLease ∧
        ticket = ⟨transport, call⟩ ∧ t.pool.find? transport = some g := by
  have inHand (holds : a.lease? = some ticket) : (∃ old, t.calls call = some old ∧ old.ticket? = some ticket) ∨
      ∃ transport timeout g, move = .acquire transport timeout ∧ call = t.pool.nextLease ∧
        ticket = ⟨transport, call⟩ ∧ t.pool.find? transport = some g := by
    rcases in_hand_step present holds with ⟨old, waits, holds', -⟩ |
      ⟨transport, timeout, g, _, begins, new, own, found, -⟩ | ⟨key, deadline, _, _, _, -, waits, -⟩
    · refine Or.inl ⟨old, waits, ?_⟩
      cases old <;> first | exact holds' | cases holds'
    · exact Or.inr ⟨transport, timeout, g, begins, new, own, found⟩
    · exact Or.inl ⟨_, waits, rfl⟩
  cases a with
  | queued ticket' key deadline =>
    cases has
    rcases queued_step present with ⟨waited, -⟩ | ⟨transport, timeout, g, begins, new, own, found, -⟩
    · exact Or.inl ⟨_, waited, rfl⟩
    · exact Or.inr ⟨transport, timeout, g, begins, new, own, found⟩
  | pacing | granted => exact inHand has
  | requested | failed => cases has

/-- Whoever has a ticket is on the record of a generation that its transport was of. -/
theorem ticket_registered (moves : List (Nat × Move)) {call : Nat} {a : Acquisition} {ticket : LeaseTicket}
    (present : (empty.run moves).calls call = some a) (has : a.ticket? = some ticket) :
    ∃ n, Was moves ticket.transport n ∧ ∃ c ∈ (Diary.empty.run moves).callers n, c.lease = call := by
  induction moves using List.reverseRecOn generalizing a with
  | nil => cases present
  | append_singleton moves last ih =>
    obtain ⟨now, move⟩ := last
    rw [run_append] at present
    rcases ticket_step present has with ⟨old, waits, has'⟩ | ⟨transport, timeout, g, rfl, rfl, rfl, found⟩
    · obtain ⟨n, was, c, member, lease⟩ := ih waits has'
      obtain ⟨c', member', follows⟩ := callers_run _ member [(now, move)]
      exact ⟨n, was.more _, c', by rwa [diary_run_append], follows.1.trans lease⟩
    · refine ⟨g.number, (was_now found).more _, _, ?_, (g.slot.enrol_lease now _ (now + timeout)).1⟩
      have recorded := Diary.callers_acquire (Diary.run_sound moves) (by rwa [diary_traffic]) timeout now
      rw [diary_run_append]
      change _ ∈ ((Diary.empty.run moves).step now (.acquire transport timeout)).callers g.number
      rw [recorded, diary_traffic]
      exact mem_snoc_iff.mpr (Or.inr rfl)

end Traffic

/-- Of two callers with grants the second keeps its rate delay to the first. -/
theorem Caller.Before.spaced {a b : Caller} (before : a.Before b) {earlier inForce grant delay : Nat}
    (here : a.fate = .promised earlier inForce) (there : b.fate = .promised grant delay) :
    earlier + delay ≤ grant := by
  rcases before grant delay there with ⟨earlier', delay', here', spaced⟩ | excused
  · cases here.symm.trans here'
    exact spaced
  · simp [Excused, here] at excused

/-- A grant is reserved with the rate delay in force. -/
theorem Diary.Sound.in_force {d : Diary} (h : d.Sound) {now n : Nat} {move : Move} {c : Caller}
    (member : c ∈ (d.step now move).callers n) (new : c ∉ d.callers n) {grant delay : Nat}
    (promised : c.fate = .promised grant delay) :
    ∃ slot, (d.step now move).traffic.pool.slot? n = some slot ∧ slot.rateDelay = delay := by
  rcases Diary.callers_step d now move n with ⟨unchanged, -⟩ | ⟨s, op, found, performed, -⟩
  · exact absurd (unchanged ▸ member) new
  · have found' : (d.step now move).traffic.pool.slot? n = some (s.step now op).1 := by
      rcases Traffic.slot?_step h.traffic.numbered now move n with same | ⟨keep, _, rfl, -⟩ | ⟨_, _, -, absent, -⟩
      · exact same.trans (by rw [found, performed]; rfl)
      · cases performed
      · cases absent.symm.trans found
    have decided := Diary.decided_step h found' member new
    simp only [Diary.Decided, promised] at decided
    exact ⟨_, found', decided.symm⟩

end RelayRamp.Lease

namespace RelayRamp.Admission

open RelayRamp.Lease RelayRamp.Plane RelayRamp.Routing RelayRamp.Store RelayRamp.Time RelayRamp.Warmup

namespace Service

variable {σ : Type} [ThrottleStore σ] {p : Plane σ} {acts : List (Moment × Act)} {moves : List (Nat × Move)}
  {moment : Moment} {act : Act} {name : TransportName} {g : Generation}

/-! ### The moves of a run -/

/-- The moves of the opening and then those of each act, in order; after each of them the traffic shows the service. -/
inductive Rendered (p : Plane σ) : List (Moment × Act) → List (Nat × Move) → Prop
  | first {moves : List (Nat × Move)} (mirrors : ∃ holder, (opened p).Mirrors moves holder) : Rendered p [] moves
  | next {acts : List (Moment × Act)} {moves rest : List (Nat × Move)} {moment : Moment} {act : Act}
      (earlier : Rendered p acts moves) (renders : Renders moment (Traffic.empty.run moves) act rest)
      (mirrors : ∃ holder, ((opened p).run (acts ++ [(moment, act)])).Mirrors (moves ++ rest) holder) :
      Rendered p (acts ++ [(moment, act)]) (moves ++ rest)

theorem Rendered.mirrors (rendered : Rendered p acts moves) :
    ∃ holder, ((opened p).run acts).Mirrors moves holder := by
  cases rendered with
  | first mirrors => exact mirrors
  | next _ _ mirrors => exact mirrors

theorem run_rendered {store : σ} {settings : EngineSettings} {opening : Moment} {effects : Effects}
    (launched : Plane.launch store settings opening = .ok (p, effects)) (acts : List (Moment × Act)) :
    ∃ moves, Rendered p acts moves := by
  induction acts using List.reverseRecOn with
  | nil =>
    obtain ⟨moves, traced⟩ := launched_traced launched
    exact ⟨moves, .first ⟨_, traced.mirrors⟩⟩
  | append_singleton acts last ih =>
    obtain ⟨moves, rendered⟩ := ih
    obtain ⟨holder, mirrors⟩ := rendered.mirrors
    obtain ⟨rest, holder', renders, mirrors', -⟩ := simulates mirrors (run_sound p acts) last.1 last.2
    exact ⟨_, .next rendered renders ⟨holder', by rwa [run_append]⟩⟩

/-- At every time in the run the moves up to then lead to the pool as it was. -/
theorem Rendered.pools (rendered : Rendered p acts moves) {before after : List (Moment × Act)}
    (split : acts = before ++ after) :
    ∃ earlier later, moves = earlier ++ later ∧
      (Traffic.empty.run earlier).pool = ((opened p).run before).plane.pool := by
  induction rendered generalizing after with
  | @first moves mirrors =>
    obtain ⟨rfl, rfl⟩ := List.append_eq_nil_iff.mp split.symm
    obtain ⟨holder, mirrors⟩ := mirrors
    exact ⟨moves, [], (List.append_nil moves).symm, mirrors.pool⟩
  | @next acts moves rest moment act _ _ mirrors ih =>
    rcases split_snoc split with rfl | ⟨between, same⟩
    · obtain ⟨holder, mirrors⟩ := mirrors
      exact ⟨moves ++ rest, [], (List.append_nil _).symm, mirrors.pool⟩
    · obtain ⟨earlier, later, rfl, pool⟩ := ih same
      exact ⟨earlier, later ++ rest, List.append_assoc .., pool⟩

/-- An attempt that was admitted with a lease has a grant on record, on the transport of the lease. -/
theorem Rendered.granted (rendered : Rendered p acts moves) {d : Decision}
    (member : d ∈ ((opened p).run acts).decisions) {ticket : LeaseTicket} (lease : d.admission.lease = some ticket) :
    ∃ n, Traffic.Was moves ticket.transport n ∧ ∃ c ∈ (Diary.empty.run moves).callers n,
      c.lease = ticket.leaseId ∧ ∃ grant delay, c.fate = .promised grant delay := by
  induction rendered with
  | first => cases member
  | @next acts moves rest moment act _ _ mirrors ih =>
    obtain ⟨holder, mirrors⟩ := mirrors
    have after : (opened p).run (acts ++ [(moment, act)]) = ((opened p).run acts).step moment act := run_append ..
    rw [after] at member mirrors
    rcases step_decided (run_sound p acts) member with old | ⟨-, submission, present, done⟩
    · obtain ⟨n, was, c, member, mine, grant, delay, fate⟩ := ih old
      obtain ⟨c', member', lease', -, -, fate'⟩ := Traffic.callers_run _ member rest
      exact ⟨n, was.more rest, c', by rwa [Traffic.diary_run_append], lease'.trans mine, grant, delay,
        (fate' (by simp [fate])).trans fate⟩
    · obtain ⟨-, a, kept, shows⟩ := mirrors.bearing present (by rw [done]; exact lease)
      obtain ⟨ticket', bears, has⟩ := shows.ticket
      have same : some ticket = some ticket' := lease.symm.trans (by rw [done] at bears; exact bears)
      cases same
      obtain ⟨n, was, c, inside, own⟩ := Traffic.ticket_registered _ kept has
      have holds : a.lease? ≠ none := by
        rw [done] at shows
        generalize same : Attempt.decided d.admission = attempt at shows
        cases shows with
        | admitted => nofun
        | _ => cases same
      rw [← own, ← Traffic.diary_traffic] at kept
      obtain ⟨grant, delay, fate, -⟩ := (Diary.run_sound _).promised inside kept holds
      exact ⟨n, was, c, inside, own, grant, delay, fate⟩

/-- An act ends the generation of a transport only by publishing a snapshot that does not list it, and only if
nothing held or awaited one of its slots. -/
theorem ended_by_publication (s : Service σ) (numbered : s.plane.pool.Numbered)
    (found : s.plane.pool.find? name = some g)
    (ended : ∀ g', (s.step moment act).plane.pool.find? name = some g' → g'.number ≠ g.number) :
    (∃ command, act = .command command) ∧ (s.step moment act).plane.snapshot.degraded = false ∧
      (s.step moment act).plane.snapshot.matcher.transports.get? name = none ∧ g.slot.isIdle = true := by
  have unsteady : ¬ s.plane.pool.Steady (s.step moment act).plane.pool := by
    intro steady
    have setup := (steady numbered).2 name
    rw [Pool.setup?, Pool.setup?, found] at setup
    obtain ⟨g', found', same⟩ := Option.map_eq_some_iff.mp setup
    exact ended g' found' (congrArg Setup.generation same)
  by_cases commands : ∃ command, act = .command command
  · obtain ⟨command, rfl⟩ := commands
    have performed : (s.step moment (.command command)).plane = command.perform moment s.plane := rfl
    have steers := command.steers moment s.plane
    rw [← performed] at steers
    cases steers with
    | kept kept => exact absurd kept.steady unsteady
    | dimmed dimmed => exact absurd (Pool.steady_same dimmed.pool) unsteady
    | rerouted rerouted =>
      rw [rerouted.pool] at ended
      exact ⟨⟨command, rfl⟩, rerouted.refreshed, Pool.reroute_drops numbered found ended⟩
  · exact absurd (step_kept s moment fun command same => commands ⟨command, same⟩).steady unsteady

/-- Grants on a transport are spaced for as long as it stays in the pool, whatever is done to the rules meanwhile. In
every run each grant is on the record of the generation that its transport is of, with the rate delay then in force,
and so is the lease of every admission; within a generation later grants are that delay after earlier ones. A
transport is of another generation only after a sweep dropped the one before, and that is the work of a publication
that does not list the transport while nothing holds or awaits one of its slots. -/
theorem spaced_while_pooled {store : σ} {settings : EngineSettings} {opening : Moment} {effects : Effects}
    (launched : Plane.launch store settings opening = .ok (p, effects)) (acts : List (Moment × Act)) :
    (∃ moves, Rendered p acts moves) ∧
    (∀ moves, Rendered p acts moves →
      let d := Diary.empty.run moves
      d.traffic = Traffic.empty.run moves ∧
      (∀ before after, acts = before ++ after → ∃ earlier later, moves = earlier ++ later ∧
        (Traffic.empty.run earlier).pool = ((opened p).run before).plane.pool) ∧
      (∀ decision ∈ ((opened p).run acts).decisions, ∀ ticket, decision.admission.lease = some ticket →
        ∃ n, Traffic.Was moves ticket.transport n ∧ ∃ c ∈ d.callers n, c.lease = ticket.leaseId ∧
          ∃ grant delay, c.fate = .promised grant delay) ∧
      (∀ earlier now move later, moves = earlier ++ (now, move) :: later → ∀ n,
        ∀ c ∈ (Diary.empty.run (earlier ++ [(now, move)])).callers n, c ∉ (Diary.empty.run earlier).callers n →
          ∀ grant delay, c.fate = .promised grant delay →
            ∃ slot, (Traffic.empty.run (earlier ++ [(now, move)])).pool.slot? n = some slot ∧
              slot.rateDelay = delay) ∧
      ∀ name n m, Traffic.Was moves name n → Traffic.Was moves name m →
        (n = m → (d.callers n).Pairwise fun a b => ∀ earlier inForce grant delay,
          a.fate = .promised earlier inForce → b.fate = .promised grant delay → earlier + delay ≤ grant) ∧
        (n < m → Traffic.Dropped moves name n)) ∧
    ∀ before moment act after, acts = before ++ (moment, act) :: after → ∀ name g,
      ((opened p).run before).plane.pool.find? name = some g →
      (∀ g', ((opened p).run (before ++ [(moment, act)])).plane.pool.find? name = some g' → g'.number ≠ g.number) →
        let published := ((opened p).run (before ++ [(moment, act)])).plane.snapshot
        (∃ command, act = .command command) ∧ published.degraded = false ∧
          published.matcher.transports.get? name = none ∧ g.slot.isIdle = true := by
  refine ⟨run_rendered launched acts, fun moves rendered => ?_, ?_⟩
  · refine ⟨Traffic.diary_traffic moves, fun before after => rendered.pools,
      fun decision member ticket => rendered.granted member, ?_, fun name n m first second => ⟨?_, ?_⟩⟩
    · rintro earlier now move later - n c member new grant delay promised
      rw [Traffic.diary_run_append] at member
      obtain ⟨slot, found, delays⟩ := (Diary.run_sound earlier).in_force member new promised
      have moved : (Diary.empty.run earlier).step now move = Diary.empty.run (earlier ++ [(now, move)]) := by
        rw [Traffic.diary_run_append]
        rfl
      rw [moved, Traffic.diary_traffic] at found
      exact ⟨slot, found, delays⟩
    · rintro -
      exact ((Diary.run_sound moves).spaced n).imp fun before _ _ _ _ => before.spaced
    · exact first.succession second
  · rintro before moment act after rfl name g found
    rw [run_append]
    exact ended_by_publication _ (run_aligned launched before).numbered found

/-! ### A rule that is switched off and on -/

def slow : TransportName := ⟨"slow"⟩

/-- One delivery on a transport with four seconds between deliveries. -/
def delivering : List (Moment × Act) :=
  [(⟨⟨1⟩, 1⟩, .command (.replacePhases [⟨0, "start", 7, ⟨20, 50, 10⟩⟩])),
    (⟨⟨2⟩, 2⟩, .command (.updateConfig ⟨some true, none⟩)),
    (⟨⟨3⟩, 3⟩, .command (.createRule ⟨"example.org", slow, ⟨1, 4⟩, true, none⟩)),
    (⟨⟨4⟩, 4⟩, .submit (.single "someone@example.org"))]

/-- The delivery ends, the rule is switched off and on, and there is another delivery. -/
def returning : List (Moment × Act) :=
  [(⟨⟨5⟩, 5⟩, .command (.releaseLease slow 1)),
    (⟨⟨6⟩, 6⟩, .command (.updateRule 1 ⟨none, none, none, none, some false, none⟩)),
    (⟨⟨7⟩, 7⟩, .command (.updateRule 1 ⟨none, none, none, none, some true, none⟩)),
    (⟨⟨8⟩, 8⟩, .submit (.single "someone@example.org"))]

def vacant : PlannedStore Backing := ⟨.memory .empty, []⟩

/-- What is seen of a transport: its generation, its rate delay and its leases with their grants. -/
structure Leasing where
  generation : Nat
  rateDelay : Nat
  leases : List (Nat × Nat)
  deriving DecidableEq

def leasing (s : Service σ) (name : TransportName) : Option Leasing :=
  (s.plane.pool.find? name).map fun g => ⟨g.number, g.slot.rateDelay, g.slot.leases⟩

theorem runs_returning :
    ∃ p effects, Plane.launch vacant bare ⟨⟨0⟩, 0⟩ = .ok (p, effects) ∧
      ((opened p).run delivering).leasing slow = some ⟨1, 4000, [(1, 4)]⟩ ∧
      ((opened p).run (delivering ++ returning.take 1)).leasing slow = some ⟨1, 4000, []⟩ ∧
      ((opened p).run (delivering ++ returning.take 2)).leasing slow = none ∧
      ((opened p).run (delivering ++ returning)).leasing slow = some ⟨2, 4000, [(2, 8)]⟩ ∧
      ((opened p).run (delivering ++ returning)).decisions.map (·.admission.lease) =
        [some ⟨slow, 1⟩, some ⟨slow, 2⟩] := by
  have runs : (Plane.launch vacant bare ⟨⟨0⟩, 0⟩).toOption.map (fun first =>
      ([delivering, delivering ++ returning.take 1, delivering ++ returning.take 2, delivering ++ returning].map
        fun acts => ((opened first.1).run acts).leasing slow,
        ((opened first.1).run (delivering ++ returning)).decisions.map (·.admission.lease))) =
      some ([some ⟨1, 4000, [(1, 4)]⟩, some ⟨1, 4000, []⟩, none, some ⟨2, 4000, [(2, 8)]⟩],
        [some ⟨slow, 1⟩, some ⟨slow, 2⟩]) := by
    decide +kernel
  obtain ⟨⟨p, effects⟩, launched, runs⟩ := Option.map_eq_some_iff.mp runs
  simp only [Prod.mk.injEq, List.map_cons, List.map_nil, List.cons.injEq, and_true] at runs
  obtain ⟨⟨one, two, three, four⟩, leases⟩ := runs
  exact ⟨p, effects, ok_of_toOption launched, one, two, three, four, leases⟩

/-- Both deliveries are on record, and the first generation of the transport was dropped in between, when the snapshot
without the rule was published. -/
theorem spaced_while_pooled_returning :
    ∃ p effects moves, Plane.launch vacant bare ⟨⟨0⟩, 0⟩ = .ok (p, effects) ∧
      Rendered p (delivering ++ returning) moves ∧ Traffic.Dropped moves slow 1 ∧
      (∃ n, ∃ c ∈ (Diary.empty.run moves).callers n, c.lease = 2 ∧ ∃ grant delay, c.fate = .promised grant delay) ∧
      ((opened p).run (delivering ++ returning.take 2)).plane.snapshot.matcher.transports.get? slow = none := by
  obtain ⟨p, effects, launched, -, before, between, after, leases⟩ := runs_returning
  obtain ⟨⟨moves, rendered⟩, record, publications⟩ := spaced_while_pooled launched (delivering ++ returning)
  obtain ⟨-, pools, granted, -, generations⟩ := record moves rendered
  -- The pool shows the first generation up to the publication, and the second at the end.
  have was {acts rest : List (Moment × Act)} (split : delivering ++ returning = acts ++ rest) {n delay : Nat}
      {leases : List (Nat × Nat)} (leasing : ((opened p).run acts).leasing slow = some ⟨n, delay, leases⟩) :
      Traffic.Was moves slow n := by
    obtain ⟨earlier, later, rfl, pool⟩ := pools acts rest split
    obtain ⟨g, found, same⟩ := Option.map_eq_some_iff.mp leasing
    rw [← pool] at found
    cases same
    exact (Traffic.was_now found).more later
  have returned : delivering ++ returning = (delivering ++ returning.take 1) ++ returning.drop 1 := rfl
  refine ⟨p, effects, moves, launched, rendered, ?_, ?_, ?_⟩
  · exact (generations slow 1 2 (was returned before) (was (List.append_nil _).symm after)).2
      (by decide)
  · obtain ⟨d, member, lease⟩ := List.mem_map.mp (leases ▸ by simp : some ⟨slow, 2⟩ ∈
      ((opened p).run (delivering ++ returning)).decisions.map (·.admission.lease))
    obtain ⟨n, -, c, inside, own, grant, delay, fate⟩ := granted d member _ lease
    exact ⟨n, c, inside, own, grant, delay, fate⟩
  · obtain ⟨g, found, -⟩ := Option.map_eq_some_iff.mp before
    obtain ⟨-, -, unlisted, -⟩ := publications (delivering ++ returning.take 1) _ _ (returning.drop 2) rfl slow g found
      fun g' found' => nomatch (Option.map_eq_none_iff.mp between).symm.trans found'
    exact unlisted

/-- The deliveries are four milliseconds apart, though both were to be four seconds after the one before. -/
theorem spacing_lost_on_return :
    ∃ p effects, Plane.launch vacant bare ⟨⟨0⟩, 0⟩ = .ok (p, effects) ∧
      ((opened p).run delivering).leasing slow = some ⟨1, 4000, [(1, 4)]⟩ ∧
      ((opened p).run (delivering ++ returning)).leasing slow = some ⟨2, 4000, [(2, 8)]⟩ ∧
      ((opened p).run (delivering ++ returning)).decisions.map (·.admission.lease) =
        [some ⟨slow, 1⟩, some ⟨slow, 2⟩] := by
  obtain ⟨p, effects, launched, first, -, -, second, leases⟩ := runs_returning
  exact ⟨p, effects, launched, first, second, leases⟩

end Service

end RelayRamp.Admission
