import RelayRamp.Proofs.Admission.Records
import RelayRamp.Proofs.Plane.Reports

/-!
# What is counted and reported of decisions

An attempt that goes on either waits, and then it counts nothing and reports no refusal, or it is decided; the one
decision is counted once, and reported when it is not an admission. So the tallies of a service tell the decisions
on record, and so do its reports.
-/
namespace RelayRamp.Plane.Tallies

open RelayRamp.Admission

def total (t : Tallies) : Nat := t.admitted + t.held + t.failSafeHeld + t.rejected

/-- None of the tallies is greater than in the other. -/
structure AtMost (t u : Tallies) : Prop where
  admitted : t.admitted ≤ u.admitted
  held : t.held ≤ u.held
  rejected : t.rejected ≤ u.rejected
  failSafeHeld : t.failSafeHeld ≤ u.failSafeHeld

theorem AtMost.refl (t : Tallies) : t.AtMost t := ⟨Nat.le_refl _, Nat.le_refl _, Nat.le_refl _, Nat.le_refl _⟩

theorem AtMost.trans {t u v : Tallies} (first : t.AtMost u) (rest : u.AtMost v) : t.AtMost v :=
  ⟨Nat.le_trans first.admitted rest.admitted, Nat.le_trans first.held rest.held,
    Nat.le_trans first.rejected rest.rejected, Nat.le_trans first.failSafeHeld rest.failSafeHeld⟩

theorem atMost_count (t : Tallies) (verdict : Verdict) : t.AtMost (t.count verdict) := by
  have same (n : Nat) : n ≤ n := Nat.le_refl n
  have more (n : Nat) : n ≤ n + 1 := Nat.le_succ n
  cases verdict with
  | admitted => exact ⟨more _, same _, same _, same _⟩
  | rejected => exact ⟨same _, same _, more _, same _⟩
  | held reason =>
    cases reason with
    | failSafe => exact ⟨same _, same _, same _, more _⟩
    | capacityExceeded | burstExceeded | leaseTimeout => exact ⟨same _, more _, same _, same _⟩

end RelayRamp.Plane.Tallies

namespace RelayRamp.Admission

open RelayRamp.Lease RelayRamp.Plane RelayRamp.Routing RelayRamp.Store RelayRamp.Time RelayRamp.Warmup

/-- The kind of event that reports a verdict. -/
def Verdict.refusal? : Verdict → Option AuditKind
  | admitted .. => none
  | held _ => some .admissionHeld
  | rejected _ => some .admissionRejected

/-- The attempt was held, and not because of the store. -/
def Verdict.heldByLimits : Verdict → Bool
  | held (.capacityExceeded ..) | held (.burstExceeded ..) | held (.leaseTimeout _) => true
  | _ => false

namespace Attempt

variable {σ : Type} {p : Plane σ} {moment : Moment}

/-- What an attempt that goes on counts and reports, by how far it has come. -/
inductive Accounts (p q : Plane σ) (effects : Effects) : Attempt → Prop
  | waits {course : Course} {acquisition : Acquisition} (tallies : q.tallies = p.tallies)
      (silent : effects.refusals = []) : Accounts p q effects (.acquiring course acquisition)
  | decided {admission : Admission} (tallies : q.tallies = p.tallies.count admission.verdict)
      (reported : effects.refusals.map (·.kind) = admission.verdict.refusal?.toList) :
      Accounts p q effects (.decided admission)

/-- What was done before does not count if it reports no refusal. -/
theorem Accounts.after {q r : Plane σ} {before effects : Effects} {a : Attempt} (accounts : Accounts p r effects a)
    (tallies : p.tallies = q.tallies) (silent : before.refusals = []) : Accounts q r (before.and effects) a := by
  have same : (before.and effects).refusals = effects.refusals := by rw [Effects.refusals_and, silent, List.nil_append]
  cases accounts with
  | waits counted reported => exact .waits (counted.trans tallies) (same.trans reported)
  | decided counted reported => exact .decided (tallies ▸ counted) (same.symm ▸ reported)

theorem conclude_accounts (p : Plane σ) (verdict : Verdict) (transport : Option TransportName) :
    Accounts p (conclude p verdict transport).1 (conclude p verdict transport).2.1
      (conclude p verdict transport).2.2 := by
  refine .decided rfl ?_
  cases verdict with
  | admitted | held | rejected => rfl

theorem commit_accounts (p : Plane σ) (course : Course) (ticket : LeaseTicket) (moment : Moment) :
    Accounts p (commit p course ticket moment).1 (commit p course ticket moment).2.1
      (commit p course ticket moment).2.2 := by
  unfold commit
  dsimp only
  split
  · exact .decided rfl rfl
  · -- The lease goes back before the verdict is counted.
    exact (conclude_accounts _ _ _).after rfl (Pool.refusals_release _ _ _ _)

theorem proceed_accounts (p : Plane σ) (course : Course) (acquisition : Acquisition) (moment : Moment) :
    Accounts p (proceed p course acquisition moment).1 (proceed p course acquisition moment).2.1
      (proceed p course acquisition moment).2.2 := by
  have silent := Acquisition.refusals_resume p.pool moment.tick acquisition
  rcases resumed : acquisition.resume p.pool moment.tick with ⟨pool, freed, next⟩
  rw [resumed] at silent
  simp only [proceed, resumed]
  cases next with
  | granted ticket instant => exact (commit_accounts _ course ticket moment).after rfl silent
  | failed fault =>
    cases fault with
    | timedOut name => exact (conclude_accounts _ _ _).after rfl silent
    | unknownTransport name => exact (conclude_accounts _ _ _).after rfl silent
  | requested | queued | pacing => exact (Accounts.waits rfl rfl).after rfl silent

theorem begin_accounts (p : Plane σ) (r : AdmissionRequest) (moment : Moment) :
    Accounts p (begin p r moment).1 (begin p r moment).2.1 (begin p r moment).2.2 := by
  have way := screened p r moment
  generalize begin p r moment = result at way
  cases way with
  | passed => exact proceed_accounts _ _ _ _
  | _ => exact conclude_accounts _ _ _

theorem resume_accounts {a : Attempt} (unfinished : a.isDone = false) (p : Plane σ) (moment : Moment) :
    Accounts p (a.resume p moment).1 (a.resume p moment).2.1 (a.resume p moment).2.2 := by
  cases a with
  | requested request => exact begin_accounts p request moment
  | acquiring course acquisition => exact proceed_accounts p course acquisition moment
  | decided => cases unfinished

theorem cancel_silent (p : Plane σ) (moment : Moment) (a : Attempt) :
    (a.cancel p moment).1.tallies = p.tallies ∧ (a.cancel p moment).2.refusals = [] := by
  cases a with
  | requested => exact ⟨rfl, rfl⟩
  | acquiring course acquisition => exact ⟨rfl, Acquisition.refusals_cancel _ _ _⟩
  | decided admission =>
    obtain ⟨verdict, _ | ticket⟩ := admission
    · exact ⟨rfl, rfl⟩
    · exact ⟨rfl, Pool.refusals_release _ _ _ _⟩

end Attempt

theorem tallies_of_changes {σ : Type} [ThrottleStore σ] {moment : Moment} {p q : Plane σ}
    (changes : Changes moment p q) : q.tallies = p.tallies := by
  induction changes with
  | refl => rfl
  | tail _ change ih =>
    cases change with
    | _ => exact ih

theorem tallies_of_perform {σ : Type} [ThrottleStore σ] (command : Command) (moment : Moment) (p : Plane σ) :
    (command.perform moment p).tallies = p.tallies := by
  rcases command.changes moment p with changes | ⟨_, _, -, released⟩ | ⟨-, reclaimed⟩
  · exact tallies_of_changes changes
  · rw [released]
  · rw [reclaimed]

theorem tallies_of_launch {σ : Type} [ThrottleStore σ] {store : σ} {settings : EngineSettings} {moment : Moment}
    {p : Plane σ} {effects : Effects} (launched : Plane.launch store settings moment = .ok (p, effects)) :
    p.tallies = .zero ∧ effects.refusals = [] := by
  obtain ⟨blank, unloaded, same⟩ := ok_of_bind launched
  cases same
  have preorder : IsPreorder (Plane σ) fun p q => q.tallies = p.tallies :=
    { refl := fun _ => rfl, trans := fun _ _ _ first rest => rest.trans first }
  have loads : (load : Call σ Unit).Keeps moment fun p q => q.tallies = p.tallies :=
    Call.load_keeps
      { asks := fun _ _ _ _ => rfl
        configured := fun _ _ _ => rfl
        retained := fun _ _ => rfl
        published := fun _ _ => rfl } fun _ _ => rfl
  refine ⟨(loads.after blank).trans ?_, Call.silent_load.run moment blank⟩
  obtain ⟨matcher, -, same⟩ := ok_of_bind unloaded
  cases same
  rfl

namespace Service

variable {σ : Type} {s : Service σ} {moment : Moment} {act : Act}

theorem turn_accounts {submission : Submission} (unfinished : submission.attempt.isDone = false) (moment : Moment)
    (n : Nat) {made : List Decision}
    (made_eq : made = decided n moment { submission with attempt := (submission.attempt.resume s.plane moment).2.2 }) :
    (s.turn moment n submission).plane.tallies =
        made.foldl (fun t d => t.count d.admission.verdict) s.plane.tallies ∧
      (submission.attempt.resume s.plane moment).2.1.refusals.map (·.kind) =
        made.filterMap fun d => d.admission.verdict.refusal? := by
  have accounts := Attempt.resume_accounts unfinished s.plane moment
  simp only [Service.turn, keep]
  generalize submission.attempt.resume s.plane moment = result at accounts made_eq
  obtain ⟨q, effects, a⟩ := result
  subst made_eq
  cases accounts with
  | waits tallies silent => exact ⟨tallies, congrArg (List.map _) silent⟩
  | @decided admission tallies reported =>
    refine ⟨tallies, reported.trans ?_⟩
    simp only [decided, List.filterMap_cons, List.filterMap_nil]
    cases admission.verdict.refusal? with
    | none => rfl
    | some kind => rfl

variable [ThrottleStore σ]

/-- What an act does besides. -/
def effects (s : Service σ) (moment : Moment) : Act → Effects
  | .submit request => (Attempt.begin s.plane request moment).2.1
  | .resume number =>
    match s.attempts number with
    | some submission => (submission.attempt.resume s.plane moment).2.1
    | none => .none
  | .cancel number =>
    match s.attempts number with
    | some submission => (submission.attempt.cancel s.plane moment).2
    | none => .none
  | .detach _ => .none
  | .command command => command.effects moment s.plane

/-- What acts report, in order. -/
def reports (s : Service σ) : List (Moment × Act) → List AuditEvent
  | [] => []
  | (moment, act) :: rest => (s.effects moment act).events ++ (s.step moment act).reports rest

theorem reports_append (s : Service σ) (before after : List (Moment × Act)) :
    s.reports (before ++ after) = s.reports before ++ (s.run before).reports after := by
  induction before generalizing s with
  | nil => rfl
  | cons head rest ih =>
    obtain ⟨moment, act⟩ := head
    simp only [List.cons_append, reports, run, ih, List.append_assoc]

/-- An act counts and reports the decisions that it makes. -/
structure Accounts (s : Service σ) (moment : Moment) (act : Act) (made : List Decision) : Prop where
  record : (s.step moment act).decisions = s.decisions ++ made
  tallies : (s.step moment act).plane.tallies = made.foldl (fun t d => t.count d.admission.verdict) s.plane.tallies
  reported : (s.effects moment act).refusals.map (·.kind) = made.filterMap fun d => d.admission.verdict.refusal?

/-- An act that makes no decision counts none and reports none. -/
theorem accounts_nothing (record : (s.step moment act).decisions = s.decisions)
    (tallies : (s.step moment act).plane.tallies = s.plane.tallies)
    (silent : (s.effects moment act).refusals = []) : s.Accounts moment act [] where
  record := by rw [record, List.append_nil]
  tallies := tallies
  reported := by
    rw [silent]
    rfl

theorem step_accounts (s : Service σ) (moment : Moment) (act : Act) : ∃ made, s.Accounts moment act made := by
  cases act with
  | submit request =>
    have accounts := @turn_accounts σ s ⟨request, s.plane.snapshot, .requested request⟩ rfl moment s.next _ rfl
    exact ⟨_, turn_decisions _ _ _ _, accounts.1, accounts.2⟩
  | resume n =>
    cases present : s.attempts n with
    | none => exact ⟨[], accounts_nothing (by simp only [step, present]) (by simp only [step, present])
        (by simp only [effects, present, Effects.refusals_none])⟩
    | some submission =>
      cases finished : submission.attempt.isDone with
      | true =>
        refine ⟨[], accounts_nothing (by simp only [step, present, finished, if_true])
          (by simp only [step, present, finished, if_true]) ?_⟩
        simp only [effects, present]
        cases attempt : submission.attempt with
        | decided => rfl
        | requested | acquiring =>
          rw [attempt] at finished
          cases finished
      | false =>
        have stepped : s.step moment (.resume n) = s.turn moment n submission := by
          simp only [step, present, finished, Bool.false_eq_true, if_false]
        have besides : s.effects moment (.resume n) = (submission.attempt.resume s.plane moment).2.1 := by
          simp only [effects, present]
        obtain ⟨tallies, reported⟩ := turn_accounts (s := s) finished moment n rfl
        exact ⟨_, stepped.symm ▸ turn_decisions _ _ _ _, stepped.symm ▸ tallies, besides.symm ▸ reported⟩
  | cancel n =>
    cases present : s.attempts n with
    | none => exact ⟨[], accounts_nothing (by simp only [step, present]) (by simp only [step, present])
        (by simp only [effects, present, Effects.refusals_none])⟩
    | some submission =>
      obtain ⟨tallies, silent⟩ := submission.attempt.cancel_silent s.plane moment
      refine ⟨[], accounts_nothing (by simp only [step, present, keep]) ?_ ?_⟩
      · simpa only [step, present, keep] using tallies
      · simpa only [effects, present] using silent
  | detach n =>
    have same : (s.step moment (.detach n)).decisions = s.decisions ∧ (s.step moment (.detach n)).plane = s.plane := by
      simp only [step]
      split
      · split
        · exact ⟨rfl, rfl⟩
        · exact ⟨rfl, rfl⟩
      · exact ⟨rfl, rfl⟩
    exact ⟨[], accounts_nothing same.1 (congrArg Plane.tallies same.2) rfl⟩
  | command command =>
    exact ⟨[], accounts_nothing rfl (tallies_of_perform command moment s.plane)
      (command.silent.run moment s.plane)⟩

/-- The tallies and what was reported tell the decisions on record. -/
structure Accounted (s : Service σ) (reported : List AuditEvent) : Prop where
  tallies : s.plane.tallies = s.decisions.foldl (fun t d => t.count d.admission.verdict) .zero
  reported : (reported.filter (·.isRefusal)).map (·.kind) = s.decisions.filterMap fun d => d.admission.verdict.refusal?

theorem Accounted.step {reported : List AuditEvent} (h : s.Accounted reported) (moment : Moment) (act : Act) :
    (s.step moment act).Accounted (reported ++ (s.effects moment act).events) := by
  obtain ⟨made, accounts⟩ := s.step_accounts moment act
  refine ⟨?_, ?_⟩
  · rw [accounts.tallies, accounts.record, List.foldl_append, h.tallies]
  · rw [accounts.record, List.filterMap_append, ← h.reported, ← accounts.reported, List.filter_append,
      List.map_append, Effects.refusals]

theorem run_accounted {store : σ} {settings : EngineSettings} {opening : Moment} {p : Plane σ} {effects : Effects}
    (launched : Plane.launch store settings opening = .ok (p, effects)) (acts : List (Moment × Act)) :
    ((opened p).run acts).Accounted (effects.events ++ (opened p).reports acts) := by
  induction acts using List.reverseRecOn with
  | nil =>
    obtain ⟨zero, silent⟩ := tallies_of_launch launched
    refine ⟨zero, ?_⟩
    rw [reports, List.append_nil]
    exact congrArg (List.map _) silent
  | append_singleton acts last ih =>
    rw [run_append, reports_append, ← List.append_assoc]
    simpa only [run, reports, List.append_nil] using ih.step last.1 last.2

/-! ### What the tallies tell -/

/-- What one verdict adds to the tallies. -/
theorem count_adds (t : Tallies) (verdict : Verdict) :
    (t.count verdict).total = t.total + 1 ∧
      (t.count verdict).held = t.held + verdict.heldByLimits.toNat ∧
      (t.count verdict).rejected = t.rejected + verdict.refusal?.toList.count .admissionRejected ∧
      (t.count verdict).held + (t.count verdict).failSafeHeld =
        t.held + t.failSafeHeld + verdict.refusal?.toList.count .admissionHeld := by
  simp only [Tallies.total]
  cases verdict with
  | admitted => exact ⟨by simp only [Tallies.count]; omega, rfl, rfl, rfl⟩
  | rejected => exact ⟨rfl, rfl, rfl, rfl⟩
  | held reason =>
    cases reason with
    | failSafe => exact ⟨by simp only [Tallies.count]; omega, rfl, rfl, rfl⟩
    | capacityExceeded | burstExceeded | leaseTimeout =>
      exact ⟨by simp only [Tallies.count]; omega, rfl, rfl, Nat.add_right_comm _ _ _⟩

/-- What decisions add to the tallies. -/
theorem foldl_adds (decisions : List Decision) (t u : Tallies)
    (counted : u = decisions.foldl (fun t d => t.count d.admission.verdict) t) :
    u.total = t.total + decisions.length ∧
      u.held = t.held + decisions.countP (·.admission.verdict.heldByLimits) ∧
      u.rejected = t.rejected +
        (decisions.filterMap fun d => d.admission.verdict.refusal?).count .admissionRejected ∧
      u.held + u.failSafeHeld = t.held + t.failSafeHeld +
        (decisions.filterMap fun d => d.admission.verdict.refusal?).count .admissionHeld := by
  induction decisions generalizing t with
  | nil =>
    subst counted
    exact ⟨rfl, rfl, rfl, rfl⟩
  | cons d rest ih =>
    obtain ⟨total, held, rejected, holds⟩ := ih (t.count d.admission.verdict) counted
    obtain ⟨total', held', rejected', holds'⟩ := count_adds t d.admission.verdict
    have refused (kind : AuditKind) : ((d :: rest).filterMap fun d => d.admission.verdict.refusal?).count kind =
        d.admission.verdict.refusal?.toList.count kind +
          (rest.filterMap fun d => d.admission.verdict.refusal?).count kind := by
      rw [List.filterMap_cons]
      cases d.admission.verdict.refusal? with
      | none => simp
      | some first => simp [List.count_cons, Nat.add_comm]
    have limited : (d :: rest).countP (·.admission.verdict.heldByLimits) =
        d.admission.verdict.heldByLimits.toNat + rest.countP (·.admission.verdict.heldByLimits) := by
      rw [List.countP_cons, Nat.add_comm]
      cases d.admission.verdict.heldByLimits with
      | true => rfl
      | false => rfl
    rw [List.length_cons, limited, refused, refused]
    omega

/-- Refusals of one kind among all events. -/
theorem count_refusals {kind : AuditKind} (refusal : kind = .admissionHeld ∨ kind = .admissionRejected)
    (events : List AuditEvent) :
    ((events.filter (·.isRefusal)).map (·.kind)).count kind = events.countP (·.kind = kind) := by
  rw [List.count, List.countP_map, List.countP_filter]
  refine List.countP_congr fun event _ => ?_
  simp only [beq_iff_eq, Function.comp_apply, AuditEvent.isRefusal, Bool.and_eq_true, Bool.or_eq_true,
    decide_eq_true_eq, and_iff_left_iff_imp]
  rintro rfl
  exact refusal

/-- Decisions are only ever added to the record. -/
theorem run_decisions (s : Service σ) (acts : List (Moment × Act)) :
    ∃ made, (s.run acts).decisions = s.decisions ++ made ∧
      (s.run acts).plane.tallies = made.foldl (fun t d => t.count d.admission.verdict) s.plane.tallies := by
  induction acts generalizing s with
  | nil => exact ⟨[], (List.append_nil _).symm, rfl⟩
  | cons head rest ih =>
    obtain ⟨made, accounts⟩ := s.step_accounts head.1 head.2
    obtain ⟨later, record, tallies⟩ := ih (s.step head.1 head.2)
    refine ⟨made ++ later, ?_, ?_⟩
    · rw [run, record, accounts.record, List.append_assoc]
    · rw [run, tallies, accounts.tallies, List.foldl_append]

theorem atMost_foldl (decisions : List Decision) (t : Tallies) :
    t.AtMost (decisions.foldl (fun t d => t.count d.admission.verdict) t) := by
  induction decisions generalizing t with
  | nil => exact .refl t
  | cons d rest ih => exact (t.atMost_count d.admission.verdict).trans (ih (t.count d.admission.verdict))

theorem run_atMost (s : Service σ) (acts : List (Moment × Act)) : s.plane.tallies.AtMost (s.run acts).plane.tallies := by
  obtain ⟨made, -, tallies⟩ := s.run_decisions acts
  exact tallies ▸ atMost_foldl made _

/-! ### Attempts that have ended -/

/-- At some moment of the run the attempt was kept as decided. -/
def Ended (p : Plane σ) (acts : List (Moment × Act)) (n : Nat) : Prop :=
  ∃ earlier later submission, acts = earlier ++ later ∧ ((opened p).run earlier).attempts n = some submission ∧
    submission.attempt.isDone = true

/-- The decisions on record are those of the attempts that have ended. -/
theorem mem_numbers (p : Plane σ) (acts : List (Moment × Act)) (n : Nat) :
    n ∈ ((opened p).run acts).decisions.map (·.number) ↔ Ended p acts n := by
  refine ⟨fun numbered => ?_, fun ⟨earlier, later, submission, same, present, finished⟩ => ?_⟩
  · obtain ⟨d, member, rfl⟩ := List.mem_map.mp numbered
    obtain ⟨earlier, act, later, rfl, made⟩ := decided_by_act p acts member
    have new : d ∉ ((opened p).run earlier).decisions := fun old => by
      have once := (run_recorded p (earlier ++ [(d.moment, act)])).once
      rw [run_append, run, run, made, List.map_append] at once
      exact (List.nodup_append.mp once).2.2 _ (List.mem_map_of_mem old) _ (List.mem_singleton_self _) rfl
    rcases step_decided (run_sound p earlier) (made ▸ List.mem_append_right _ (List.mem_singleton_self d)) with
      old | ⟨-, submission, present, decided⟩
    · exact absurd old new
    · refine ⟨earlier ++ [(d.moment, act)], later, submission, by simp, ?_, by rw [decided]; rfl⟩
      rw [run_append]
      exact present
  · rcases (run_sound p earlier).reached n submission present with ⟨_, _, acquiring, -⟩ | ⟨admission, decided⟩
    · rw [acquiring] at finished
      cases finished
    · obtain ⟨d, member, number, -⟩ := (run_recorded p earlier).kept n submission admission present decided
      obtain ⟨made, record, -⟩ := ((opened p).run earlier).run_decisions later
      rw [same, run_append, record, List.map_append]
      exact List.mem_append_left _ (List.mem_map.mpr ⟨d, member, number⟩)

/-- Every decision is counted once, and in the right place. -/
theorem decisions_counted_once {store : σ} {settings : EngineSettings} {opening : Moment} {p : Plane σ}
    {effects : Effects} (launched : Plane.launch store settings opening = .ok (p, effects))
    (acts : List (Moment × Act)) :
    let s := (opened p).run acts
    let tallies := s.plane.tallies
    let events := effects.events ++ (opened p).reports acts
    -- The decisions on record are those of the attempts that have ended, one of each.
    (s.decisions.map (·.number)).Nodup ∧ (∀ n, n ∈ s.decisions.map (·.number) ↔ Ended p acts n) ∧
    tallies.admitted + tallies.held + tallies.failSafeHeld + tallies.rejected = s.decisions.length ∧
    tallies.rejected = events.countP (·.kind = .admissionRejected) ∧
    tallies.held + tallies.failSafeHeld = events.countP (·.kind = .admissionHeld) ∧
    tallies.held = s.decisions.countP (·.admission.verdict.heldByLimits) ∧
    -- An act that decides no attempt counts and reports nothing; the cancellation of one is such an act, and an
    -- attempt that was cancelled before its decision is never decided.
    (∀ earlier moment act later, acts = earlier ++ (moment, act) :: later →
      (((opened p).run earlier).step moment act).decisions = ((opened p).run earlier).decisions →
      (((opened p).run earlier).step moment act).plane.tallies = ((opened p).run earlier).plane.tallies ∧
        (((opened p).run earlier).effects moment act).refusals = []) ∧
    (∀ earlier moment n later, acts = earlier ++ (moment, .cancel n) :: later →
      (((opened p).run earlier).step moment (.cancel n)).decisions = ((opened p).run earlier).decisions ∧
        ∀ submission, ((opened p).run earlier).attempts n = some submission → submission.attempt.isDone = false →
          n ∉ s.decisions.map (·.number)) ∧
    ∀ earlier later, acts = earlier ++ later → ((opened p).run earlier).plane.tallies.AtMost tallies := by
  intro s tallies events
  have accounted := run_accounted launched acts
  obtain ⟨total, held, rejected, holds⟩ := foldl_adds _ _ _ accounted.tallies
  refine ⟨(run_recorded p acts).once, mem_numbers p acts, ?_, ?_, ?_, ?_, ?_, ?_, ?_⟩
  · simpa only [Tallies.total, Tallies.zero, Nat.zero_add] using total
  · rw [← count_refusals (Or.inr rfl), accounted.reported]
    simpa only [Tallies.zero, Nat.zero_add] using rejected
  · rw [← count_refusals (Or.inl rfl), accounted.reported]
    simpa only [Tallies.zero, Nat.zero_add] using holds
  · simpa only [Tallies.zero, Nat.zero_add] using held
  · intro earlier moment act later _ same
    obtain ⟨made, accounts⟩ := ((opened p).run earlier).step_accounts moment act
    obtain rfl : made = [] := List.append_right_eq_self.mp (accounts.record.symm.trans same)
    exact ⟨accounts.tallies, List.map_eq_nil_iff.mp accounts.reported⟩
  · intro earlier moment n later split
    refine ⟨?_, fun submission present waits numbered => ?_⟩
    · simp only [step]
      split
      · rfl
      · rfl
    · have gone := cancelled_gone p earlier later moment present waits
      rw [← split] at gone
      obtain ⟨d, member, number⟩ := List.mem_map.mp numbered
      exact gone.undecided d member number
  · rintro earlier later rfl
    simpa only [tallies, s, run_append] using ((opened p).run earlier).run_atMost later

omit [ThrottleStore σ] in
/-- Of six attempts two are admitted, one has a lease and loses its commit, one is cancelled while it sleeps, one is
for no item, and one comes when the store has failed. -/
theorem decisions_counted_once_contended :
    let config : WarmupConfig := { WarmupConfig.fresh ⟨0⟩ with enabled := true }
    let filled : MemoryStore := { MemoryStore.empty with config, phases := [⟨0, "start", 7, ⟨5, 8, 5⟩⟩] }
    let store : PlannedStore Backing := ⟨.memory filled, .replicate 5 none ++ [some ⟨.io, "offline"⟩]⟩
    let settings : EngineSettings := { EngineSettings.standard with failSafe := .closed }
    let request (items : Nat) : Act := .submit ⟨"someone@example.org", items, none, none⟩
    let acts : List (Moment × Act) :=
      [(⟨⟨1⟩, 0⟩, request 3), (⟨⟨2⟩, 0⟩, request 2), (⟨⟨3⟩, 0⟩, request 1), (⟨⟨4⟩, 0⟩, request 1),
        (⟨⟨5⟩, 0⟩, .cancel 3), (⟨⟨5⟩, 0⟩, request 0), (⟨⟨6⟩, 1000⟩, .resume 1), (⟨⟨7⟩, 2000⟩, .resume 2),
        (⟨⟨8⟩, 3000⟩, .command .reload), (⟨⟨9⟩, 3000⟩, request 1)]
    ∃ p effects, Plane.launch store settings ⟨⟨0⟩, 0⟩ = .ok (p, effects) ∧
      let events := effects.events ++ (opened p).reports acts
      ((opened p).run acts).decisions.map (·.number) = [0, 4, 1, 2, 5] ∧
      ((opened p).run acts).plane.tallies = ⟨2, 1, 1, 1⟩ ∧
      events.countP (·.kind = .admissionRejected) = 1 ∧ events.countP (·.kind = .admissionHeld) = 2 := by
  intro config filled store settings request acts
  have runs : (Plane.launch store settings ⟨⟨0⟩, 0⟩).toOption.map (fun first =>
      let s := (opened first.1).run acts
      (s.decisions.map (·.number), s.plane.tallies)) = some ([0, 4, 1, 2, 5], ⟨2, 1, 1, 1⟩) := by
    decide +kernel
  obtain ⟨⟨p, effects⟩, launched, runs⟩ := Option.map_eq_some_iff.mp runs
  obtain ⟨decided, tallies⟩ := Prod.mk.inj runs
  have launched := ok_of_toOption launched
  obtain ⟨-, -, -, rejected, held, -⟩ := decisions_counted_once launched acts
  rw [tallies] at rejected held
  exact ⟨p, effects, launched, decided, tallies, rejected.symm, held.symm⟩

end Service

end RelayRamp.Admission
