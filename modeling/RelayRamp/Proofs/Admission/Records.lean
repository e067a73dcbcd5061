import Mathlib.Data.List.Nodup
import RelayRamp.Proofs.Admission.Service

/-!
# What is recorded of an attempt

An act turns one attempt, forgets one, or leaves the attempts alone. So each attempt is decided once at most: as
long as it waits there is no decision of it, what it was decided to is on record when it is kept as decided, and
one that was cancelled before is never decided.

Acts are prompt when no attempt sleeps past its grant instant: attempts whose instant has come go on before time
does.
-/
namespace RelayRamp.Admission

open RelayRamp.Lease RelayRamp.Plane RelayRamp.Routing RelayRamp.Store RelayRamp.Time

/-- The attempt does not sleep past its grant instant. -/
def Submission.awake (submission : Submission) (moment : Moment) : Bool :=
  match submission.attempt with
  | .acquiring _ (.pacing _ grant) => moment.tick ≤ grant
  | _ => true

/-- A verdict names the lease that comes with it, and no other. -/
theorem Submission.Turns.named {σ : Type} {p q : Plane σ} {submission : Submission} {moment : Moment}
    {admission : Admission} (turns : submission.Turns p moment q (.decided admission)) :
    admission.verdict.ticket? = admission.lease := by
  cases turns with
  | decided _ unleased => exact unleased
  | proceeded _ _ proceeds =>
    cases proceeds with
    | failed _ unleased => exact unleased
    | admitted => rfl
    | lost => rfl

namespace Service

variable {σ : Type} {s t : Service σ} {moment : Moment} {act : Act}

/-! ### What an act does -/

/-- What an act does to the service. -/
inductive Steps [ThrottleStore σ] (s : Service σ) (moment : Moment) : Act → Service σ → Prop
  | submitted (request : AdmissionRequest) :
      Steps s moment (.submit request)
        { s.turn moment s.next ⟨request, s.plane.snapshot, .requested request⟩ with next := s.next + 1 }
  | resumed {n : Nat} {submission : Submission} (present : s.attempts n = some submission)
      (unfinished : submission.attempt.isDone = false) : Steps s moment (.resume n) (s.turn moment n submission)
  | cancelled {n : Nat} {submission : Submission} (present : s.attempts n = some submission) :
      Steps s moment (.cancel n) (s.keep (submission.attempt.cancel s.plane moment).1 n none)
  | detached {n : Nat} {submission : Submission} (present : s.attempts n = some submission)
      (finished : submission.attempt.isDone = true) : Steps s moment (.detach n) (s.keep s.plane n none)
  | commanded (command : Command) :
      Steps s moment (.command command) { s with plane := command.perform moment s.plane }
  | idle {act : Act} (quiet : ∀ command, act ≠ .command command) : Steps s moment act s

theorem steps [ThrottleStore σ] (s : Service σ) (moment : Moment) (act : Act) :
    s.Steps moment act (s.step moment act) := by
  cases act with
  | submit request => exact .submitted request
  | resume n =>
    simp only [step]
    split
    · rename_i submission present
      split
      · exact .idle (by simp)
      · rename_i unfinished
        exact .resumed present (by simpa using unfinished)
    · exact .idle (by simp)
  | cancel n =>
    simp only [step]
    split
    · exact .cancelled ‹_›
    · exact .idle (by simp)
  | detach n =>
    simp only [step]
    split
    · split
      · exact .detached ‹_› ‹_›
      · exact .idle (by simp)
    · exact .idle (by simp)
  | command command => exact .commanded command

/-! ### Waiting, sleeping, admitted -/

/-- The attempt waits for the place. -/
def Queues (s : Service σ) (n : Nat) (key : WaitKey) : Prop :=
  ∃ submission course ticket deadline, s.attempts n = some submission ∧
    submission.attempt = .acquiring course (.queued ticket key deadline)

/-- The attempt has the lease and waits for its grant instant. -/
def Sleeps (s : Service σ) (n : Nat) (ticket : LeaseTicket) : Prop :=
  ∃ submission course grant, s.attempts n = some submission ∧
    submission.attempt = .acquiring course (.pacing ticket grant)

/-- The attempt was admitted with the lease. -/
def Admits (s : Service σ) (n : Nat) (ticket : LeaseTicket) : Prop :=
  ∃ d ∈ s.decisions, d.number = n ∧ d.admission.lease = some ticket

/-- No attempt sleeps past its grant instant. -/
def Awake (s : Service σ) (moment : Moment) : Prop :=
  ∀ n < s.next, (s.attempts n).all (·.awake moment) = true

/-- The acts come while no attempt sleeps past its grant instant. -/
def Prompt [ThrottleStore σ] (s : Service σ) : List (Moment × Act) → Prop
  | [] => True
  | (moment, act) :: rest => s.Awake moment ∧ (s.step moment act).Prompt rest

instance (s : Service σ) (moment : Moment) : Decidable (s.Awake moment) :=
  inferInstanceAs (Decidable (∀ n < s.next, _))

instance decidePrompt [ThrottleStore σ] (s : Service σ) : ∀ acts, Decidable (s.Prompt acts)
  | [] => .isTrue trivial
  | (moment, act) :: rest =>
    have := decidePrompt (s.step moment act) rest
    inferInstanceAs (Decidable (s.Awake moment ∧ (s.step moment act).Prompt rest))

theorem prompt_append [ThrottleStore σ] (s : Service σ) (before after : List (Moment × Act)) :
    s.Prompt (before ++ after) ↔ s.Prompt before ∧ (s.run before).Prompt after := by
  induction before generalizing s with
  | nil => simp only [List.nil_append, Prompt, run, true_and]
  | cons head rest ih => simp only [List.cons_append, Prompt, run, ih, and_assoc]

theorem Sleeps.early (sound : s.Sound) (awake : s.Awake moment) {n grant : Nat} {submission : Submission}
    {course : Course} {ticket : LeaseTicket} (present : s.attempts n = some submission)
    (sleeps : submission.attempt = .acquiring course (.pacing ticket grant)) : moment.tick ≤ grant := by
  have here := awake n (sound.numbered n submission present)
  simpa [present, Submission.awake, sleeps] using here

/-! ### Decided once -/

structure Recorded (s : Service σ) : Prop where
  numbered : ∀ d ∈ s.decisions, d.number < s.next
  once : (s.decisions.map (·.number)).Nodup
  waiting : ∀ n submission, s.attempts n = some submission → submission.attempt.isDone = false →
    ∀ d ∈ s.decisions, d.number ≠ n
  kept : ∀ n submission admission, s.attempts n = some submission → submission.attempt = .decided admission →
    ∃ d ∈ s.decisions, d.number = n ∧ d.admission = admission
  named : ∀ d ∈ s.decisions, d.admission.verdict.ticket? = d.admission.lease

theorem opened_recorded (p : Plane σ) : (opened p).Recorded where
  numbered _ member := nomatch member
  once := List.nodup_nil
  waiting _ _ present := nomatch present
  kept _ _ _ present := nomatch present
  named _ member := nomatch member

theorem mem_decided {n : Nat} {submission : Submission} {d : Decision}
    (member : d ∈ decided n moment submission) : d.number = n ∧ submission.attempt = .decided d.admission := by
  unfold decided at member
  split at member
  · rename_i admission done
    rw [List.mem_singleton.mp member]
    exact ⟨rfl, done⟩
  · cases member

/-- A decision tells what was asked for, and under which snapshot. -/
theorem decided_for {n : Nat} {submission : Submission} {d : Decision}
    (member : d ∈ decided n moment submission) :
    d.request = submission.request ∧ d.snapshot = submission.snapshot ∧ d.moment = moment := by
  unfold decided at member
  split at member
  · rw [List.mem_singleton.mp member]
    exact ⟨rfl, rfl, rfl⟩
  · cases member

theorem decided_nodup (n : Nat) (moment : Moment) (submission : Submission) :
    ((decided n moment submission).map (·.number)).Nodup := by
  unfold decided
  split
  · exact List.pairwise_singleton _ _
  · exact List.nodup_nil

theorem turn_decisions (s : Service σ) (moment : Moment) (n : Nat) (submission : Submission) :
    (s.turn moment n submission).decisions = s.decisions ++ decided n moment
      { submission with attempt := (submission.attempt.resume s.plane moment).2.2 } := rfl

theorem Recorded.turn (h : s.Recorded) {n : Nat} {submission : Submission} (ready : submission.Ready s.plane)
    (undecided : ∀ d ∈ s.decisions, d.number ≠ n) {next : Nat} (later : s.next ≤ next) (issued : n < next) :
    ({ s.turn moment n submission with next } : Service σ).Recorded := by
  have turns := ready.turns moment
  have present := s.turn_present moment n submission
  have record := s.turn_decisions moment n submission
  generalize s.turn moment n submission = t at present record
  generalize (submission.attempt.resume s.plane moment).1 = q at turns
  generalize (submission.attempt.resume s.plane moment).2.2 = a at turns present record
  -- The attempt that was turned is `a`; the others are what they were.
  have cases_of : ∀ m kept, t.attempts m = some kept →
      m = n ∧ kept.attempt = a ∨ m ≠ n ∧ s.attempts m = some kept := by
    intro m kept there
    rw [present] at there
    by_cases same : m = n
    · rw [if_pos same] at there
      cases there
      exact Or.inl ⟨same, rfl⟩
    · exact Or.inr ⟨same, by rwa [if_neg same] at there⟩
  have origin : ∀ d ∈ t.decisions, d ∈ s.decisions ∨ d.number = n ∧ a = .decided d.admission := by
    intro d member
    rw [record] at member
    exact (List.mem_append.mp member).imp_right mem_decided
  refine ⟨fun d member => ?_, ?_, fun m kept there waits d member => ?_, fun m kept admission there done => ?_,
    fun d member => ?_⟩
  · rcases origin d member with old | ⟨rfl, -⟩
    · exact Nat.lt_of_lt_of_le (h.numbered d old) later
    · exact issued
  · simp only [record, List.map_append]
    refine List.nodup_append.mpr ⟨h.once, decided_nodup _ _ _, ?_⟩
    intro number old number' new
    obtain ⟨d, member, rfl⟩ := List.mem_map.mp old
    obtain ⟨d', member', rfl⟩ := List.mem_map.mp new
    rw [(mem_decided member').1]
    exact undecided d member
  · rcases origin d member with old | ⟨rfl, done⟩
    · rcases cases_of m kept there with ⟨rfl, -⟩ | ⟨-, there⟩
      · exact undecided d old
      · exact h.waiting m kept there waits d old
    · rcases cases_of m kept there with ⟨-, same⟩ | ⟨other, -⟩
      · rw [same, done] at waits
        cases waits
      · exact fun same => other same.symm
  · rcases cases_of m kept there with ⟨rfl, same⟩ | ⟨-, there⟩
    · rw [same] at done
      refine ⟨⟨m, submission.request, submission.snapshot, moment, admission⟩, ?_, rfl, rfl⟩
      simp only [record, decided, done]
      exact List.mem_append_right _ (List.mem_singleton_self _)
    · obtain ⟨d, member, filed⟩ := h.kept m kept admission there done
      exact ⟨d, by simp only [record]; exact List.mem_append_left _ member, filed⟩
  · rcases origin d member with old | ⟨-, rfl⟩
    · exact h.named d old
    · exact turns.named

theorem Recorded.forget (h : s.Recorded) (p : Plane σ) (n : Nat) : (s.keep p n none).Recorded := by
  have old : ∀ m submission, (s.keep p n none).attempts m = some submission →
      s.attempts m = some submission := by
    intro m submission present
    by_cases same : m = n
    · simp [keep, same] at present
    · simpa [keep, same] using present
  exact ⟨h.numbered, h.once, fun m submission present => h.waiting m submission (old m submission present),
    fun m submission admission present => h.kept m submission admission (old m submission present), h.named⟩

theorem recorded_step [ThrottleStore σ] (sound : s.Sound) (h : s.Recorded) (moment : Moment) (act : Act) :
    (s.step moment act).Recorded := by
  have stepped := s.steps moment act
  generalize s.step moment act = t at stepped
  cases stepped with
  | submitted request =>
    exact h.turn (.begins rfl rfl) (fun d member same => Nat.lt_irrefl _ (same ▸ h.numbered d member))
      (Nat.le_succ _) (Nat.lt_succ_self _)
  | resumed present unfinished =>
    exact h.turn (sound.ready present unfinished) (h.waiting _ _ present unfinished) (Nat.le_refl _)
      (sound.numbered _ _ present)
  | cancelled present => exact h.forget _ _
  | detached present finished => exact h.forget _ _
  | commanded command => exact ⟨h.numbered, h.once, h.waiting, h.kept, h.named⟩
  | idle => exact h

theorem run_recorded [ThrottleStore σ] (p : Plane σ) (acts : List (Moment × Act)) :
    ((opened p).run acts).Recorded := by
  induction acts using List.reverseRecOn with
  | nil => exact opened_recorded p
  | append_singleton acts last ih =>
    rw [run_append]
    exact recorded_step (run_sound p acts) ih last.1 last.2

/-- An attempt that is still kept after its decision is kept as decided. -/
theorem Recorded.decided_is (h : s.Recorded) (sound : s.Sound) {d : Decision} (member : d ∈ s.decisions)
    {submission : Submission} (present : s.attempts d.number = some submission) :
    submission.attempt = .decided d.admission := by
  rcases sound.reached _ submission present with ⟨course, acquisition, acquiring, -⟩ | ⟨admission, done⟩
  · exact absurd rfl (h.waiting _ submission present (by rw [acquiring]; rfl) d member)
  · obtain ⟨d', member', number, rfl⟩ := h.kept _ submission admission present done
    rw [done, List.inj_on_of_nodup_map h.once member' member number]

/-- An act records one decision at most, at its moment. -/
theorem step_decisions [ThrottleStore σ] (s : Service σ) (moment : Moment) (act : Act) :
    (s.step moment act).decisions = s.decisions ∨
      ∃ d, (s.step moment act).decisions = s.decisions ++ [d] ∧ d.moment = moment := by
  have turned (n : Nat) (submission : Submission) : (s.turn moment n submission).decisions = s.decisions ∨
      ∃ d, (s.turn moment n submission).decisions = s.decisions ++ [d] ∧ d.moment = moment := by
    rw [turn_decisions, decided]
    split
    · exact Or.inr ⟨_, rfl, rfl⟩
    · exact Or.inl (List.append_nil _)
  have stepped := s.steps moment act
  generalize s.step moment act = t at stepped
  cases stepped with
  | submitted | resumed => exact turned _ _
  | _ => exact Or.inl rfl

/-- Each decision was made by one act of the run. -/
theorem decided_by_act [ThrottleStore σ] (p : Plane σ) (acts : List (Moment × Act)) {d : Decision}
    (member : d ∈ ((opened p).run acts).decisions) :
    ∃ earlier act later, acts = earlier ++ (d.moment, act) :: later ∧
      (((opened p).run earlier).step d.moment act).decisions = ((opened p).run earlier).decisions ++ [d] := by
  induction acts using List.reverseRecOn with
  | nil => cases member
  | append_singleton acts last ih =>
    obtain ⟨moment, act⟩ := last
    rw [run_append] at member
    have old (member : d ∈ ((opened p).run acts).decisions) : ∃ earlier act' later,
        acts ++ [(moment, act)] = earlier ++ (d.moment, act') :: later ∧
          (((opened p).run earlier).step d.moment act').decisions = ((opened p).run earlier).decisions ++ [d] := by
      obtain ⟨earlier, act', later, same, record⟩ := ih member
      exact ⟨earlier, act', later ++ [(moment, act)], by rw [same, List.append_assoc]; rfl, record⟩
    rcases step_decisions ((opened p).run acts) moment act with same | ⟨d', record, present⟩
    · rw [run, run, same] at member
      exact old member
    · rw [run, run, record] at member
      rcases List.mem_append.mp member with before | new
      · exact old before
      · obtain rfl := List.mem_singleton.mp new
        subst present
        exact ⟨acts, act, [], rfl, record⟩

/-- What an act decides is the attempt that it keeps as decided and that was not before. -/
theorem step_decided [ThrottleStore σ] (sound : s.Sound) {d : Decision}
    (member : d ∈ (s.step moment act).decisions) :
    d ∈ s.decisions ∨
      (∀ submission, s.attempts d.number = some submission → submission.attempt.isDone = false) ∧
      ∃ submission, (s.step moment act).attempts d.number = some submission ∧
        submission.attempt = .decided d.admission := by
  have stepped := s.steps moment act
  generalize s.step moment act = t at stepped member
  cases stepped with
  | submitted request =>
    rcases List.mem_append.mp member with old | new
    · exact Or.inl old
    · obtain ⟨number, done⟩ := mem_decided new
      refine Or.inr ⟨fun submission there => ?_, _, by simp only [turn_present, if_pos number], done⟩
      exact absurd (sound.numbered _ submission there) (Nat.not_lt.mpr (Nat.le_of_eq number.symm))
  | resumed present unfinished =>
    rcases List.mem_append.mp member with old | new
    · exact Or.inl old
    · obtain ⟨number, done⟩ := mem_decided new
      refine Or.inr ⟨fun submission there => ?_, _, by rw [turn_present, if_pos number], done⟩
      rw [number, present] at there
      cases there
      exact unfinished
  | _ => exact Or.inl member

/-- What waits after an act was not decided before it. -/
theorem step_unfinished [ThrottleStore σ] (sound : s.Sound) {n : Nat} {submission old : Submission}
    (present : (s.step moment act).attempts n = some submission) (waits : submission.attempt.isDone = false)
    (before : s.attempts n = some old) : old.attempt.isDone = false := by
  have stepped := s.steps moment act
  generalize s.step moment act = t at stepped present
  have same (there : t.attempts n = s.attempts n) : old.attempt.isDone = false := by
    rw [there, before] at present
    cases present
    exact waits
  cases stepped with
  | submitted request =>
    have other : n ≠ s.next := Nat.ne_of_lt (sound.numbered n old before)
    exact same (by simp only [turn_present, if_neg other])
  | @resumed m _ present' unfinished =>
    by_cases mine : n = m
    · rw [mine, present'] at before
      cases before
      exact unfinished
    · exact same (by rw [turn_present, if_neg mine])
  | @cancelled m _ _ =>
    by_cases mine : n = m
    · simp [keep, mine] at present
    · exact same (if_neg mine)
  | @detached m _ _ _ =>
    by_cases mine : n = m
    · simp [keep, mine] at present
    · exact same (if_neg mine)
  | commanded => exact same rfl
  | idle => exact same rfl

/-! ### Never decided -/

/-- The attempt is gone without a decision. -/
structure Gone (s : Service σ) (n : Nat) : Prop where
  issued : n < s.next
  forgotten : s.attempts n = none
  undecided : ∀ d ∈ s.decisions, d.number ≠ n

theorem Gone.turn {n m : Nat} (gone : s.Gone n) (other : n ≠ m) {submission : Submission} {next : Nat}
    (later : s.next ≤ next) : ({ s.turn moment m submission with next } : Service σ).Gone n where
  issued := Nat.lt_of_lt_of_le gone.issued later
  forgotten := by
    simp only [turn_present, if_neg other]
    exact gone.forgotten
  undecided d member := by
    simp only [turn_decisions] at member
    rcases List.mem_append.mp member with old | new
    · exact gone.undecided d old
    · rw [(mem_decided new).1]
      exact fun same => other same.symm

theorem Gone.forget {n m : Nat} (gone : s.Gone n) (p : Plane σ) : (s.keep p m none).Gone n where
  issued := gone.issued
  forgotten := by
    simp only [keep]
    split
    · rfl
    · exact gone.forgotten
  undecided := gone.undecided

theorem Gone.step [ThrottleStore σ] {n : Nat} (gone : s.Gone n) (moment : Moment) (act : Act) :
    (s.step moment act).Gone n := by
  have stepped := s.steps moment act
  generalize s.step moment act = t at stepped
  cases stepped with
  | submitted request => exact gone.turn (Nat.ne_of_lt gone.issued) (Nat.le_succ _)
  | @resumed m submission present unfinished =>
    refine gone.turn (fun same => ?_) (Nat.le_refl _)
    rw [← same, gone.forgotten] at present
    cases present
  | cancelled present => exact gone.forget _
  | detached present finished => exact gone.forget _
  | commanded command => exact ⟨gone.issued, gone.forgotten, gone.undecided⟩
  | idle => exact gone

/-- An attempt that is cancelled while it waits is never decided. -/
theorem cancelled_gone [ThrottleStore σ] (p : Plane σ) (before after : List (Moment × Act)) (moment : Moment)
    {n : Nat} {submission : Submission} (present : ((opened p).run before).attempts n = some submission)
    (unfinished : submission.attempt.isDone = false) :
    ((opened p).run (before ++ (moment, .cancel n) :: after)).Gone n := by
  have gone : (((opened p).run before).step moment (.cancel n)).Gone n := by
    simp only [step, present]
    exact ⟨(run_sound p before).numbered n submission present, if_pos rfl,
      (run_recorded p before).waiting n submission present unfinished⟩
  rw [run_append, run]
  generalize ((opened p).run before).step moment (.cancel n) = s at gone
  induction after generalizing s with
  | nil => exact gone
  | cons head rest ih => exact ih _ (gone.step head.1 head.2)

end Service

end RelayRamp.Admission
