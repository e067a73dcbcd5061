import Mathlib.Data.List.Induction
import RelayRamp.Proofs.Admission.Attempts
import RelayRamp.Proofs.Plane.Commands

/-!
# Attempts and commands on one plane

Any number of attempts under way at once, together with the commands of operators and of maintenance. An act is one
uninterrupted step: a request is submitted and begun, an attempt goes on, an attempt is cancelled or its lease is
dropped, a lease is kept without its admission, or a command is performed. Acts come in any order, at any moments.

The decisions are recorded together with the snapshot under which the attempt began. An act decides at most one
attempt, and counts only what it admits with a lease.
-/
namespace RelayRamp.Admission

open RelayRamp.Lease RelayRamp.Plane RelayRamp.Routing RelayRamp.Store RelayRamp.Time RelayRamp.Warmup

/-- A request that was submitted, with the snapshot published then and how far its attempt has come. -/
structure Submission where
  request : AdmissionRequest
  snapshot : Snapshot
  attempt : Attempt

/-- What was decided, and when. -/
structure Decision where
  number : Nat
  request : AdmissionRequest
  snapshot : Snapshot
  moment : Moment
  admission : Admission

structure Service (σ : Type) where
  plane : Plane σ
  /-- Attempts by number. One that was cancelled or has let its lease go is gone. -/
  attempts : Nat → Option Submission
  next : Nat
  decisions : List Decision

inductive Act where
  | submit (request : AdmissionRequest)
  /-- An attempt goes on as far as it can. -/
  | resume (number : Nat)
  /-- An attempt is cancelled, or the lease of its admission is dropped. -/
  | cancel (number : Nat)
  /-- The lease of an admission is kept: only its ticket is left. -/
  | detach (number : Nat)
  | command (command : Command)

namespace Service

variable {σ : Type}

/-- A plane without any attempt. -/
def opened (p : Plane σ) : Service σ := ⟨p, fun _ => none, 0, []⟩

/-- Keeps an attempt under its number, or forgets it. -/
def keep (s : Service σ) (p : Plane σ) (number : Nat) (submission : Option Submission) : Service σ :=
  { s with plane := p, attempts := fun n => if n = number then submission else s.attempts n }

/-- The decision of an attempt that has come this far. -/
def decided (number : Nat) (moment : Moment) (submission : Submission) : List Decision :=
  match submission.attempt with
  | .decided admission => [⟨number, submission.request, submission.snapshot, moment, admission⟩]
  | _ => []

/-- An attempt goes on; its decision is recorded. -/
def turn (s : Service σ) (moment : Moment) (number : Nat) (submission : Submission) : Service σ :=
  let result := submission.attempt.resume s.plane moment
  let submission := { submission with attempt := result.2.2 }
  { s.keep result.1 number (some submission) with
    decisions := s.decisions ++ decided number moment submission }

def step [ThrottleStore σ] (s : Service σ) (moment : Moment) : Act → Service σ
  | .submit request =>
    { s.turn moment s.next ⟨request, s.plane.snapshot, .requested request⟩ with next := s.next + 1 }
  | .resume number =>
    match s.attempts number with
    | some submission => if submission.attempt.isDone then s else s.turn moment number submission
    | none => s
  | .cancel number =>
    match s.attempts number with
    | some submission => s.keep (submission.attempt.cancel s.plane moment).1 number none
    | none => s
  | .detach number =>
    match s.attempts number with
    | some submission => if submission.attempt.isDone then s.keep s.plane number none else s
    | none => s
  | .command command => { s with plane := command.perform moment s.plane }

/-- The service after acts at the given moments. -/
def run [ThrottleStore σ] (s : Service σ) : List (Moment × Act) → Service σ
  | [] => s
  | (moment, act) :: rest => (s.step moment act).run rest

theorem run_append [ThrottleStore σ] (s : Service σ) (before after : List (Moment × Act)) :
    s.run (before ++ after) = (s.run before).run after := by
  induction before generalizing s with
  | nil => rfl
  | cons head rest ih => exact ih _

end Service

/-! ### Attempts under way -/

/-- The attempt goes on by the snapshot with which it began, and under which throttling applied. -/
structure Course.Follows (course : Course) (request : AdmissionRequest) (snapshot : Snapshot) : Prop where
  refreshed : snapshot.degraded = false
  enabled : snapshot.config.enabled = true
  config : course.config = snapshot.config
  table : snapshot.table = .ok course.table
  amount : course.amount = request.batchSize

namespace Submission

variable {σ : Type}

/-- How far an attempt may have come when it goes on: it begins, under the present snapshot, or it waits. -/
inductive Ready (p : Plane σ) (submission : Submission) : Prop
  | begins (requested : submission.attempt = .requested submission.request)
      (present : submission.snapshot = p.snapshot)
  | waits {course : Course} {acquisition : Acquisition}
      (acquiring : submission.attempt = .acquiring course acquisition)
      (follows : course.Follows submission.request submission.snapshot)

/-- What an attempt can come to when it goes on. -/
inductive Turns (p : Plane σ) (submission : Submission) (moment : Moment) : Plane σ → Attempt → Prop
  | decided {verdict : Verdict} (requested : submission.attempt = .requested submission.request)
      (unleased : verdict.ticket? = none) :
      Turns p submission moment { p with tallies := p.tallies.count verdict } (.decided ⟨verdict, none⟩)
  | proceeded {course : Course} {acquisition : Acquisition} {q : Plane σ} {a : Attempt}
      (follows : course.Follows submission.request submission.snapshot)
      (origin : submission.attempt = .acquiring course acquisition ∨
        submission.attempt = .requested submission.request ∧
          ∃ timeout, acquisition = .requested course.route.transport timeout)
      (proceeds : Attempt.Proceeds p course acquisition moment q a) : Turns p submission moment q a

theorem Ready.turns {p : Plane σ} {submission : Submission} (ready : submission.Ready p) (moment : Moment) :
    submission.Turns p moment (submission.attempt.resume p moment).1
      (submission.attempt.resume p moment).2.2 := by
  cases ready with
  | begins requested present =>
    simp only [requested, Attempt.resume]
    have begun := Attempt.begins p submission.request moment
    generalize (Attempt.begin p submission.request moment).1 = q at begun
    generalize (Attempt.begin p submission.request moment).2.2 = a at begun
    cases begun with
    | decided unleased => exact .decided requested unleased
    | proceeded refreshed enabled table proceeds =>
      rw [← present] at refreshed enabled table
      exact .proceeded ⟨refreshed, enabled, by rw [present], table, rfl⟩
        (Or.inr ⟨requested, _, rfl⟩) proceeds
  | waits acquiring follows =>
    simp only [acquiring, Attempt.resume]
    exact .proceeded follows (Or.inl acquiring) (Attempt.proceeds p _ _ moment)

/-- An attempt that goes on still waits, by the same snapshot, or it is decided. -/
theorem Turns.reached {p q : Plane σ} {submission : Submission} {moment : Moment} {a : Attempt}
    (turns : submission.Turns p moment q a) :
    (∃ course acquisition, a = .acquiring course acquisition ∧
      course.Follows submission.request submission.snapshot) ∨
      ∃ admission, a = .decided admission := by
  cases turns with
  | decided => exact Or.inr ⟨_, rfl⟩
  | proceeded follows _ proceeds =>
    cases proceeds with
    | waits => exact Or.inl ⟨_, _, rfl, follows⟩
    | failed => exact Or.inr ⟨_, rfl⟩
    | admitted => exact Or.inr ⟨_, rfl⟩
    | lost => exact Or.inr ⟨_, rfl⟩

end Submission

namespace Service

variable {σ : Type} {s : Service σ}

/-- Every attempt that is kept waits by its own snapshot, or it is decided; and its number was given out. -/
structure Sound (s : Service σ) : Prop where
  reached (n : Nat) (submission : Submission) : s.attempts n = some submission →
    (∃ course acquisition, submission.attempt = .acquiring course acquisition ∧
      course.Follows submission.request submission.snapshot) ∨
      ∃ admission, submission.attempt = .decided admission
  numbered (n : Nat) (submission : Submission) : s.attempts n = some submission → n < s.next

theorem opened_sound (p : Plane σ) : (opened p).Sound := by
  constructor <;> rintro n submission present <;> cases present

theorem Sound.ready (h : s.Sound) {n : Nat} {submission : Submission} (present : s.attempts n = some submission)
    (unfinished : submission.attempt.isDone = false) : submission.Ready s.plane := by
  rcases h.reached n submission present with ⟨course, acquisition, acquiring, follows⟩ | ⟨admission, decided⟩
  · exact .waits acquiring follows
  · rw [decided] at unfinished
    cases unfinished

theorem turn_present (s : Service σ) (moment : Moment) (n : Nat) (submission : Submission) (m : Nat) :
    (s.turn moment n submission).attempts m =
      if m = n then some { submission with attempt := (submission.attempt.resume s.plane moment).2.2 }
      else s.attempts m := by
  simp only [Service.turn, keep]

theorem Sound.turn (h : s.Sound) {n : Nat} {submission : Submission} (ready : submission.Ready s.plane)
    (moment : Moment) {next : Nat} (later : s.next ≤ next) (issued : n < next) :
    ({ s.turn moment n submission with next } : Service σ).Sound := by
  refine ⟨fun m kept present => ?_, fun m kept present => ?_⟩
  · by_cases same : m = n
    · subst same
      rw [turn_present, if_pos rfl] at present
      cases present
      rcases (ready.turns moment).reached with ⟨course, acquisition, waits, follows⟩ | ⟨admission, decided⟩
      · exact Or.inl ⟨course, acquisition, waits, follows⟩
      · exact Or.inr ⟨admission, decided⟩
    · rw [turn_present, if_neg same] at present
      exact h.reached m kept present
  · by_cases same : m = n
    · exact same ▸ issued
    · rw [turn_present, if_neg same] at present
      exact Nat.lt_of_lt_of_le (h.numbered m kept present) later

theorem Sound.forget (h : s.Sound) (p : Plane σ) (n : Nat) : (s.keep p n none).Sound := by
  have old : ∀ m submission, (s.keep p n none).attempts m = some submission → s.attempts m = some submission := by
    intro m submission present
    by_cases same : m = n
    · simp [keep, same] at present
    · simpa [keep, same] using present
  exact ⟨fun m submission present => h.reached m submission (old m submission present),
    fun m submission present => h.numbered m submission (old m submission present)⟩

theorem sound_step [ThrottleStore σ] (h : s.Sound) (moment : Moment) (act : Act) : (s.step moment act).Sound := by
  cases act with
  | submit request => exact h.turn (.begins rfl rfl) moment (Nat.le_succ _) (Nat.lt_succ_self _)
  | resume n =>
    simp only [step]
    split
    · rename_i submission present
      split
      · exact h
      · rename_i unfinished
        exact h.turn (h.ready present (by simpa using unfinished)) moment (Nat.le_refl _)
          (h.numbered n submission present)
    · exact h
  | cancel n =>
    simp only [step]
    split
    · exact h.forget _ n
    · exact h
  | detach n =>
    simp only [step]
    split
    · split
      · exact h.forget _ n
      · exact h
    · exact h
  | command command => exact ⟨h.reached, h.numbered⟩

theorem run_sound [ThrottleStore σ] (p : Plane σ) (acts : List (Moment × Act)) : ((opened p).run acts).Sound := by
  induction acts using List.reverseRecOn with
  | nil => exact opened_sound p
  | append_singleton acts last ih =>
    rw [run_append]
    exact sound_step ih last.1 last.2

/-! ### What an act counts -/

/-- What an act counts: nothing, or the batch of the attempt that it admits with a lease. -/
inductive Counts (s : Service σ) (moment : Moment) (t : Service σ) : Prop
  | nothing (decided : List Decision) (record : t.decisions = s.decisions ++ decided)
      (unleased : ∀ d ∈ decided, d.admission.lease = none)
      (counters : t.plane.counters = s.plane.counters ∨
        t.plane.counters = s.plane.counters.rolled moment.wall)
  | admitted (d : Decision) {ticket : LeaseTicket} {course : Course}
      (record : t.decisions = s.decisions ++ [d]) (lease : d.admission.lease = some ticket)
      (present : d.moment = moment) (follows : course.Follows d.request d.snapshot)
      (fits : (s.plane.counters.rolled moment.wall).Fits course.amount
        (course.config.limits course.table moment.wall))
      (counters : t.plane.counters = (s.plane.counters.rolled moment.wall).plus course.amount)

theorem turn_counts {submission : Submission} (ready : submission.Ready s.plane) (moment : Moment) (n : Nat) :
    s.Counts moment (s.turn moment n submission) := by
  have turns := ready.turns moment
  simp only [Service.turn]
  generalize (submission.attempt.resume s.plane moment).1 = q at turns
  generalize (submission.attempt.resume s.plane moment).2.2 = a at turns
  cases turns with
  | decided => exact .nothing [⟨n, _, _, moment, _⟩] rfl (by simp) (Or.inl rfl)
  | proceeded follows origin proceeds =>
    cases proceeds with
    | waits => exact .nothing [] rfl (by simp) (Or.inl rfl)
    | failed => exact .nothing [⟨n, _, _, moment, _⟩] rfl (by simp) (Or.inl rfl)
    | lost => exact .nothing [⟨n, _, _, moment, _⟩] rfl (by simp) (Or.inr rfl)
    | admitted resumed fits => exact .admitted ⟨n, _, _, moment, _⟩ rfl rfl rfl follows fits rfl

theorem counters_of_changes [ThrottleStore σ] {moment : Moment} {p q : Plane σ} (changes : Changes moment p q) :
    q.counters = p.counters ∨ q.counters = p.counters.rolled moment.wall := by
  induction changes with
  | refl => exact Or.inl rfl
  | tail _ change ih =>
    cases change with
    | rolled =>
      refine Or.inr ?_
      rcases ih with same | rolled
      · rw [same]
      · rw [rolled, Counters.rolled_rolled]
    | _ => exact ih

theorem counters_of_cancel (p : Plane σ) (moment : Moment) (a : Attempt) :
    (a.cancel p moment).1.counters = p.counters := by
  cases a with
  | decided admission =>
    obtain ⟨verdict, _ | ticket⟩ := admission
    · rfl
    · rfl
  | _ => rfl

theorem step_counts [ThrottleStore σ] (h : s.Sound) (moment : Moment) (act : Act) :
    s.Counts moment (s.step moment act) := by
  have unchanged {t : Service σ} (record : t.decisions = s.decisions)
      (counters : t.plane.counters = s.plane.counters) : s.Counts moment t :=
    .nothing [] (by simp [record]) (by simp) (Or.inl counters)
  cases act with
  | submit request =>
    have ready : Submission.Ready s.plane ⟨request, s.plane.snapshot, .requested request⟩ := .begins rfl rfl
    cases turn_counts ready moment s.next with
    | nothing decided record unleased counters => exact .nothing decided record unleased counters
    | admitted d record lease present follows fits counters =>
      exact .admitted d record lease present follows fits counters
  | resume n =>
    simp only [step]
    split
    · rename_i submission present
      split
      · exact unchanged rfl rfl
      · rename_i unfinished
        exact turn_counts (h.ready present (by simpa using unfinished)) moment n
    · exact unchanged rfl rfl
  | cancel n =>
    simp only [step]
    split
    · exact unchanged rfl (counters_of_cancel _ _ _)
    · exact unchanged rfl rfl
  | detach n =>
    simp only [step]
    split
    · split
      · exact unchanged rfl rfl
      · exact unchanged rfl rfl
    · exact unchanged rfl rfl
  | command command =>
    refine .nothing [] (by simp [step]) (by simp) ?_
    rcases command.changes moment s.plane with changes | ⟨_, _, -, released⟩ | ⟨-, reclaimed⟩
    · exact counters_of_changes changes
    · exact Or.inl (by simp only [step, released])
    · exact Or.inl (by simp only [step, reclaimed])

end Service

end RelayRamp.Admission
