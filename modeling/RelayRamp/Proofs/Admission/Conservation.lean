import Mathlib.Data.List.Induction
import RelayRamp.Proofs.Admission.Attempts
import RelayRamp.Proofs.Admission.Windows
import RelayRamp.Width

/-!
# What the counters count

Counters used in any order by commits to one window or to both, by checks, readings and the writing of buckets. While
time does not go back, each window holds exactly what was committed to it, whatever limits the commits came with and
whichever windows other uses have moved in between. Every commit stays within its own limit.
-/
namespace RelayRamp.Admission

open RelayRamp.Time RelayRamp.Warmup

/-- A use of the counters. -/
inductive CounterUse where
  | increment (kind : WindowKind) (amount limit : Nat)
  | commit (limits : PhaseLimits) (amount : Nat)
  | check (limits : PhaseLimits) (amount : Nat)
  | reading
  | buckets
  deriving DecidableEq, Repr

/-- An amount that was committed to a window under a limit. -/
structure Commitment where
  kind : WindowKind
  stamp : Stamp
  amount : Nat
  limit : Nat
  deriving DecidableEq, Repr

/-- The commitment was made to the window of the kind that holds the instant. -/
def Commitment.InWindow (c : Commitment) (kind : WindowKind) (now : Instant) : Prop :=
  c.kind = kind ∧ windowIndex kind c.stamp.instant = windowIndex kind now

instance (c : Commitment) (kind : WindowKind) (now : Instant) : Decidable (c.InWindow kind now) :=
  inferInstanceAs (Decidable (_ ∧ _))

/-- The sum of the amounts committed to the window of the kind that holds the instant. -/
def committed (kind : WindowKind) (now : Instant) : List Commitment → Nat
  | [] => 0
  | c :: rest => (if c.InWindow kind now then c.amount else 0) + committed kind now rest

/-- The count of the window of a kind. -/
def readingOf (reading : CounterReading) : WindowKind → Nat
  | .hour => reading.hour
  | .day => reading.day

/-- Counters with the record of what was committed to them. -/
structure Account where
  counters : Counters
  commitments : List Commitment

namespace Account

def opened (start : Stamp) : Account := ⟨.fresh start.instant, []⟩

/-- The account after a use at an instant; what was committed is read off the answer. -/
def use (a : Account) (stamp : Stamp) : CounterUse → Account
  | .increment kind amount limit =>
    let (counters, answer) := a.counters.increment kind amount limit stamp.instant
    ⟨counters, a.commitments ++ if answer.committed then [⟨kind, stamp, amount, limit⟩] else []⟩
  | .commit limits amount =>
    match a.counters.commit limits amount stamp.instant with
    | (counters, .ok _) =>
      ⟨counters, a.commitments ++
        [⟨.hour, stamp, amount, limits.maxPerHour⟩, ⟨.day, stamp, amount, limits.maxPerDay⟩]⟩
    | (counters, .error _) => ⟨counters, a.commitments⟩
  | .check .. | .reading => a
  | .buckets => ⟨a.counters.rolled stamp.instant, a.commitments⟩

def run (a : Account) (uses : List (Stamp × CounterUse)) : Account :=
  uses.foldl (fun a entry => a.use entry.1 entry.2) a

theorem run_append (a : Account) (uses : List (Stamp × CounterUse)) (stamp : Stamp) (use : CounterUse) :
    a.run (uses ++ [(stamp, use)]) = (a.run uses).use stamp use :=
  List.foldl_append

/-! ### One use and one window -/

/-- The commitments to windows of one kind. -/
def ofKind (a : Account) (kind : WindowKind) : List Commitment := a.commitments.filter (·.kind = kind)

/-- What a use can do to the window of one kind. -/
inductive Moves (a : Account) (stamp : Stamp) (kind : WindowKind) (b : Account) : Prop
  | stays (same : b.counters.window kind = a.counters.window kind) (record : b.ofKind kind = a.ofKind kind)
  | rolls (rolled : b.counters.window kind = (a.counters.window kind).roll kind stamp.instant)
      (record : b.ofKind kind = a.ofKind kind)
  | counts {w : Window} (amount limit : Nat) (rolled : w = (a.counters.window kind).roll kind stamp.instant)
      (fits : w.count + amount ≤ limit) (counted : b.counters.window kind = { w with count := w.count + amount })
      (record : b.ofKind kind = a.ofKind kind ++ [⟨kind, stamp, amount, limit⟩])

theorem increment_moves (a : Account) (stamp : Stamp) (target : WindowKind) (amount limit : Nat)
    (kind : WindowKind) : a.Moves stamp kind (a.use stamp (.increment target amount limit)) := by
  generalize roll : (a.counters.window target).roll target stamp.instant = w
  rcases Counters.within_cases target w.count amount limit with ⟨fits, within⟩ | refused
  · have used : a.use stamp (.increment target amount limit) =
        ⟨a.counters.withWindow target { w with count := w.count + amount },
          a.commitments ++ [⟨target, stamp, amount, limit⟩]⟩ := by
      simp [use, Counters.increment, roll, within]
    rw [used]
    by_cases same : kind = target
    · subst same
      exact .counts amount limit roll.symm fits (by simp) (by simp [ofKind])
    · exact .stays (by simp [same]) (by simp [ofKind, Ne.symm same])
  · have used : a.use stamp (.increment target amount limit) =
        ⟨a.counters.withWindow target w, a.commitments⟩ := by
      simp [use, Counters.increment, roll, refused]
    rw [used]
    by_cases same : kind = target
    · subst same
      exact .rolls (by simp [roll]) rfl
    · exact .stays (by simp [same]) rfl

theorem commit_moves (a : Account) (stamp : Stamp) (limits : PhaseLimits) (amount : Nat) (kind : WindowKind) :
    a.Moves stamp kind (a.use stamp (.commit limits amount)) := by
  rcases Counters.commit_cases a.counters limits amount stamp.instant with ⟨fits, reading, done⟩ | ⟨reason, refused⟩
  · have window := (a.counters.rolled stamp.instant).window_plus kind amount
    simp only [use, done]
    cases kind with
    | hour => exact .counts amount limits.maxPerHour rfl fits.hour window (by simp [ofKind])
    | day => exact .counts amount limits.maxPerDay rfl fits.day window (by simp [ofKind])
  · simp only [use, refused]
    exact .rolls (Counters.window_rolled _ _ _) rfl

theorem use_moves (a : Account) (stamp : Stamp) (use : CounterUse) (kind : WindowKind) :
    a.Moves stamp kind (a.use stamp use) := by
  cases use with
  | increment target amount limit => exact a.increment_moves stamp target amount limit kind
  | commit limits amount => exact a.commit_moves stamp limits amount kind
  | check | reading => exact .stays rfl rfl
  | buckets => exact .rolls (Counters.window_rolled _ _ _) rfl

/-! ### Runs -/

/-- What was committed to windows of one kind, as a ledger. -/
def ledger (a : Account) (kind : WindowKind) : Ledger := (a.ofKind kind).map fun c => (c.stamp.instant, c.amount)

theorem committed_eq (a : Account) (kind : WindowKind) (now : Instant) :
    committed kind now a.commitments = Ledger.total kind (kind.start now) (a.ledger kind) := by
  unfold ledger ofKind
  induction a.commitments with
  | nil => rfl
  | cons c rest ih =>
    rw [committed, ih]
    by_cases same : c.kind = kind
    · simp [same, Ledger.total, Commitment.InWindow, start_eq_iff]
    · simp [same, Commitment.InWindow]

/-- Up to an instant the window of a kind holds what was committed to it, and in every window the total is within the
limit of the last commitment. -/
structure Sound (a : Account) (kind : WindowKind) (now : Instant) : Prop where
  records : (a.counters.window kind).Records kind (a.ledger kind) now
  bounded {before after : List Commitment} {c : Commitment} : a.ofKind kind = before ++ c :: after →
    (∀ d ∈ after, kind.start d.stamp.instant ≠ kind.start c.stamp.instant) →
    Ledger.total kind (kind.start c.stamp.instant) (a.ledger kind) ≤ c.limit

variable {a b : Account} {kind : WindowKind} {stamp : Stamp} {now later : Instant}

theorem ledger_eq (record : b.ofKind kind = a.ofKind kind) : b.ledger kind = a.ledger kind :=
  congrArg (List.map _) record

theorem ledger_append {c : Commitment} (record : b.ofKind kind = a.ofKind kind ++ [c]) :
    b.ledger kind = a.ledger kind ++ [(c.stamp.instant, c.amount)] := by
  rw [ledger, record, List.map_append]
  rfl

theorem opened_sound {start : Stamp} (kind : WindowKind) (le : start.instant ≤ now) :
    (opened start).Sound kind now where
  records := by
    have window : (opened start).counters.window kind = ⟨kind.start start.instant, 0⟩ := by cases kind <;> rfl
    rw [window]
    exact ⟨start_mono kind le, rfl, fun _ member => nomatch member⟩
  bounded split := by simp [opened, ofKind] at split

theorem Sound.mono (h : a.Sound kind now) (le : now ≤ later) : a.Sound kind later :=
  ⟨h.records.mono le, h.bounded⟩

/-- After a commit the window is that of its instant, and its count is the total in it. -/
theorem Sound.counted (h : a.Sound kind stamp.instant) {amount limit : Nat}
    (record : b.ofKind kind = a.ofKind kind ++ [⟨kind, stamp, amount, limit⟩]) :
    let w := (a.counters.window kind).roll kind stamp.instant
    Window.Records kind { w with count := w.count + amount } (b.ledger kind) stamp.instant ∧
      Ledger.total kind (kind.start stamp.instant) (b.ledger kind) = w.count + amount := by
  intro w
  have current : w.start = kind.start stamp.instant := h.records.rolled_start
  have records := h.records.rolled.counted current amount
  rw [← ledger_append record] at records
  refine ⟨records, ?_⟩
  rw [← current]
  exact records.exact.symm

theorem Sound.bounded_append (h : a.Sound kind stamp.instant) {amount limit : Nat}
    (record : b.ofKind kind = a.ofKind kind ++ [⟨kind, stamp, amount, limit⟩])
    (fits : ((a.counters.window kind).roll kind stamp.instant).count + amount ≤ limit)
    {before after : List Commitment} {c : Commitment} (split : b.ofKind kind = before ++ c :: after)
    (last : ∀ d ∈ after, kind.start d.stamp.instant ≠ kind.start c.stamp.instant) :
    Ledger.total kind (kind.start c.stamp.instant) (b.ledger kind) ≤ c.limit := by
  rw [record] at split
  rcases List.eq_nil_or_concat after with rfl | ⟨earlier, d, rfl⟩
  · obtain ⟨-, new⟩ := List.append_inj' split rfl
    obtain rfl := List.singleton_inj.mp new
    rw [(h.counted record).2]
    exact fits
  · rw [List.concat_eq_append] at split last
    rw [← List.cons_append, ← List.append_assoc] at split
    obtain ⟨old, new⟩ := List.append_inj' split rfl
    obtain rfl := List.singleton_inj.mp new
    have other : kind.start stamp.instant ≠ kind.start c.stamp.instant :=
      last _ (List.mem_append_right _ (List.mem_singleton_self _))
    rw [ledger_append record, Ledger.total_append, Ledger.total, if_neg other]
    exact h.bounded old fun d member => last d (List.mem_append_left _ member)

theorem Moves.sound (moves : a.Moves stamp kind b) (h : a.Sound kind stamp.instant) :
    b.Sound kind stamp.instant := by
  cases moves with
  | stays same record =>
    refine ⟨?_, fun split last => ?_⟩
    · rw [same, ledger_eq record]
      exact h.records
    · rw [ledger_eq record]
      exact h.bounded (record ▸ split) last
  | rolls rolled record =>
    refine ⟨?_, fun split last => ?_⟩
    · rw [rolled, ledger_eq record]
      exact h.records.rolled
    · rw [ledger_eq record]
      exact h.bounded (record ▸ split) last
  | counts amount limit rolled fits counted record =>
    subst rolled
    refine ⟨?_, fun split last => h.bounded_append record fits split last⟩
    rw [counted]
    exact (h.counted record).1

/-- The instants of a run, from the start of the counters on. -/
def instants (start : Stamp) (uses : List (Stamp × CounterUse)) : List Instant :=
  start.instant :: uses.map (·.1.instant)

theorem run_sound {start : Stamp} {uses : List (Stamp × CounterUse)}
    (ordered : (instants start uses).Pairwise (· ≤ ·)) (kind : WindowKind) :
    ∀ now, (∀ earlier ∈ instants start uses, earlier ≤ now) → ((opened start).run uses).Sound kind now := by
  induction uses using List.reverseRecOn with
  | nil => exact fun now last => opened_sound kind (last _ (List.mem_cons_self ..))
  | append_singleton uses entry ih =>
    obtain ⟨stamp, use⟩ := entry
    have split : instants start (uses ++ [(stamp, use)]) = instants start uses ++ [stamp.instant] := by
      simp [instants]
    rw [split] at ordered ⊢
    obtain ⟨ordered, -, bound⟩ := List.pairwise_append.mp ordered
    intro now last
    have before := ih ordered stamp.instant fun earlier member => bound earlier member _ (List.mem_singleton_self _)
    rw [run_append]
    have now := last _ (List.mem_append_right _ (List.mem_singleton_self _))
    exact ((use_moves _ stamp use kind).sound before).mono now

theorem readingOf_reading (c : Counters) (now : Instant) (kind : WindowKind) :
    readingOf (c.reading now) kind = (c.window kind).observed kind now := by
  cases kind <;> rfl

/-- Nothing is lost and nothing counted twice. In every run of uses at instants that do not go back, written with any
offsets, and for every instant after it, the count of each kind is the sum of what was committed to the window that
holds the instant. In each window the total is within the limit of its last commitment. Every use from there on that
commits raises the count that its instant sees by the amount, to no more than its limit: a sum that fits the limit
fits its width. -/
theorem counts_conserved {start : Stamp} {uses : List (Stamp × CounterUse)}
    (ordered : (instants start uses).Pairwise (· ≤ ·)) (kind : WindowKind) :
    let a := (opened start).run uses
    (∀ now, (∀ earlier ∈ instants start uses, earlier ≤ now) →
      readingOf (a.counters.reading now) kind = committed kind now a.commitments) ∧
    (∀ before c after, a.commitments = before ++ c :: after → c.kind = kind →
      (∀ d ∈ after, ¬ d.InWindow kind c.stamp.instant) →
      committed kind c.stamp.instant a.commitments ≤ c.limit) ∧
    ∀ stamp use made, (∀ earlier ∈ instants start uses, earlier ≤ stamp.instant) →
      let b := a.use stamp use
      b.commitments = a.commitments ++ made → ∀ c ∈ made, c.kind = kind →
        let sum := readingOf (a.counters.reading stamp.instant) kind + c.amount
        readingOf (b.counters.reading stamp.instant) kind = sum ∧ sum ≤ c.limit ∧
          (c.limit < Width.long → sum < Width.long) := by
  intro a
  have sound := run_sound ordered kind
  refine ⟨fun now last => ?_, fun before c after split same last => ?_, ?_⟩
  · rw [readingOf_reading, (sound now last).records.observed, committed_eq]
  · obtain ⟨now, latest⟩ := exists_later (instants start uses)
    have split' : a.ofKind kind = before.filter (·.kind = kind) ++ c :: after.filter (·.kind = kind) := by
      rw [ofKind, split, List.filter_append, List.filter_cons_of_pos (by simpa using same)]
    rw [committed_eq]
    refine (sound now latest).bounded split' fun d member together => ?_
    obtain ⟨member, kind_eq⟩ := List.mem_filter.mp member
    exact last d member ⟨by simpa using kind_eq, (start_eq_iff kind _ _).mp together⟩
  · intro stamp use made last b record c member same
    have before := sound stamp.instant last
    have moves := a.use_moves stamp use kind
    have after : b.ofKind kind = a.ofKind kind ++ made.filter (·.kind = kind) := by
      rw [ofKind, record, List.filter_append, ← ofKind]
    have recorded : c ∈ made.filter (·.kind = kind) := List.mem_filter.mpr ⟨member, by simpa using same⟩
    rw [readingOf_reading, readingOf_reading, (moves.sound before).records.observed, Window.observed_eq]
    cases moves with
    | stays _ record' | rolls _ record' =>
      rw [List.self_eq_append_right.mp (record'.symm.trans after)] at recorded
      cases recorded
    | counts amount limit rolled fits _ record' =>
      rw [← List.append_cancel_left (record'.symm.trans after)] at recorded
      obtain rfl := List.mem_singleton.mp recorded
      subst rolled
      exact ⟨(before.counted record').2, fits, Nat.lt_of_le_of_lt fits⟩

/-- Uses around midnight, written with different offsets: a commit that the day has no room for, one in the first hour
of the next day, and one in its second hour. -/
theorem counts_conserved_across_midnight :
    let minute (n offset : Int) : Stamp := ⟨⟨n * 60000000000⟩, offset⟩
    let limits : PhaseLimits := ⟨5, 8, 0⟩
    let uses : List (Stamp × CounterUse) :=
      [(minute (-60) 330, .commit limits 3), (minute (-30) (-60), .increment .day 4 10),
        (minute (-1) 0, .commit limits 2), (minute 0 45, .commit limits 2), (minute 59 0, .increment .hour 3 5),
        (minute 60 0, .buckets), (minute 61 0, .commit limits 5)]
    let now := minute 61 (-720)
    (instants (minute (-90) 0) uses).Pairwise (· ≤ ·) ∧
      let a := (opened (minute (-90) 0)).run uses
      a.commitments.map (fun c => (c.kind, c.amount)) =
        [(.hour, 3), (.day, 3), (.day, 4), (.hour, 2), (.day, 2), (.hour, 3), (.hour, 5), (.day, 5)] ∧
      readingOf (a.counters.reading now.instant) .hour = 5 ∧ readingOf (a.counters.reading now.instant) .day = 7 := by
  intro minute limits uses now
  have ordered : (instants (minute (-90) 0) uses).Pairwise (· ≤ ·) := by decide +kernel
  have last : ∀ earlier ∈ instants (minute (-90) 0) uses, earlier ≤ now.instant := by decide +kernel
  have hour := (counts_conserved ordered .hour).1 now.instant last
  have day := (counts_conserved ordered .day).1 now.instant last
  exact ⟨ordered, by decide +kernel, hour.trans (by decide +kernel), day.trans (by decide +kernel)⟩

end Account

end RelayRamp.Admission
