import RelayRamp.Admission.Counters

/-!
# A window and what was counted in it

While time does not go back, a window that is moved to each instant before something is counted at it holds the sum of
what was counted since its start. Windows of one kind are numbered from the epoch on; an instant belongs to the
window that starts last before it.
-/
namespace RelayRamp.Admission

open RelayRamp.Time

theorem exists_later (earlier : List Instant) : ∃ now : Instant, ∀ t ∈ earlier, t ≤ now := by
  induction earlier with
  | nil => exact ⟨⟨0⟩, fun _ member => nomatch member⟩
  | cons t rest ih =>
    obtain ⟨now, later⟩ := ih
    refine ⟨⟨max t.nanos now.nanos⟩, fun u member => ?_⟩
    rcases List.mem_cons.mp member with rfl | member
    · exact Int.le_max_left _ _
    · exact Int.le_trans (later u member) (Int.le_max_right _ _)

theorem span_pos (kind : WindowKind) : 0 < kind.span := by
  cases kind <;> decide

theorem start_mono (kind : WindowKind) {a b : Instant} (le : a ≤ b) : kind.start a ≤ kind.start b :=
  Int.mul_le_mul_of_nonneg_left (Int.ediv_le_ediv (span_pos kind) le) (Int.le_of_lt (span_pos kind))

/-- The number of the window that holds the instant. -/
def windowIndex (kind : WindowKind) (now : Instant) : Int := now.nanos / kind.span

theorem start_eq_iff (kind : WindowKind) (a b : Instant) :
    kind.start a = kind.start b ↔ windowIndex kind a = windowIndex kind b := by
  have nonzero : kind.span ≠ 0 := (Int.ne_of_lt (span_pos kind)).symm
  constructor
  · intro same
    exact Int.eq_of_mul_eq_mul_left nonzero (congrArg Instant.nanos same)
  · intro same
    exact congrArg (fun index => (⟨kind.span * index⟩ : Instant)) same

/-- A window begins with an instant of its own. -/
theorem start_start (kind : WindowKind) (now : Instant) : kind.start (kind.start now) = kind.start now := by
  rw [start_eq_iff]
  exact Int.mul_ediv_cancel_left _ (Int.ne_of_gt (span_pos kind))

/-- An instant lies in a window just when it has the window's number. -/
theorem within_window_iff (kind : WindowKind) (w now : Instant) :
    kind.start w ≤ now ∧ now < (kind.start w).addNanos kind.span ↔ windowIndex kind w = windowIndex kind now := by
  have pos := span_pos kind
  change kind.span * (w.nanos / kind.span) ≤ now.nanos ∧ now.nanos < kind.span * (w.nanos / kind.span) + kind.span ↔
    w.nanos / kind.span = now.nanos / kind.span
  constructor
  · rintro ⟨le, lt⟩
    refine Int.le_antisymm (Int.le_ediv_of_mul_le pos (Int.mul_comm .. ▸ le)) (Int.lt_add_one_iff.mp ?_)
    refine Int.ediv_lt_of_lt_mul pos ?_
    rwa [Int.add_mul, Int.one_mul, Int.mul_comm (w.nanos / kind.span)]
  · intro same
    rw [same]
    exact ⟨Int.mul_ediv_self_le (Int.ne_of_gt pos), Int.lt_mul_ediv_self_add pos⟩

namespace Window

theorem observed_le (w : Window) (kind : WindowKind) (now : Instant) : w.observed kind now ≤ w.count := by
  unfold observed
  split
  · exact Nat.zero_le _
  · exact Nat.le_refl _

/-- What an instant sees is the count after the window has moved to it. -/
theorem observed_eq (w : Window) (kind : WindowKind) (now : Instant) :
    w.observed kind now = (w.roll kind now).count := by
  unfold observed roll
  split <;> rfl

end Window

/-! ### Ledgers -/

/-- Amounts with the instants at which they were counted. -/
abbrev Ledger := List (Instant × Nat)

/-- The sum of the amounts counted in the window with this start. -/
def Ledger.total (kind : WindowKind) (start : Instant) : Ledger → Nat
  | [] => 0
  | (instant, amount) :: rest => (if kind.start instant = start then amount else 0) + Ledger.total kind start rest

theorem Ledger.total_append (kind : WindowKind) (start : Instant) (before after : Ledger) :
    Ledger.total kind start (before ++ after) = Ledger.total kind start before + Ledger.total kind start after := by
  induction before with
  | nil => exact (Nat.zero_add _).symm
  | cons entry rest ih => simp only [List.cons_append, Ledger.total, ih, Nat.add_assoc]

/-- Nothing was counted in a window that has no entry. -/
theorem Ledger.total_eq_zero {kind : WindowKind} {start : Instant} {ledger : Ledger}
    (none : ∀ entry ∈ ledger, kind.start entry.1 ≠ start) : Ledger.total kind start ledger = 0 := by
  induction ledger with
  | nil => rfl
  | cons entry rest ih =>
    rw [Ledger.total, if_neg (none entry (List.mem_cons_self ..)),
      ih fun other member => none other (List.mem_cons_of_mem _ member)]

namespace Window

/-- Up to an instant the window holds what was counted: it is not ahead, and nothing was counted ahead of it. -/
structure Records (kind : WindowKind) (w : Window) (ledger : Ledger) (now : Instant) : Prop where
  behind : w.start ≤ kind.start now
  exact : w.count = Ledger.total kind w.start ledger
  past : ∀ entry ∈ ledger, kind.start entry.1 ≤ w.start

namespace Records

variable {kind : WindowKind} {w : Window} {ledger : Ledger} {now later : Instant}

theorem mono (h : Records kind w ledger now) (le : now ≤ later) : Records kind w ledger later :=
  { h with behind := Int.le_trans h.behind (start_mono kind le) }

/-- Nothing was counted in a window ahead. -/
theorem none_ahead (h : Records kind w ledger now) {start : Instant} (ahead : w.start < start) :
    Ledger.total kind start ledger = 0 :=
  Ledger.total_eq_zero fun entry member same => by
    have le := h.past entry member
    rw [same] at le
    exact Int.lt_irrefl _ (Int.lt_of_lt_of_le ahead le)

theorem start_eq (h : Records kind w ledger now) (current : ¬ w.start < kind.start now) :
    w.start = kind.start now := by
  have same : w.start.nanos = (kind.start now).nanos := Int.le_antisymm h.behind (Int.not_lt.mp current)
  cases hs : w.start
  cases hk : kind.start now
  rw [hs, hk] at same
  exact congrArg _ same

theorem observed (h : Records kind w ledger now) :
    w.observed kind now = Ledger.total kind (kind.start now) ledger := by
  unfold Window.observed
  split
  · rename_i ahead
    exact (h.none_ahead ahead).symm
  · rename_i current
    rw [h.exact, h.start_eq current]

theorem rolled (h : Records kind w ledger now) : Records kind (w.roll kind now) ledger now := by
  unfold Window.roll
  split
  · rename_i ahead
    exact ⟨Int.le_refl _, (h.none_ahead ahead).symm, fun entry member =>
      Int.le_trans (h.past entry member) (Int.le_of_lt ahead)⟩
  · exact h

theorem rolled_start (h : Records kind w ledger now) : (w.roll kind now).start = kind.start now := by
  unfold Window.roll
  split
  · rfl
  · rename_i current
    exact h.start_eq current

/-- An amount is counted at the instant of the window. -/
theorem counted (h : Records kind w ledger now) (current : w.start = kind.start now) (amount : Nat) :
    Records kind { w with count := w.count + amount } (ledger ++ [(now, amount)]) now where
  behind := h.behind
  exact := by
    rw [Ledger.total_append, Ledger.total, if_pos current.symm, Ledger.total, Nat.add_zero, h.exact]
  past entry member := by
    rcases List.mem_append.mp member with old | new
    · exact h.past entry old
    · rw [List.mem_singleton.mp new, current]
      exact Int.le_refl _

end Records

end Window

@[simp]
theorem Counters.window_withWindow (c : Counters) (kind other : WindowKind) (w : Window) :
    (c.withWindow other w).window kind = if kind = other then w else c.window kind := by
  cases kind <;> cases other <;> rfl

theorem Counters.window_rolled (c : Counters) (kind : WindowKind) (now : Instant) :
    (c.rolled now).window kind = (c.window kind).roll kind now := by
  cases kind <;> rfl

end RelayRamp.Admission
