import RelayRamp.Proofs.Admission.Attempts
import RelayRamp.Proofs.Admission.Windows
import RelayRamp.Proofs.Store.Buckets

/-!
# Counters and their buckets

Whatever is done with counters, a window stays and its count does not get smaller, or it moves forward. So counters
that were ahead of the buckets of a store, or at least level with them, remain so; and counters into which buckets
were restored are.
-/
namespace RelayRamp.Admission

open RelayRamp.Store RelayRamp.Time

/-- At an instant a window stays, and counts no less than before, or it moves there. -/
structure Window.Advances (kind : WindowKind) (now : Instant) (w w' : Window) : Prop where
  moved : w'.start = w.start ∨ w.start < kind.start now ∧ w'.start = kind.start now
  grown : w'.start = w.start → w.count ≤ w'.count

namespace Window.Advances

variable {kind : WindowKind} {now : Instant} {w w' w'' : Window}

theorem refl (w : Window) : w.Advances kind now w := ⟨Or.inl rfl, fun _ => Nat.le_refl _⟩

theorem start_le (h : w.Advances kind now w') : w.start ≤ w'.start := by
  rcases h.moved with same | ⟨behind, there⟩
  · rw [same]
    exact Int.le_refl _
  · rw [there]
    exact Int.le_of_lt behind

theorem trans (first : w.Advances kind now w') (rest : w'.Advances kind now w'') : w.Advances kind now w'' := by
  constructor
  · rcases rest.moved with same | ⟨behind, there⟩
    · rw [same]
      exact first.moved
    · exact Or.inr ⟨Int.lt_of_le_of_lt first.start_le behind, there⟩
  · intro same
    rcases first.moved with same' | ⟨behind, there⟩
    · exact Nat.le_trans (first.grown same') (rest.grown (same.trans same'.symm))
    · have le := rest.start_le
      rw [same, there] at le
      exact absurd (Int.lt_of_lt_of_le behind le) (Int.lt_irrefl _)

theorem roll (w : Window) (kind : WindowKind) (now : Instant) : w.Advances kind now (w.roll kind now) := by
  unfold Window.roll
  split
  · rename_i behind
    exact ⟨Or.inr ⟨behind, rfl⟩, fun same => absurd (same ▸ behind) (Int.lt_irrefl _)⟩
  · exact refl w

theorem raise {count : Nat} (le : w.count ≤ count) : w.Advances kind now { w with count } :=
  ⟨Or.inl rfl, fun _ => le⟩

end Window.Advances

namespace Counters

/-- Both windows advance. -/
def Advances (now : Instant) (c c' : Counters) : Prop := ∀ kind, (c.window kind).Advances kind now (c'.window kind)

variable {now t : Instant} {c c' c'' : Counters}

namespace Advances

theorem refl (c : Counters) : c.Advances now c := fun _ => .refl _

theorem trans (first : c.Advances now c') (rest : c'.Advances now c'') : c.Advances now c'' :=
  fun kind => (first kind).trans (rest kind)

theorem rolled (c : Counters) (now : Instant) : c.Advances now (c.rolled now) := fun kind => by
  rw [window_rolled]
  exact .roll _ kind now

theorem plus (c : Counters) (amount : Nat) : c.Advances now (c.plus amount) := fun kind => by
  rw [window_plus]
  exact .raise (Nat.le_add_right _ _)

theorem withWindow {kind : WindowKind} {w : Window} (h : (c.window kind).Advances kind now w) :
    c.Advances now (c.withWindow kind w) := fun other => by
  rw [window_withWindow]
  split
  · rename_i same
    exact same ▸ h
  · exact .refl _

theorem restoreBucket (c : Counters) (b : CounterBucket) : c.Advances now (c.restoreBucket now b) := by
  unfold Counters.restoreBucket
  split
  · refine withWindow ((Window.Advances.roll _ b.kind now).trans (.raise ?_))
    split
    · exact Nat.le_max_left _ _
    · exact Nat.le_refl _
  · exact refl c

theorem restore (c : Counters) (buckets : List CounterBucket) : c.Advances now (c.restore buckets now) := by
  unfold Counters.restore
  induction buckets generalizing c with
  | nil => exact refl c
  | cons b rest ih => exact (restoreBucket c b).trans (ih _)

end Advances

/-! ### Windows that begin as windows do -/

/-- The windows are those of instants up to the given one. -/
def Begun (t : Instant) (c : Counters) : Prop := ∀ kind, ∃ w : Instant, w ≤ t ∧ (c.window kind).start = kind.start w

theorem fresh_window (now : Instant) (kind : WindowKind) : (fresh now).window kind = ⟨kind.start now, 0⟩ := by
  cases kind <;> rfl

theorem Begun.fresh (le : now ≤ t) : (Counters.fresh now).Begun t := fun kind =>
  ⟨now, le, by rw [fresh_window]⟩

theorem Begun.mono {later : Instant} (h : c.Begun t) (le : t ≤ later) : c.Begun later := fun kind =>
  let ⟨w, before, start⟩ := h kind
  ⟨w, Int.le_trans before le, start⟩

theorem Begun.advances (h : c.Begun t) (le : now ≤ t) (advances : c.Advances now c') : c'.Begun t := by
  intro kind
  rcases (advances kind).moved with same | ⟨-, there⟩
  · rw [same]
    exact h kind
  · exact ⟨now, le, there⟩

/-- Windows that are not ahead of an instant move there. -/
theorem Begun.rolled_start (h : c.Begun now) (kind : WindowKind) :
    ((c.rolled now).window kind).start = kind.start now := by
  obtain ⟨w, le, start⟩ := h kind
  rw [window_rolled, Window.roll]
  split
  · rfl
  · rename_i current
    rw [start] at current ⊢
    have same : (kind.start w).nanos = (kind.start now).nanos :=
      Int.le_antisymm (start_mono kind le) (Int.not_lt.mp current)
    exact congrArg Instant.mk same

theorem mem_buckets {b : CounterBucket} : b ∈ c.buckets ↔
    b.windowStart = (c.window b.kind).start.stamp ∧ b.count = (c.window b.kind).count := by
  obtain ⟨kind, start, count⟩ := b
  simp only [buckets, WindowKind.all, List.map_cons, List.map_nil, List.mem_cons, List.not_mem_nil, or_false,
    CounterBucket.mk.injEq]
  cases kind <;> simp

theorem buckets_kinds (c : Counters) : c.buckets.Pairwise (·.kind ≠ ·.kind) := by
  simp [buckets, WindowKind.all]

theorem Begun.buckets (h : c.Begun t) : ∀ b ∈ c.buckets, b.Begun t := by
  intro b member
  obtain ⟨w, le, start⟩ := h b.kind
  exact ⟨w, le, by rw [(mem_buckets.mp member).1, start]⟩

/-! ### Counters that are not behind a store -/

/-- No bucket is ahead of its window, and of the same window none has counted more. -/
def Covers (c : Counters) (held : List CounterBucket) : Prop :=
  ∀ b ∈ held, b.windowStart.instant ≤ (c.window b.kind).start ∧
    (b.windowStart.instant = (c.window b.kind).start → b.count ≤ (c.window b.kind).count)

variable {held after : List CounterBucket}

theorem Covers.advances (h : c.Covers held) (advances : c.Advances now c') : c'.Covers held := by
  intro b member
  obtain ⟨le, level⟩ := h b member
  have later := (advances b.kind).start_le
  refine ⟨Int.le_trans le later, fun same => ?_⟩
  have stays : (c'.window b.kind).start = (c.window b.kind).start := by
    rw [same] at le
    exact congrArg Instant.mk (Int.le_antisymm le later)
  exact Nat.le_trans (level (same.trans stays)) ((advances b.kind).grown stays)

theorem Covers.saved (h : c.Covers held) (saved : SavedAll held c.buckets after) : c.Covers after := by
  intro b member
  rcases (saved b).mp member with new | ⟨old, -⟩
  · obtain ⟨start, count⟩ := mem_buckets.mp new
    rw [start, count]
    exact ⟨Int.le_refl _, fun _ => Nat.le_refl _⟩
  · exact h b old

/-! ### Restoring -/

/-- The bucket is that of the window, which is current. -/
def Matches (kind : WindowKind) (w : Window) (now : Instant) (b : CounterBucket) : Prop :=
  b.kind = kind ∧ b.isCurrent now = true ∧ b.windowStart.instant = w.start

/-- What restoring comes to for a window that holds the instant already: its count is the greatest of those that the
buckets of the window and it itself have. -/
structure Restored (kind : WindowKind) (now : Instant) (buckets : List CounterBucket) (w w' : Window) : Prop where
  start : w'.start = w.start
  least : w.count ≤ w'.count
  covers : ∀ b ∈ buckets, Matches kind w now b → b.count ≤ w'.count
  attained : w'.count = w.count ∨ ∃ b ∈ buckets, Matches kind w now b ∧ w'.count = b.count

theorem restoreBucket_window (current : ∀ kind, (c.window kind).start = kind.start now) (b : CounterBucket)
    (kind : WindowKind) :
    Matches kind (c.window kind) now b ∧ (c.restoreBucket now b).window kind =
        { c.window kind with count := max (c.window kind).count b.count } ∨
      ¬ Matches kind (c.window kind) now b ∧ (c.restoreBucket now b).window kind = c.window kind := by
  have stays : (c.window b.kind).roll b.kind now = c.window b.kind := by
    unfold Window.roll
    rw [current]
    exact if_neg (Int.lt_irrefl _)
  unfold restoreBucket Matches
  by_cases live : b.isCurrent now = true
  · rw [if_pos live, stays, window_withWindow]
    by_cases same : kind = b.kind
    · subst same
      by_cases start : (c.window b.kind).start = b.windowStart.instant
      · exact Or.inl ⟨⟨rfl, live, start.symm⟩, by simp [start]⟩
      · exact Or.inr ⟨fun matching => start matching.2.2.symm, by simp [start]⟩
    · exact Or.inr ⟨fun matching => same matching.1.symm, if_neg same⟩
  · exact Or.inr ⟨fun matching => live matching.2.1, by rw [if_neg live]⟩

theorem restore_window (current : ∀ kind, (c.window kind).start = kind.start now) (buckets : List CounterBucket)
    (kind : WindowKind) :
    Restored kind now buckets (c.window kind) ((c.restore buckets now).window kind) := by
  induction buckets generalizing c with
  | nil => exact ⟨rfl, Nat.le_refl _, nofun, Or.inl rfl⟩
  | cons b rest ih =>
    have later : ∀ k, ((c.restoreBucket now b).window k).start = k.start now := fun k => by
      rcases restoreBucket_window current b k with ⟨-, raised⟩ | ⟨-, same⟩
      · rw [raised]
        exact current k
      · rw [same]
        exact current k
    have restored := ih later
    change Restored kind now (b :: rest) (c.window kind) (((c.restoreBucket now b).restore rest now).window kind)
    rcases restoreBucket_window current b kind with ⟨matching, raised⟩ | ⟨other, same⟩
    · rw [raised] at restored
      have least := restored.least
      refine ⟨restored.start, Nat.le_trans (Nat.le_max_left ..) least, fun x member matching => ?_, ?_⟩
      · rcases List.mem_cons.mp member with rfl | member
        · exact Nat.le_trans (Nat.le_max_right ..) least
        · exact restored.covers x member matching
      · rcases restored.attained with max | ⟨x, member, matching, count⟩
        · rcases Nat.le_total (c.window kind).count b.count with le | ge
          · exact Or.inr ⟨b, List.mem_cons_self .., matching, max.trans (Nat.max_eq_right le)⟩
          · exact Or.inl (max.trans (Nat.max_eq_left ge))
        · exact Or.inr ⟨x, List.mem_cons_of_mem _ member, matching, count⟩
    · rw [same] at restored
      refine ⟨restored.start, restored.least, fun x member matching => ?_, ?_⟩
      · rcases List.mem_cons.mp member with rfl | member
        · exact absurd matching other
        · exact restored.covers x member matching
      · rcases restored.attained with kept | ⟨x, member, matching, count⟩
        · exact Or.inl kept
        · exact Or.inr ⟨x, List.mem_cons_of_mem _ member, matching, count⟩

/-- Fresh counters into which buckets were restored are not behind those buckets. -/
theorem restore_covers (begun : ∀ b ∈ held, b.Begun now) : ((fresh now).restore held now).Covers held := by
  intro b member
  have restored := restore_window (c := fresh now) (fun kind => by rw [fresh_window]) held b.kind
  have start : (((fresh now).restore held now).window b.kind).start = b.kind.start now :=
    restored.start.trans (by rw [fresh_window])
  obtain ⟨w, le, began⟩ := begun b member
  rw [start]
  refine ⟨?_, fun same => restored.covers b member ⟨rfl, ?_, ?_⟩⟩
  · rw [began]
    exact start_mono b.kind le
  · exact (begun b member).isCurrent_iff.mpr same
  · rw [fresh_window]
    exact same

end Counters

end RelayRamp.Admission
