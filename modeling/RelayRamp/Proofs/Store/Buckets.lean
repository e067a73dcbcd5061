import RelayRamp.Proofs.Store.Rows
import RelayRamp.Proofs.Admission.Windows

/-!
# The counter buckets of a store

A store keeps one bucket for each window that has not been followed by a later one of its kind when it was written.
Only the beginning of a window is kept, in milliseconds; since windows begin at whole milliseconds, nothing is lost
by that. Writing a bucket therefore has the same effect on a store in memory, which keeps its buckets in order, and on
one in tables, which looks for a row of the same key: the bucket is put in, those of its kind that are not later go.
-/
namespace RelayRamp.Time

/-- The bucket is that of a window that had begun by the instant. -/
def CounterBucket.Begun (b : CounterBucket) (t : Instant) : Prop :=
  ∃ w : Instant, w ≤ t ∧ b.windowStart = (b.kind.start w).stamp

/-- The bucket begins where a window does. -/
def CounterBucket.Aligned (b : CounterBucket) : Prop := b.kind.start b.windowStart.instant = b.windowStart.instant

instance (b : CounterBucket) : Decidable b.Aligned := inferInstanceAs (Decidable (_ = _))

/-- An instant lies in the window that begins with the start of its own. -/
theorem CounterBucket.Aligned.isCurrent_iff {b : CounterBucket} {now : Instant} (h : b.Aligned) :
    b.isCurrent now = true ↔ b.windowStart.instant = b.kind.start now := by
  have within := Admission.within_window_iff b.kind b.windowStart.instant now
  rw [← Admission.start_eq_iff, h] at within
  rw [isCurrent, Bool.and_eq_true, decide_eq_true_eq, decide_eq_true_eq]
  exact within

theorem nanos_of_start (kind : WindowKind) (w : Instant) :
    (kind.start w).nanos = nanosPerMilli * (kind.start w).millis := by
  have whole : ∃ ms, kind.span = nanosPerMilli * ms := by
    cases kind
    · exact ⟨3600000, by decide⟩
    · exact ⟨86400000, by decide⟩
  obtain ⟨ms, span⟩ := whole
  have nonzero : nanosPerMilli ≠ 0 := by decide
  simp only [WindowKind.start, Instant.floorTo, Instant.millis, span, Int.mul_assoc,
    Int.mul_tdiv_cancel_left _ nonzero]

namespace CounterBucket.Begun

variable {a b : CounterBucket} {t u now : Instant}

theorem mono (h : b.Begun t) (le : t ≤ u) : b.Begun u :=
  let ⟨w, before, start⟩ := h
  ⟨w, Int.le_trans before le, start⟩

theorem whole (h : b.Begun t) : b.windowStart.Whole := by
  obtain ⟨w, -, start⟩ := h
  rw [start]
  exact ⟨rfl, nanos_of_start b.kind w⟩

/-- Windows compare as their milliseconds do. -/
theorem millis_lt (ha : a.Begun t) (hb : b.Begun u) :
    a.windowStart.instant.millis < b.windowStart.instant.millis ↔ a.windowStart.instant < b.windowStart.instant := by
  change _ ↔ a.windowStart.instant.nanos < b.windowStart.instant.nanos
  rw [ha.whole.millis, hb.whole.millis, nanosPerMilli]
  omega

theorem aligned (h : b.Begun t) : b.Aligned := by
  obtain ⟨w, -, start⟩ := h
  rw [Aligned, start]
  exact Admission.start_start b.kind w

theorem isCurrent_iff (h : b.Begun t) : b.isCurrent now = true ↔ b.windowStart.instant = b.kind.start now :=
  h.aligned.isCurrent_iff

end CounterBucket.Begun

end RelayRamp.Time

namespace RelayRamp.Store

open RelayRamp.Time

/-- One bucket was put in; those of its kind that are not later went. -/
def Saved (before : List CounterBucket) (b : CounterBucket) (after : List CounterBucket) : Prop :=
  ∀ x, x ∈ after ↔ x = b ∨ x ∈ before ∧ (x.kind = b.kind → b.windowStart.instant < x.windowStart.instant)

/-- Buckets were put in; of each of their kinds those that are not later went. -/
def SavedAll (before new after : List CounterBucket) : Prop :=
  ∀ x, x ∈ after ↔ x ∈ new ∨ x ∈ before ∧ ∀ b ∈ new, x.kind = b.kind → b.windowStart.instant < x.windowStart.instant

/-- When the buckets are of different kinds, putting them in one after another puts in all of them. -/
theorem foldl_savedAll {f : List CounterBucket → CounterBucket → List CounterBucket}
    {P : List CounterBucket → Prop} {t : Instant}
    (step : ∀ l b, P l → (∀ x ∈ l, x.Begun t) → b.Begun t → P (f l b) ∧ Saved l b (f l b))
    {new : List CounterBucket} (kinds : new.Pairwise (·.kind ≠ ·.kind)) (new_begun : ∀ b ∈ new, b.Begun t)
    {before : List CounterBucket} (sound : P before) (begun : ∀ x ∈ before, x.Begun t) :
    P (new.foldl f before) ∧ SavedAll before new (new.foldl f before) := by
  induction new generalizing before with
  | nil => exact ⟨sound, fun x => by simp⟩
  | cons b rest ih =>
    obtain ⟨apart, kinds⟩ := List.pairwise_cons.mp kinds
    have b_begun := new_begun b (List.mem_cons_self ..)
    obtain ⟨sound, saved⟩ := step before b sound begun b_begun
    have begun : ∀ x ∈ f before b, x.Begun t := fun x member =>
      ((saved x).mp member).elim (fun same => same ▸ b_begun) fun old => begun x old.1
    obtain ⟨sound, all⟩ := ih kinds (fun c member => new_begun c (List.mem_cons_of_mem _ member)) sound begun
    refine ⟨sound, fun x => ?_⟩
    rw [List.foldl_cons, all x, saved x, List.mem_cons]
    constructor
    · rintro (new | ⟨rfl | ⟨old, later⟩, others⟩)
      · exact Or.inl (Or.inr new)
      · exact Or.inl (Or.inl rfl)
      · exact Or.inr ⟨old, List.forall_mem_cons.mpr ⟨later, others⟩⟩
    · rintro ((rfl | new) | ⟨old, all⟩)
      · exact Or.inr ⟨Or.inl rfl, fun c member same => absurd same (apart c member)⟩
      · exact Or.inl new
      · obtain ⟨later, others⟩ := List.forall_mem_cons.mp all
        exact Or.inr ⟨Or.inr ⟨old, later⟩, others⟩

/-! ### Buckets in order -/

namespace MemoryStore

theorem bucketBefore_iff (a b : CounterBucket) : bucketBefore a b = true ↔
    a.kind = .day ∧ b.kind = .hour ∨
      a.kind = b.kind ∧ a.windowStart.instant.millis < b.windowStart.instant.millis := by
  have hour : ¬ "hour" < "day" := by decide
  have day : "day" < "hour" := by decide
  unfold bucketBefore
  cases a.kind <;> cases b.kind <;> simp [WindowKind.label, hour, day]

theorem sameWindow_iff (a b : CounterBucket) : sameWindow a b = true ↔
    a.kind = b.kind ∧ a.windowStart.instant.millis = b.windowStart.instant.millis := by
  simp [sameWindow]

/-- Every bucket is before those that follow it. -/
def Sorted (buckets : List CounterBucket) : Prop := buckets.Pairwise fun a b => bucketBefore a b = true

variable {a b c x : CounterBucket} {l : List CounterBucket}

theorem before_trans (first : bucketBefore a b = true) (second : bucketBefore b c = true) :
    bucketBefore a c = true := by
  rw [bucketBefore_iff] at *
  grind

theorem not_same_of_before (before : bucketBefore a b = true) : ¬ sameWindow b a = true := by
  rw [bucketBefore_iff] at before
  rw [sameWindow_iff]
  grind

theorem before_of_not_before (apart : ¬ sameWindow a b = true) (before : ¬ bucketBefore b a = true) :
    bucketBefore a b = true := by
  rw [sameWindow_iff] at apart
  rw [bucketBefore_iff] at *
  cases ha : a.kind <;> cases hb : b.kind <;> simp_all <;> omega

/-- A bucket is put in; the one of its window goes. -/
theorem mem_putBucket (sorted : Sorted l) : x ∈ putBucket b l ↔ x = b ∨ x ∈ l ∧ ¬ sameWindow x b = true := by
  induction l with
  | nil => simp [putBucket]
  | cons c rest ih =>
    obtain ⟨first, sorted⟩ := List.pairwise_cons.mp sorted
    simp only [putBucket]
    split
    · rename_i same
      have others : ∀ y ∈ rest, ¬ sameWindow y b = true := fun y member => by
        have before := first y member
        rw [bucketBefore_iff] at before
        rw [sameWindow_iff] at same ⊢
        grind
      grind
    · rename_i apart
      split
      · rename_i before
        have others : ∀ y ∈ rest, ¬ sameWindow y b = true := fun y member =>
          not_same_of_before (before_trans before (first y member))
        grind
      · rw [List.mem_cons, List.mem_cons, ih sorted]
        grind

theorem sorted_putBucket (sorted : Sorted l) : Sorted (putBucket b l) := by
  induction l with
  | nil => exact List.pairwise_singleton ..
  | cons c rest ih =>
    obtain ⟨first, others⟩ := List.pairwise_cons.mp sorted
    simp only [putBucket]
    split
    · rename_i same
      refine List.pairwise_cons.mpr ⟨fun y member => ?_, others⟩
      have before := first y member
      rw [bucketBefore_iff] at *
      rw [sameWindow_iff] at same
      grind
    · rename_i apart
      split
      · rename_i before
        refine List.pairwise_cons.mpr ⟨fun y member => ?_, sorted⟩
        rcases List.mem_cons.mp member with rfl | later
        · exact before
        · exact before_trans before (first y later)
      · rename_i after
        refine List.pairwise_cons.mpr ⟨fun y member => ?_, ih others⟩
        rcases (mem_putBucket others).mp member with rfl | ⟨later, -⟩
        · exact before_of_not_before apart after
        · exact first y later

theorem sorted_saveBucket (sorted : Sorted l) (b : CounterBucket) : Sorted (saveBucket l b) :=
  sorted_putBucket (List.Pairwise.filter _ sorted)

/-- A saved bucket is put in; those of its kind that are not later go. -/
theorem mem_saveBucket (sorted : Sorted l) : x ∈ saveBucket l b ↔
    x = b ∨ x ∈ l ∧ (x.kind = b.kind → b.windowStart.instant.millis < x.windowStart.instant.millis) := by
  rw [saveBucket, mem_putBucket (List.Pairwise.filter _ sorted), sameWindow_iff, List.mem_filter]
  refine or_congr_right ⟨fun ⟨⟨member, kept⟩, apart⟩ => ⟨member, fun same => ?_⟩, fun ⟨member, later⟩ => ?_⟩
  · simp [same] at kept apart
    omega
  · refine ⟨⟨member, ?_⟩, fun ⟨same, start⟩ => ?_⟩
    · by_cases same : x.kind = b.kind
      · simp [same, Int.le_of_lt (later same)]
      · simp [same]
    · exact Int.lt_irrefl _ (start ▸ later same)

theorem saveBucket_saved {t : Instant} (sorted : Sorted l) (begun : ∀ x ∈ l, x.Begun t) (new : b.Begun t) :
    Saved l b (saveBucket l b) := fun x => by
  rw [mem_saveBucket sorted]
  exact or_congr_right (and_congr_right fun member => imp_congr_right fun _ => new.millis_lt (begun x member))

end MemoryStore

/-! ### Buckets in rows -/

namespace CounterRow

/-- The row of a bucket. -/
def entry (b : CounterBucket) : CounterRow :=
  ⟨.text b.kind.label, .integer b.windowStart.instant.millis, .integer b.count⟩

theorem ofBucket_ok {b : CounterBucket} {row : CounterRow} (ok : ofBucket b = .ok row) :
    b.count < Width.signed ∧ row = entry b := by
  unfold ofBucket inputInteger at ok
  split at ok
  · rename_i fits
    exact ⟨fits, (Except.ok.inj ok).symm⟩
  · cases ok

theorem sameKey_entry (a b : CounterBucket) : sameKey (entry a) (entry b) = MemoryStore.sameWindow a b := by
  have label : (Datum.text a.kind.label == Datum.text b.kind.label) = (a.kind == b.kind) := by
    cases a.kind <;> cases b.kind <;> decide
  exact congr (congrArg and label) rfl

theorem isBefore_entry (a b : CounterBucket) : (entry a).isBefore (entry b) =
    (a.kind == b.kind && decide (a.windowStart.instant.millis < b.windowStart.instant.millis)) := by
  have label : (Datum.text a.kind.label == Datum.text b.kind.label) = (a.kind == b.kind) := by
    cases a.kind <;> cases b.kind <;> decide
  exact congr (congrArg and label) rfl

/-- What writing the row of a bucket comes to. -/
def saveEntry (buckets : List CounterBucket) (b : CounterBucket) : List CounterBucket :=
  let put :=
    if buckets.any (MemoryStore.sameWindow b) then
      buckets.map fun x => if MemoryStore.sameWindow b x then b else x
    else buckets ++ [b]
  put.filter fun x => !(x.kind == b.kind && decide (x.windowStart.instant.millis < b.windowStart.instant.millis))

theorem save_entry (buckets : List CounterBucket) (b : CounterBucket) :
    save (buckets.map entry) (entry b) = (saveEntry buckets b).map entry := by
  have found : (buckets.map entry).any (sameKey (entry b)) = buckets.any (MemoryStore.sameWindow b) := by
    rw [List.any_map]
    exact congrArg (List.any buckets) (funext fun x => sameKey_entry b x)
  have replaced : ((buckets.map entry).map fun r => if sameKey (entry b) r then entry b else r) =
      (buckets.map fun x => if MemoryStore.sameWindow b x then b else x).map entry := by
    rw [List.map_map, List.map_map]
    refine List.map_congr_left fun x _ => ?_
    simp only [Function.comp_apply, sameKey_entry]
    split <;> rfl
  have filtered : ∀ l : List CounterBucket, ((l.map entry).filter fun r => !r.isBefore (entry b)) =
      (l.filter fun x => !(x.kind == b.kind &&
        decide (x.windowStart.instant.millis < b.windowStart.instant.millis))).map entry := by
    intro l
    rw [List.filter_map]
    refine congrArg _ (List.filter_congr fun x _ => ?_)
    rw [Function.comp_apply, isBefore_entry]
  simp only [save, saveEntry, found, replaced]
  rw [← filtered]
  split
  · rfl
  · rw [List.map_append]
    rfl

theorem foldl_save_entry (buckets new : List CounterBucket) :
    (new.map entry).foldl save (buckets.map entry) = (new.foldl saveEntry buckets).map entry := by
  induction new generalizing buckets with
  | nil => rfl
  | cons b rest ih => rw [List.map_cons, List.foldl_cons, save_entry, ih, List.foldl_cons]

/-- Writing its row has the same effect as saving a bucket. -/
theorem mem_saveEntry {l : List CounterBucket} {b x : CounterBucket} : x ∈ saveEntry l b ↔
    x = b ∨ x ∈ l ∧ (x.kind = b.kind → b.windowStart.instant.millis < x.windowStart.instant.millis) := by
  have put : x ∈ (if l.any (MemoryStore.sameWindow b) then
      l.map fun x => if MemoryStore.sameWindow b x then b else x else l ++ [b]) ↔
      x = b ∨ x ∈ l ∧ ¬ MemoryStore.sameWindow b x = true := by
    split
    · rename_i found
      obtain ⟨y, member, same⟩ := List.any_eq_true.mp found
      rw [List.mem_map]
      constructor
      · rintro ⟨z, member, rfl⟩
        split
        · exact Or.inl rfl
        · rename_i apart
          exact Or.inr ⟨member, apart⟩
      · rintro (rfl | ⟨member, apart⟩)
        · exact ⟨y, member, if_pos same⟩
        · exact ⟨x, member, if_neg apart⟩
    · rename_i absent
      simp only [List.any_eq_true, not_exists, not_and] at absent
      rw [List.mem_append, List.mem_singleton, or_comm]
      exact or_congr_right ⟨fun member => ⟨member, absent x member⟩, And.left⟩
  rw [saveEntry, List.mem_filter, put, MemoryStore.sameWindow_iff]
  constructor
  · rintro ⟨rfl | ⟨member, apart⟩, kept⟩
    · exact Or.inl rfl
    · refine Or.inr ⟨member, fun same => ?_⟩
      simp [same] at kept apart
      omega
  · rintro (rfl | ⟨member, later⟩)
    · simp
    · refine ⟨Or.inr ⟨member, fun ⟨same, start⟩ => ?_⟩, ?_⟩
      · have := later same.symm
        omega
      · by_cases same : x.kind = b.kind
        · have := later same
          simp [same]
          omega
        · simp [same]

theorem saveEntry_saved {l : List CounterBucket} {b : CounterBucket} {t : Instant} (begun : ∀ x ∈ l, x.Begun t)
    (new : b.Begun t) : Saved l b (saveEntry l b) := fun x => by
  rw [mem_saveEntry]
  exact or_congr_right (and_congr_right fun member => imp_congr_right fun _ => new.millis_lt (begun x member))

/-- A row gives its bucket back if it can be read. -/
theorem toBucket_entry {b : CounterBucket} (whole : b.windowStart.Whole) (x : CounterBucket) :
    (entry b).toBucket = .ok x ↔
      b.windowStart.instant.storable = true ∧ b.count < Width.long ∧ x = b := by
  have start := storedInstant_of_whole whole "window_start_ms"
  have count : storedLong b.count "count" =
      if b.count < Width.long then .ok b.count else .error (outOfRange b.count "count") := by
    by_cases fits : b.count < Width.long
    · rw [if_pos fits, storedLong_of_lt fits]
    · have beyond : ¬ (0 ≤ (b.count : Int) ∧ (b.count : Int) < (Width.long : Nat)) :=
        fun within => fits (Int.ofNat_lt.mp within.2)
      simp only [storedLong, storedNat, if_neg fits, if_neg beyond]
  have read : (entry b).toBucket = (do
      let start ← storedInstant b.windowStart.instant.millis "window_start_ms"
      let count ← storedLong b.count "count"
      pure ⟨b.kind, start, count⟩) := by
    simp only [entry]
    cases b.kind <;> rfl
  rw [read, start, count]
  by_cases storable : b.windowStart.instant.storable = true
  · by_cases fits : b.count < Width.long
    · rw [if_pos storable, if_pos fits]
      exact ⟨fun same => ⟨storable, fits, (Except.ok.inj same).symm⟩, fun same => congrArg _ same.2.2.symm⟩
    · rw [if_neg fits, if_pos storable]
      exact ⟨fun other => (by cases other), fun within => absurd within.2.1 fits⟩
  · rw [if_neg storable]
    exact ⟨fun other => (by cases other), fun within => absurd within.1 storable⟩

end CounterRow

/-! ### What the stores hold -/

theorem mapM_filterMap {ε α β : Type} {f : α → Except ε β} {l : List α} {bs : List β} (ok : l.mapM f = .ok bs) :
    l.filterMap (fun a => (f a).toOption) = bs := by
  have mapped : l.filterMap (fun a => (f a).toOption) = (l.map f).filterMap Except.toOption :=
    (List.filterMap_map (f := f) (g := Except.toOption)).symm
  rw [mapped, map_of_mapM ok, List.filterMap_map]
  exact List.filterMap_some

namespace Backing

/-- The counts that can be read from a store. -/
def buckets : Backing → List CounterBucket
  | memory store => store.buckets
  | durable store => store.counters.filterMap fun row => row.toBucket.toOption

/-- The store has these buckets, of windows that had begun by the instant; one in memory has them in order. -/
inductive Holds (t : Instant) : Backing → List CounterBucket → Prop
  | memory {store : MemoryStore} {held : List CounterBucket} (kept : store.buckets = held)
      (sorted : MemoryStore.Sorted held) (begun : ∀ b ∈ held, b.Begun t) : Holds t (.memory store) held
  | durable {store : DurableStore} {held : List CounterBucket} (rows : store.counters = held.map CounterRow.entry)
      (begun : ∀ b ∈ held, b.Begun t) : Holds t (.durable store) held

variable {s : Backing} {t : Instant} {held new : List CounterBucket}

theorem Holds.begun (h : s.Holds t held) : ∀ b ∈ held, b.Begun t := by
  cases h with
  | memory _ _ begun => exact begun
  | durable _ begun => exact begun

theorem Holds.mono {later : Instant} (h : s.Holds t held) (le : t ≤ later) : s.Holds later held := by
  cases h with
  | memory kept sorted begun => exact .memory kept sorted fun b member => (begun b member).mono le
  | durable rows begun => exact .durable rows fun b member => (begun b member).mono le

theorem Holds.other {α : Type} (h : s.Holds t held) {c : StoreCall α} (other : c.kind ≠ .saveCounters) :
    (s.call c).2.Holds t held := by
  cases h with
  | memory kept sorted begun => exact .memory (((MemoryStore.call_confines _ _).buckets other).trans kept) sorted begun
  | durable rows begun => exact .durable (((DurableStore.call_confines _ _).counters other).trans rows) begun

/-- In tables a bucket can be read if its numbers are in range. -/
theorem mem_buckets_durable {store : DurableStore} (rows : store.counters = held.map CounterRow.entry)
    (begun : ∀ b ∈ held, b.Begun t) (b : CounterBucket) : b ∈ (durable store).buckets ↔
      b ∈ held ∧ b.windowStart.instant.storable = true ∧ b.count < Width.long := by
  simp only [buckets, rows, List.filterMap_map, List.mem_filterMap, Function.comp_apply]
  constructor
  · rintro ⟨a, present, read⟩
    cases answer : (CounterRow.entry a).toBucket with
    | error fault =>
      rw [answer] at read
      cases read
    | ok b' =>
      rw [answer] at read
      cases read
      obtain ⟨storable, fits, rfl⟩ := (CounterRow.toBucket_entry (begun a present).whole b).mp answer
      exact ⟨present, storable, fits⟩
  · rintro ⟨present, storable, fits⟩
    have read := (CounterRow.toBucket_entry (begun b present).whole b).mpr ⟨storable, fits, rfl⟩
    exact ⟨b, present, by rw [read]; rfl⟩

theorem Holds.mem_of_buckets (h : s.Holds t held) {b : CounterBucket} (member : b ∈ s.buckets) : b ∈ held := by
  cases h with
  | memory kept => exact kept ▸ member
  | durable rows begun => exact ((mem_buckets_durable rows begun b).mp member).1

/-- The counters that are loaded are those that can be read. -/
theorem loadCounters_buckets (ok : (s.call .loadCounters).1 = .ok held) : s.buckets = held := by
  cases s with
  | memory store =>
    change (store.call .loadCounters).1 = .ok held at ok
    unfold MemoryStore.call at ok
    split at ok
    · cases ok
    · exact Except.ok.inj ok
  | durable store =>
    obtain ⟨s', done, -⟩ := DurableStore.call_ok ok
    obtain ⟨read, rows, same⟩ := ok_of_bind done
    cases same
    exact mapM_filterMap rows

theorem mapM_entry {t : Instant} {answer : List CounterBucket} (begun : ∀ b ∈ held, b.Begun t)
    (ok : (held.map CounterRow.entry).mapM CounterRow.toBucket = .ok answer) : answer = held := by
  have reads : ∀ b ∈ held, (CounterRow.entry b).toBucket = .ok b := fun b member => by
    obtain ⟨b', read⟩ := ok_of_mapM ok (List.mem_map_of_mem member)
    obtain ⟨-, -, rfl⟩ := (CounterRow.toBucket_entry (begun b member).whole b').mp read
    exact read
  exact Except.ok.inj (ok.symm.trans (mapM_written reads))

theorem Holds.loaded (h : s.Holds t held) {answer : List CounterBucket}
    (ok : (s.call .loadCounters).1 = .ok answer) : answer = held := by
  cases h with
  | memory kept => exact (loadCounters_buckets ok).symm.trans kept
  | durable rows begun =>
    obtain ⟨s', done, -⟩ := DurableStore.call_ok ok
    obtain ⟨read, answered, same⟩ := ok_of_bind done
    cases same
    exact mapM_entry begun (rows ▸ answered)

theorem mapM_ofBucket {rows : List CounterRow} (ok : new.mapM CounterRow.ofBucket = .ok rows) :
    rows = new.map CounterRow.entry ∧ ∀ b ∈ new, b.count < Width.signed := by
  have written : ∀ b ∈ new, b.count < Width.signed ∧ CounterRow.ofBucket b = .ok (CounterRow.entry b) :=
    fun b member => by
      obtain ⟨row, encoded⟩ := ok_of_mapM ok member
      obtain ⟨fits, rfl⟩ := CounterRow.ofBucket_ok encoded
      exact ⟨fits, encoded⟩
  exact ⟨Except.ok.inj (ok.symm.trans (mapM_ok fun b member => (written b member).2)), fun b member =>
    (written b member).1⟩

/-- Saved buckets are put in; if that fails everything is as before. -/
theorem Holds.saveCounters (h : s.Holds t held) (kinds : new.Pairwise (·.kind ≠ ·.kind))
    (begun : ∀ b ∈ new, b.Begun t) :
    (∃ fault, (s.call (.saveCounters new)).1 = .error fault ∧ (s.call (.saveCounters new)).2.Holds t held) ∨
    (s.call (.saveCounters new)).1 = .ok () ∧
      ∃ after, (s.call (.saveCounters new)).2.Holds t after ∧ SavedAll held new after := by
  cases answer : (s.call (.saveCounters new)).1 with
  | error fault =>
    have same := call_vain (c := .saveCounters new) (s := s) fun a ok => by rw [answer] at ok; cases ok
    exact Or.inl ⟨fault, rfl, same.symm ▸ h⟩
  | ok a =>
    refine Or.inr ⟨rfl, ?_⟩
    have begun_after : ∀ after, SavedAll held new after → ∀ b ∈ after, b.Begun t := fun after saved b member =>
      ((saved b).mp member).elim (begun b) fun old => h.begun b old.1
    cases h with
    | @memory store _ kept sorted old =>
      obtain ⟨sorted, saved⟩ := foldl_savedAll (f := MemoryStore.saveBucket) (P := MemoryStore.Sorted)
        (fun l b sorted begun new => ⟨MemoryStore.sorted_saveBucket sorted b,
          MemoryStore.saveBucket_saved sorted begun new⟩) kinds begun sorted old
      refine ⟨_, .memory ?_ sorted (begun_after _ saved), saved⟩
      change (store.call (.saveCounters new)).1 = .ok a at answer
      change (store.call (.saveCounters new)).2.buckets = _
      unfold MemoryStore.call at answer ⊢
      split at answer
      · cases answer
      · rename_i on
        rw [if_neg on, ← kept]
        rfl
    | @durable store _ rows old =>
      obtain ⟨-, saved⟩ := foldl_savedAll (f := CounterRow.saveEntry) (P := fun _ => True)
        (fun l b _ begun new => ⟨trivial, CounterRow.saveEntry_saved begun new⟩) kinds begun trivial old
      refine ⟨_, .durable ?_ (begun_after _ saved), saved⟩
      obtain ⟨s', done, left⟩ := DurableStore.call_ok answer
      obtain ⟨written, encoded, same⟩ := ok_of_bind done
      obtain ⟨rfl, -⟩ := mapM_ofBucket encoded
      change (store.call (.saveCounters new)).2.counters = _
      rw [left, ← (Prod.mk.inj (Except.ok.inj same)).2, rows]
      exact CounterRow.foldl_save_entry held new

/-- A bucket that was saved can be read if one of the same window could be read before. -/
theorem Holds.saved_readable {after : List CounterBucket} {b old : CounterBucket} (before : s.Holds t held)
    (ok : (s.call (.saveCounters new)).1 = .ok ()) (h : (s.call (.saveCounters new)).2.Holds t after)
    (present : b ∈ new) (member : b ∈ after) (readable : old ∈ s.buckets) (start : b.windowStart = old.windowStart) :
    b ∈ (s.call (.saveCounters new)).2.buckets := by
  cases s with
  | memory store =>
    have h : (Backing.memory (store.call (.saveCounters new)).2).Holds t after := h
    cases h with
    | memory kept =>
      change b ∈ (store.call (.saveCounters new)).2.buckets
      rwa [kept]
  | durable store =>
    have h : (Backing.durable (store.call (.saveCounters new)).2).Holds t after := h
    obtain ⟨s', done, -⟩ := DurableStore.call_ok ok
    obtain ⟨written, encoded, -⟩ := ok_of_bind done
    have fits := (mapM_ofBucket encoded).2 b present
    cases h with
    | durable rows begun =>
      cases before with
      | durable rows' begun' =>
        obtain ⟨-, storable, -⟩ := (mem_buckets_durable rows' begun' old).mp readable
        exact (mem_buckets_durable rows begun b).mpr
          ⟨member, start ▸ storable, Nat.lt_trans fits (by decide)⟩

end Backing

end RelayRamp.Store
