import RelayRamp.Proofs.Store.Agreement

/-!
# Writing several rows

Phases and counts are written statement by statement: the rows of the old phases are deleted before the first of the new
ones is put in, and a bucket is put in and prunes its kind before the next one is looked at. Any statement can be refused,
after any number of others. They stand in one transaction, which either commits what all of them left or goes back to the
tables as they were; so much is known of the engine. What a store does in one step is what its transaction comes to.
-/
namespace RelayRamp.Store

open RelayRamp.Time RelayRamp.Warmup

/-- A statement answers, and leaves the tables changed, for the statements that follow. -/
abbrev Statement := DurableStore → Except StoreFault Unit × DurableStore

namespace Statement

/-- Statements one after another, until one is refused. -/
def sequence : List Statement → Statement
  | [], s => (.ok (), s)
  | first :: rest, s =>
    match first s with
    | (.ok (), left) => sequence rest left
    | (.error fault, left) => (.error fault, left)

/-- Commits what the body left, or rolls back. -/
def transact (body : Statement) : Statement := fun s =>
  match body s with
  | (.ok (), left) => (.ok (), left)
  | (.error fault, _) => (.error fault, s)

/-- Deletes the rows of all phases. -/
def deletePhases : Statement := fun s => (.ok (), { s with phases := [] })

/-- Puts the row of a phase in. -/
def insertPhase (phase : WarmupPhase) : Statement := fun s =>
  match (do (← PhaseRow.ofPhase phase).insert s.phases) with
  | .ok rows => (.ok (), { s with phases := rows })
  | .error fault => (.error fault, s)

/-- Puts the row of a bucket in, or replaces the one with its key. -/
def upsertBucket (b : CounterBucket) : Statement := fun s =>
  match CounterRow.ofBucket b with
  | .ok row =>
    (.ok (), { s with counters :=
      if s.counters.any (CounterRow.sameKey row) then
        s.counters.map fun r => if CounterRow.sameKey row r then row else r
      else s.counters ++ [row] })
  | .error fault => (.error fault, s)

/-- Deletes the rows of the bucket's kind that begin before it. -/
def pruneBucket (b : CounterBucket) : Statement := fun s =>
  (.ok (), { s with counters := s.counters.filter fun r => !r.isBefore (CounterRow.entry b) })

def writePhases (phases : List WarmupPhase) : Statement :=
  sequence (deletePhases :: phases.map insertPhase)

def writeCounters (buckets : List CounterBucket) : Statement :=
  sequence (buckets.flatMap fun b => [upsertBucket b, pruneBucket b])

variable {body : Statement} {s : DurableStore}

/-- The statements leave these tables, or are refused with this fault. -/
def Yields (body : Statement) (s : DurableStore) : Except StoreFault DurableStore → Prop
  | .ok left => body s = (.ok (), left)
  | .error fault => (body s).1 = .error fault

/-- A call that attempts what the statements yield makes their transaction. -/
theorem transact_eq_call {c : StoreCall Unit} {result : Except StoreFault DurableStore} (yields : body.Yields s result)
    (attempted : s.attempt c = result.map fun left => ((), left)) : transact body s = s.call c := by
  rcases ran : body s with ⟨answer, left⟩
  cases result with
  | error fault =>
    have refused : answer = .error fault := (congrArg Prod.fst ran).symm.trans yields
    rw [DurableStore.call_attempt_error attempted, transact, ran, refused]
  | ok after =>
    have done : (answer, left) = (.ok (), after) := ran.symm.trans yields
    rw [DurableStore.call_attempt_ok attempted, transact, ran, done]

/-- The rows that are there when a phase is put in are those of the phases before it. -/
theorem sequence_insertPhase (phases : List WarmupPhase) (s : DurableStore) :
    (sequence (phases.map insertPhase)).Yields s
      ((phases.foldlM (fun rows phase => do (← PhaseRow.ofPhase phase).insert rows) s.phases).map
        fun rows => { s with phases := rows }) := by
  induction phases generalizing s with
  | nil => rfl
  | cons phase rest ih =>
    cases placed : (do (← PhaseRow.ofPhase phase).insert s.phases) with
    | error fault =>
      rw [List.foldlM_cons, placed]
      change (sequence (insertPhase phase :: rest.map insertPhase) s).1 = _
      rw [sequence, insertPhase, placed]
    | ok rows =>
      have step : sequence ((phase :: rest).map insertPhase) s =
          sequence (rest.map insertPhase) { s with phases := rows } := by
        rw [List.map_cons, sequence, insertPhase, placed]
      have others := ih { s with phases := rows }
      rw [List.foldlM_cons, placed, ok_bind]
      unfold Yields at others ⊢
      rwa [step]

/-- Putting a bucket in and pruning its kind is saving it. -/
theorem sequence_writeBucket (buckets : List CounterBucket) (s : DurableStore) :
    (writeCounters buckets).Yields s
      ((buckets.mapM CounterRow.ofBucket).map fun rows =>
        { s with counters := rows.foldl CounterRow.save s.counters }) := by
  induction buckets generalizing s with
  | nil => rfl
  | cons b rest ih =>
    rw [List.mapM_cons]
    cases row : CounterRow.ofBucket b with
    | error fault =>
      change (writeCounters (b :: rest) s).1 = .error fault
      rw [writeCounters, List.flatMap_cons, List.cons_append, sequence, upsertBucket, row]
    | ok encoded =>
      obtain ⟨-, rfl⟩ := CounterRow.ofBucket_ok row
      let saved : DurableStore := { s with counters := CounterRow.save s.counters (CounterRow.entry b) }
      have step : writeCounters (b :: rest) s = writeCounters rest saved := by
        rw [writeCounters, List.flatMap_cons, List.cons_append, sequence, upsertBucket, row]
        rfl
      have others := ih saved
      rw [ok_bind]
      cases rows : rest.mapM CounterRow.ofBucket with
      | error fault =>
        rw [rows] at others
        change (writeCounters (b :: rest) s).1 = .error fault
        rw [step]
        exact others
      | ok encoded =>
        rw [rows] at others
        exact step.trans others

/-- Replacing the phases is the transaction that writes them. -/
theorem transact_writePhases (s : DurableStore) (phases : List WarmupPhase) :
    transact (writePhases phases) s = s.call (.replacePhases phases) := by
  -- What the old phases were makes no difference, since their rows go first.
  have yields : (writePhases phases).Yields s _ := sequence_insertPhase phases { s with phases := [] }
  apply transact_eq_call yields
  rw [DurableStore.attempt, DurableStore.phaseRows]
  cases phases.foldlM (fun rows phase => do (← PhaseRow.ofPhase phase).insert rows) [] <;> rfl

/-- Saving buckets is the transaction that writes them. -/
theorem transact_writeCounters (s : DurableStore) (buckets : List CounterBucket) :
    transact (writeCounters buckets) s = s.call (.saveCounters buckets) := by
  apply transact_eq_call (sequence_writeBucket buckets s)
  rw [DurableStore.attempt]
  cases buckets.mapM CounterRow.ofBucket <;> rfl

end Statement

/-! ### What is refused -/

theorem inputInteger_ok {n : Nat} {field : String} {z : Int} (ok : inputInteger n field = .ok z) : n < Width.signed := by
  rw [inputInteger_eq] at ok
  split at ok
  · assumption
  · cases ok

namespace PhaseRow

/-- Every limit of a phase that has a row fits into the table. -/
theorem ofPhase_ok {p : WarmupPhase} {row : PhaseRow} (ok : ofPhase p = .ok row) :
    (p.limits.maxPerHour < Width.signed ∧ p.limits.maxPerDay < Width.signed ∧ p.limits.burst < Width.signed) ∧
      row.number = p.number := by
  obtain ⟨hour, hour_ok, ok⟩ := ok_of_bind ok
  obtain ⟨day, day_ok, ok⟩ := ok_of_bind ok
  obtain ⟨burst, burst_ok, ok⟩ := ok_of_bind ok
  cases ok
  exact ⟨⟨inputInteger_ok hour_ok, inputInteger_ok day_ok, inputInteger_ok burst_ok⟩, rfl⟩

/-- Rows stay in the order of their numbers, of which there are no two alike. -/
theorem insert_ok {row : PhaseRow} {rows after : List PhaseRow} (sorted : rows.Pairwise (·.number < ·.number))
    (ok : insert row rows = .ok after) :
    (∀ r ∈ rows, r.number ≠ row.number) ∧ after.Pairwise (·.number < ·.number) ∧
      ∀ r, r ∈ after ↔ r = row ∨ r ∈ rows := by
  induction rows generalizing after with
  | nil =>
    cases ok
    simp
  | cons first rest ih =>
    obtain ⟨least, rest_sorted⟩ := List.pairwise_cons.mp sorted
    rw [insert] at ok
    split at ok
    · cases ok
    · rename_i apart
      split at ok
      · rename_i before
        cases ok
        have below : ∀ r ∈ first :: rest, row.number < r.number := by
          simp only [List.forall_mem_cons]
          exact ⟨before, fun r member => Int.lt_trans before (least r member)⟩
        exact ⟨fun r member => (Int.ne_of_lt (below r member)).symm, List.pairwise_cons.mpr ⟨below, sorted⟩,
          fun r => List.mem_cons⟩
      · rename_i not_before
        cases placed : insert row rest with
        | error fault =>
          rw [placed] at ok
          cases ok
        | ok rows =>
          rw [placed] at ok
          cases ok
          obtain ⟨free, rows_sorted, members⟩ := ih rest_sorted placed
          have above : ∀ r ∈ rows, first.number < r.number := by
            intro r member
            rcases (members r).mp member with rfl | old
            · omega
            · exact least r old
          refine ⟨List.forall_mem_cons.mpr ⟨apart, free⟩, List.pairwise_cons.mpr ⟨above, rows_sorted⟩, fun r => ?_⟩
          rw [List.mem_cons, members r, List.mem_cons, or_left_comm]

/-- Phases are put in one after another only if all can be, and no number comes twice. -/
theorem foldlM_insert_ok {phases : List WarmupPhase} {rows after : List PhaseRow}
    (sorted : rows.Pairwise (·.number < ·.number))
    (ok : phases.foldlM (fun rows phase => do (← ofPhase phase).insert rows) rows = .ok after) :
    (∀ p ∈ phases,
      p.limits.maxPerHour < Width.signed ∧ p.limits.maxPerDay < Width.signed ∧ p.limits.burst < Width.signed) ∧
    (∀ p ∈ phases, ∀ r ∈ rows, r.number ≠ p.number) ∧ phases.Pairwise (·.number ≠ ·.number) ∧
      after.Pairwise (·.number < ·.number) := by
  induction phases generalizing rows with
  | nil =>
    cases ok
    exact ⟨nofun, nofun, .nil, sorted⟩
  | cons p rest ih =>
    rw [List.foldlM_cons] at ok
    obtain ⟨next, placed, ok⟩ := ok_of_bind ok
    obtain ⟨row, encoded, placed⟩ := ok_of_bind placed
    obtain ⟨fits, number⟩ := ofPhase_ok encoded
    obtain ⟨free, next_sorted, members⟩ := insert_ok sorted placed
    obtain ⟨others, unused, distinct, after_sorted⟩ := ih next_sorted ok
    rw [number] at free
    refine ⟨List.forall_mem_cons.mpr ⟨fits, others⟩, List.forall_mem_cons.mpr ⟨free, fun q later r old => ?_⟩,
      List.pairwise_cons.mpr ⟨fun q later same => ?_, distinct⟩, after_sorted⟩
    · exact unused q later r ((members r).mpr (Or.inr old))
    · apply unused q later row ((members row).mpr (Or.inl rfl))
      rw [number, same]

end PhaseRow

/-- A bucket takes the place of the row with its key, and the rows before it go. -/
theorem CounterRow.mem_save {rows : List CounterRow} {row : CounterRow} (kept : row.isBefore row = false) (r : CounterRow) :
    r ∈ save rows row ↔
      r = row ∨ r ∈ rows ∧ sameKey row r = false ∧ r.isBefore row = false := by
  have put : r ∈ (if rows.any (sameKey row) then
      rows.map fun r => if sameKey row r then row else r else rows ++ [row]) ↔
      r = row ∨ r ∈ rows ∧ sameKey row r = false := by
    split
    · rename_i found
      obtain ⟨old, present, same⟩ := List.any_eq_true.mp found
      rw [List.mem_map]
      constructor
      · rintro ⟨other, member, rfl⟩
        split
        · exact Or.inl rfl
        · rename_i apart
          exact Or.inr ⟨member, Bool.eq_false_iff.mpr apart⟩
      · rintro (rfl | ⟨member, apart⟩)
        · exact ⟨old, present, if_pos same⟩
        · exact ⟨r, member, by rw [apart]; rfl⟩
    · rename_i absent
      have apart : ∀ r ∈ rows, sameKey row r = false := by simpa using absent
      rw [List.mem_append, List.mem_singleton, or_comm]
      exact or_congr_right ⟨fun member => ⟨member, apart r member⟩, And.left⟩
  rw [save, List.mem_filter, put]
  constructor
  · rintro ⟨rfl | ⟨member, apart⟩, after⟩
    · exact Or.inl rfl
    · exact Or.inr ⟨member, apart, by simpa using after⟩
  · rintro (rfl | ⟨member, apart, after⟩)
    · exact ⟨Or.inl rfl, by simp [kept]⟩
    · exact ⟨Or.inr ⟨member, apart⟩, by simp [after]⟩

namespace DurableStore

variable {s : DurableStore} {phases : List WarmupPhase} {buckets : List CounterBucket}

theorem call_refused {c : StoreCall Unit} (refused : ∀ left, s.attempt c ≠ .ok ((), left)) :
    ∃ fault, s.call c = (.error fault, s) := by
  cases attempted : s.attempt c with
  | error fault => exact ⟨fault, call_attempt_error attempted⟩
  | ok result => exact absurd attempted (refused result.2)

/-- Phases of which one cannot be written, or two have the same number, are not written. -/
theorem replacePhases_refused
    (refused : (∃ p ∈ phases, Width.signed ≤ p.limits.maxPerHour ∨ Width.signed ≤ p.limits.maxPerDay ∨
        Width.signed ≤ p.limits.burst) ∨ ¬ (phases.map (·.number)).Nodup) :
    ∃ fault, s.call (.replacePhases phases) = (.error fault, s) := by
  apply call_refused
  intro left ok
  obtain ⟨rows, placed, -⟩ := ok_of_bind ok
  obtain ⟨fits, -, distinct, -⟩ := PhaseRow.foldlM_insert_ok .nil placed
  rcases refused with ⟨p, member, large⟩ | twice
  · have := fits p member
    omega
  · exact twice (List.pairwise_map.mpr distinct)

theorem saveCounters_refused (refused : ∃ b ∈ buckets, Width.signed ≤ b.count) :
    ∃ fault, s.call (.saveCounters buckets) = (.error fault, s) := by
  apply call_refused
  intro left ok
  obtain ⟨rows, encoded, -⟩ := ok_of_bind ok
  obtain ⟨b, member, large⟩ := refused
  have := (Backing.mapM_ofBucket encoded).2 b member
  omega

/-! ### What is written -/

theorem saveCounters_entries (fits : ∀ b ∈ buckets, b.count < Width.signed) : s.call (.saveCounters buckets) =
    (.ok (), { s with counters := (buckets.map CounterRow.entry).foldl CounterRow.save s.counters }) := by
  have encoded : buckets.mapM CounterRow.ofBucket = .ok (buckets.map CounterRow.entry) := by
    apply mapM_ok
    intro b member
    rw [CounterRow.ofBucket, inputInteger_of_lt (fits b member)]
    rfl
  apply call_attempt_ok
  rw [attempt, encoded, ok_bind]
  rfl

/-- Buckets that can be written are saved as one by one. -/
theorem saveCounters_written (fits : ∀ b ∈ buckets, b.count < Width.signed) : s.call (.saveCounters buckets) =
    (.ok (), buckets.foldl (fun s b => (s.call (.saveCounters [b])).2) s) := by
  rw [saveCounters_entries fits]
  -- The later buckets of a kind prune what the earlier ones left.
  induction buckets generalizing s with
  | nil => rfl
  | cons b rest ih =>
    obtain ⟨first, others⟩ := List.forall_mem_cons.mp fits
    have alone : ∀ x ∈ [b], x.count < Width.signed := by simpa using first
    rw [List.foldl_cons, saveCounters_entries alone, ← ih others]
    rfl

theorem saveCounters_single {b : CounterBucket} (fits : b.count < Width.signed) :
    ∃ rows, s.call (.saveCounters [b]) = (.ok (), { s with counters := rows }) ∧
      ∀ r, r ∈ rows ↔ r = CounterRow.entry b ∨ r ∈ s.counters ∧
        CounterRow.sameKey (CounterRow.entry b) r = false ∧ r.isBefore (CounterRow.entry b) = false := by
  have kept : (CounterRow.entry b).isBefore (CounterRow.entry b) = false := by simp [CounterRow.isBefore_entry]
  exact ⟨_, saveCounters_entries (by simpa using fits), CounterRow.mem_save kept⟩

/-- Phases that can be written are those that are loaded, in the order of their numbers. -/
theorem replacePhases_written (storable : ∀ p ∈ phases, p.Storable) (distinct : (phases.map (·.number)).Nodup) :
    ∃ rows loaded, s.call (.replacePhases phases) = (.ok (), { s with phases := rows }) ∧
      ({ s with phases := rows }.call .loadPhases) = (.ok loaded, { s with phases := rows }) ∧
      loaded.Perm phases ∧ loaded.Pairwise (·.number < ·.number) := by
  have apart : phases.Pairwise (·.number ≠ ·.number) := List.pairwise_map.mp distinct
  let placed := phases.foldl (fun ps p => MemoryStore.putPhase p ps) []
  have rows : phaseRows phases = .ok (placed.map PhaseRow.entry) := phaseRows_eq storable apart
  have members := mem_placed storable apart
  obtain ⟨-, -, -, sorted⟩ := PhaseRow.foldlM_insert_ok .nil rows
  have ordered : placed.Pairwise (·.number < ·.number) :=
    (List.pairwise_map.mp sorted).imp fun lt => Int.ofNat_lt.mp lt
  refine ⟨placed.map PhaseRow.entry, placed, ?_, ?_, ?_, ordered⟩
  · apply call_attempt_ok
    rw [attempt, rows, ok_bind]
    rfl
  · have read : (placed.map PhaseRow.entry).mapM PhaseRow.toPhase = .ok placed :=
      mapM_written fun p member => PhaseRow.toPhase_entry (storable p ((members p).mp member))
    apply call_attempt_ok
    rw [attempt, read, ok_bind]
    rfl
  · apply (List.perm_ext_iff_of_nodup ?_ ?_).mpr members
    · exact ordered.imp fun lt same => absurd (same ▸ lt) (Nat.lt_irrefl _)
    · exact apart.imp fun differ same => differ (congrArg WarmupPhase.number same)

end DurableStore

open Statement in
/-- A store writes phases, and it writes buckets, as a transaction of single statements does. If a limit or a count is too
large for the tables, or a phase number comes twice, the call is refused and the store is as it was, whatever it holds.
Otherwise the phases that are loaded then are the given ones, in the order of their numbers; and the buckets were saved as
one after the other, each taking the place of the row with its key and the rows of its kind before it. -/
theorem batches_atomic (s : DurableStore) (phases : List WarmupPhase) (buckets : List CounterBucket) :
    (transact (writePhases phases) s = s.call (.replacePhases phases) ∧
      transact (writeCounters buckets) s = s.call (.saveCounters buckets)) ∧
    ((∃ p ∈ phases, Width.signed ≤ p.limits.maxPerHour ∨ Width.signed ≤ p.limits.maxPerDay ∨
        Width.signed ≤ p.limits.burst) ∨ ¬ (phases.map (·.number)).Nodup →
      ∃ fault, s.call (.replacePhases phases) = (.error fault, s)) ∧
    ((∃ b ∈ buckets, Width.signed ≤ b.count) → ∃ fault, s.call (.saveCounters buckets) = (.error fault, s)) ∧
    ((∀ p ∈ phases, p.Storable) → (phases.map (·.number)).Nodup →
      ∃ rows loaded, s.call (.replacePhases phases) = (.ok (), { s with phases := rows }) ∧
        { s with phases := rows }.call .loadPhases = (.ok loaded, { s with phases := rows }) ∧
        loaded.Perm phases ∧ loaded.Pairwise (·.number < ·.number)) ∧
    ((∀ b ∈ buckets, b.count < Width.signed) →
      s.call (.saveCounters buckets) = (.ok (), buckets.foldl (fun s b => (s.call (.saveCounters [b])).2) s)) ∧
    ∀ b : CounterBucket, b.count < Width.signed →
      ∃ rows, s.call (.saveCounters [b]) = (.ok (), { s with counters := rows }) ∧
        ∀ r, r ∈ rows ↔ r = CounterRow.entry b ∨ r ∈ s.counters ∧
          CounterRow.sameKey (CounterRow.entry b) r = false ∧ r.isBefore (CounterRow.entry b) = false := by
  refine ⟨⟨transact_writePhases s phases, transact_writeCounters s buckets⟩, DurableStore.replacePhases_refused,
    DurableStore.saveCounters_refused, DurableStore.replacePhases_written, DurableStore.saveCounters_written, ?_⟩
  intro b fits
  exact DurableStore.saveCounters_single fits

/-- The last of several elements is refused, or none is. -/
theorem batches_atomic_last :
    let phase (number hour : Nat) : WarmupPhase := ⟨number, "ramp", 7, ⟨hour, 1000, 50⟩⟩
    let bucket (start : Int) (count : Nat) : CounterBucket := ⟨.hour, ⟨⟨start⟩, 0⟩, count⟩
    let s : DurableStore :=
      { DurableStore.empty with
        phases := [PhaseRow.entry (phase 9 100)]
        counters := [CounterRow.entry (bucket 0 5)] }
    (∃ fault, s.call (.replacePhases [phase 1 100, phase 0 9223372036854775808]) = (.error fault, s)) ∧
    (∃ fault, s.call (.replacePhases [phase 1 100, phase 1 200]) = (.error fault, s)) ∧
    (∃ fault, s.call (.saveCounters [bucket 1 7, bucket 2 9223372036854775808]) = (.error fault, s)) ∧
    (∃ rows, s.call (.replacePhases [phase 1 100, phase 0 200]) = (.ok (), { s with phases := rows })) ∧
    s.call (.saveCounters [bucket 1 7, bucket 2 9]) =
      (.ok (), ((s.call (.saveCounters [bucket 1 7])).2.call (.saveCounters [bucket 2 9])).2) ∧
    ∃ rows, s.call (.saveCounters [bucket 1 7]) = (.ok (), { s with counters := rows }) := by
  intro phase bucket s
  have storable : ∀ p ∈ [phase 1 100, phase 0 200], p.Storable := by
    simp only [List.forall_mem_cons]
    exact ⟨by constructor <;> decide, by constructor <;> decide, nofun⟩
  have fits : ∀ b ∈ [bucket 1 7, bucket 2 9], b.count < Width.signed := by
    simp only [List.forall_mem_cons]
    exact ⟨by decide, by decide, nofun⟩
  obtain ⟨-, late, -, -, -, single⟩ := batches_atomic s [phase 1 100, phase 0 9223372036854775808] []
  obtain ⟨-, twice, -⟩ := batches_atomic s [phase 1 100, phase 1 200] []
  obtain ⟨-, -, large, -⟩ := batches_atomic s [] [bucket 1 7, bucket 2 9223372036854775808]
  obtain ⟨-, -, -, written, saved, -⟩ := batches_atomic s [phase 1 100, phase 0 200] [bucket 1 7, bucket 2 9]
  obtain ⟨rows, loaded, replaced, -⟩ := written storable (by decide)
  obtain ⟨counters, one, -⟩ := single (bucket 1 7) (by decide)
  refine ⟨late (Or.inl ⟨phase 0 9223372036854775808, ?_, ?_⟩), twice (Or.inr (by decide)),
    large ⟨bucket 2 9223372036854775808, ?_, ?_⟩, ⟨rows, replaced⟩, saved fits, counters, one⟩
  · simp
  · exact Or.inl (by decide)
  · simp
  · decide

end RelayRamp.Store
