import Mathlib.Data.List.DropRight
import Mathlib.Data.List.Nodup
import RelayRamp.Proofs.Warmup.Table

/-!
# Which lists are phase tables

Phases make a table when their numbers are those from zero on, each once, and each phase is valid on its own. The order
in which they are given does not matter: sorted by number they are the table. Changing a phase of a table is judged by
the changed phase alone. Only which fault is named for a list without distinct numbers may depend on its order: of two
phases with one number the first one is judged on its own before the second one is found to repeat it.
-/
namespace RelayRamp.Text

theorem trimWhile_eq_nil_iff {p : Char → Bool} {s : List Char} : trimWhile p s = [] ↔ ∀ c ∈ s, p c = true := by
  have ends (s : List Char) : dropEndWhile p s = [] ↔ s.dropWhile p = [] := by
    simp only [dropEndWhile, List.reverse_eq_nil_iff, List.dropWhile_eq_nil_iff, List.mem_reverse]
  rw [trimWhile, ends, List.dropWhile_idempotent, List.dropWhile_eq_nil_iff]

end RelayRamp.Text

namespace RelayRamp.Warmup

open RelayRamp.Text

/-- What a phase must be like on its own. -/
structure WarmupPhase.Valid (phase : WarmupPhase) : Prop where
  named : ∃ c ∈ phase.name.toList, isBlank c = false
  short : octets phase.name ≤ 128
  lasts : 1 ≤ phase.durationDays
  bounded : phase.durationDays ≤ 3650

/-- What phases must be like to make a table, in whatever order they are given. -/
structure Acceptable (phases : List WarmupPhase) : Prop where
  nonempty : 1 ≤ phases.length
  few : phases.length ≤ 64
  numbered : (phases.map (·.number)).Perm (List.range phases.length)
  valid : ∀ phase ∈ phases, phase.Valid

theorem Acceptable.distinct {phases : List WarmupPhase} (h : Acceptable phases) : (phases.map (·.number)).Nodup :=
  h.numbered.nodup_iff.mpr List.nodup_range

theorem WarmupPhase.fault?_eq_none_iff {phase : WarmupPhase} : phase.fault? = none ↔ phase.Valid := by
  have blank : (trimChars phase.name.toList).isEmpty = true ↔ ¬ ∃ c ∈ phase.name.toList, isBlank c = false := by
    rw [List.isEmpty_iff, trimChars, trimWhile_eq_nil_iff]
    simp
  unfold fault? maxNameLength maxDurationDays
  constructor
  · intro sound
    split at sound
    · cases sound
    · split at sound
      · cases sound
      · split at sound
        · cases sound
        · split at sound
          · cases sound
          · rename_i shown short lasts bounded
            exact ⟨Decidable.not_not.mp (mt blank.mpr shown), by omega, by omega, by omega⟩
  · rintro ⟨named, short, lasts, bounded⟩
    rw [if_neg (mt blank.mp (not_not_intro named)), if_neg (by omega), if_neg (by omega), if_neg (by omega)]

theorem firstFault?_eq_none_iff {phases : List WarmupPhase} {first : Nat} : firstFault? first phases = none ↔
    phases.map (·.number) = List.range' first phases.length ∧ ∀ phase ∈ phases, phase.Valid := by
  induction phases generalizing first with
  | nil => simp [firstFault?]
  | cons phase rest ih =>
    rw [List.map_cons, List.length_cons, List.range'_succ, List.cons.injEq, List.forall_mem_cons, firstFault?]
    by_cases number : phase.number = first
    · rw [if_neg (not_not_intro number)]
      cases judged : phase.fault? with
      | some fault =>
        have invalid : ¬ phase.Valid := fun valid =>
          Option.some_ne_none fault (judged.symm.trans (WarmupPhase.fault?_eq_none_iff.mpr valid))
        simp [invalid]
      | none =>
        have valid := WarmupPhase.fault?_eq_none_iff.mp judged
        simp [ih, number, valid]
    · rw [if_pos number]
      simp [number]

namespace PhaseTable

variable {phases others : List WarmupPhase} {table : PhaseTable} {number : Nat} {phase : WarmupPhase}

theorem pairwise_sorted (phases : List WarmupPhase) :
    (phases.mergeSort (·.number ≤ ·.number)).Pairwise (·.number ≤ ·.number) := by
  refine (List.pairwise_mergeSort (fun a b c first second => ?_) (fun a b => ?_) phases).imp of_decide_eq_true
  · simp only [decide_eq_true_eq] at *
    exact Nat.le_trans first second
  · simp only [Bool.or_eq_true, decide_eq_true_eq]
    exact Nat.le_total ..

/-- Sorted phases are numbered from zero on exactly when the numbers from zero on are theirs in some order. -/
theorem numbered_sorted_iff : (phases.mergeSort (·.number ≤ ·.number)).map (·.number) = List.range phases.length ↔
    (phases.map (·.number)).Perm (List.range phases.length) := by
  have sorting := (List.mergeSort_perm phases (·.number ≤ ·.number)).map (·.number)
  constructor
  · intro same
    exact sorting.symm.trans (.of_eq same)
  · intro perm
    refine (sorting.trans perm).eq_of_pairwise (fun _ _ _ _ => Nat.le_antisymm) ?_ List.pairwise_le_range
    rw [List.pairwise_map]
    exact pairwise_sorted phases

theorem ofPhases_ok_iff : (∃ table, ofPhases phases = .ok table) ↔ Acceptable phases := by
  have sorting := List.mergeSort_perm phases (·.number ≤ ·.number)
  have sound : firstFault? 0 (phases.mergeSort (·.number ≤ ·.number)) = none ↔
      (phases.map (·.number)).Perm (List.range phases.length) ∧ ∀ phase ∈ phases, phase.Valid := by
    rw [firstFault?_eq_none_iff, sorting.length_eq, ← List.range_eq_range', numbered_sorted_iff]
    simp only [sorting.mem_iff]
  have full : phases.mergeSort (·.number ≤ ·.number) ≠ [] ↔ 1 ≤ phases.length := by
    rw [← List.length_pos_iff, sorting.length_eq]
    exact Iff.rfl
  constructor
  · rintro ⟨table, built⟩
    have few : phases.length ≤ maxPhases := by
      refine Nat.le_of_not_lt fun (many : phases.length > maxPhases) => ?_
      unfold ofPhases at built
      rw [if_pos many] at built
      split at built
      all_goals cases built
    have same := ofPhases_phases built
    obtain ⟨numbered, valid⟩ := sound.mp (same ▸ table.sound)
    exact ⟨full.mp (same ▸ table.nonempty), few, numbered, valid⟩
  · rintro ⟨nonempty, few, numbered, valid⟩
    have faultless := sound.mpr ⟨numbered, valid⟩
    have some : ¬ phases.isEmpty = true := by
      rw [List.isEmpty_iff, ← List.length_eq_zero_iff]
      omega
    unfold ofPhases
    rw [if_neg some, if_neg (show ¬ phases.length > maxPhases from Nat.not_lt.mpr few)]
    dsimp only
    split
    · rename_i found
      rw [faultless] at found
      cases found
    · exact ⟨_, dif_pos (full.mpr nonempty)⟩

/-- Phases that are sorted to one list make the same table or have the same fault. -/
theorem ofPhases_congr (length : others.length = phases.length)
    (sorted : others.mergeSort (·.number ≤ ·.number) = phases.mergeSort (·.number ≤ ·.number)) :
    ofPhases others = ofPhases phases := by
  have empty : others.isEmpty = phases.isEmpty := by
    rw [Bool.eq_iff_iff, List.isEmpty_iff_length_eq_zero, List.isEmpty_iff_length_eq_zero, length]
  unfold ofPhases
  rw [empty, length, sorted]

/-- Phases that make a table are its phases, sorted by number. -/
theorem ofPhases_perm (built : ofPhases phases = .ok table) : table.phases.Perm phases := by
  rw [ofPhases_phases built]
  exact List.mergeSort_perm ..

/-- Phases with distinct numbers are sorted to one list from any order. -/
theorem ofPhases_of_perm (distinct : (phases.map (·.number)).Nodup) (perm : others.Perm phases) :
    ofPhases others = ofPhases phases := by
  have sorting (phases : List WarmupPhase) := List.mergeSort_perm phases (·.number ≤ ·.number)
  have both := ((sorting others).trans perm).trans (sorting phases).symm
  refine ofPhases_congr perm.length_eq (both.eq_of_pairwise (fun a b here there first second => ?_)
    (pairwise_sorted others) (pairwise_sorted phases))
  exact List.inj_on_of_nodup_map distinct (perm.mem_iff.mp (List.mem_mergeSort.mp here)) (List.mem_mergeSort.mp there)
    (Nat.le_antisymm first second)

/-- The phases of a table stand at their numbers. -/
theorem get?_member (member : phase ∈ table.phases) : table.get? phase.number = some phase := by
  obtain ⟨index, here, rfl⟩ := List.getElem_of_mem member
  have found : table.get? index = some table.phases[index] := List.getElem?_eq_getElem here
  rw [get?_number found]
  exact found

/-! ### Changing one phase -/

/-- Replacing the phase with the number replaces the phase at its place. -/
theorem map_patched (table : PhaseTable) (number : Nat) (changed : WarmupPhase) :
    (table.phases.map fun phase => if phase.number = number then changed else phase) =
      table.phases.set number changed := by
  refine List.ext_getElem (by simp) fun index here there => ?_
  have within : index < table.phases.length := by simpa using here
  have placed : table.phases[index].number = index := get?_number (List.getElem?_eq_getElem within)
  rw [List.getElem_map, List.getElem_set, placed]
  simp only [eq_comm]

theorem withPatch_eq (found : table.get? number = some phase) (patch : PhasePatch) :
    table.withPatch number patch = ofPhases (table.phases.set number (phase.patched patch)) := by
  rw [withPatch, found, ← map_patched]

theorem numbers_patched (found : table.get? number = some phase) (patch : PhasePatch) :
    (table.phases.set number (phase.patched patch)).map (·.number) = table.phases.map (·.number) := by
  obtain ⟨here, same⟩ := List.getElem?_eq_some_iff.mp found
  have within : number < (table.phases.map (·.number)).length := by simpa using here
  have kept : (phase.patched patch).number = (table.phases.map (·.number))[number] := by
    rw [List.getElem_map, same]
    rfl
  rw [List.map_set, kept, List.set_getElem_self]

/-- Changing a phase is a matter of the changed phase. -/
theorem acceptable_patched (fits : Acceptable table.phases) (found : table.get? number = some phase)
    (patch : PhasePatch) :
    Acceptable (table.phases.set number (phase.patched patch)) ↔ (phase.patched patch).Valid := by
  obtain ⟨here, same⟩ := List.getElem?_eq_some_iff.mp found
  constructor
  · intro h
    exact h.valid _ (List.mem_set here _)
  · intro valid
    refine ⟨?_, ?_, ?_, fun other member => ?_⟩
    · rw [List.length_set]
      exact fits.nonempty
    · rw [List.length_set]
      exact fits.few
    · rw [numbers_patched found, List.length_set]
      exact fits.numbered
    · rcases List.mem_or_eq_of_mem_set member with old | rfl
      · exact fits.valid other old
      · exact valid

/-- The changed phase stands where the phase stood, and everything else stays. -/
theorem withPatch_phases {patched : PhaseTable} {patch : PhasePatch} (found : table.get? number = some phase)
    (done : table.withPatch number patch = .ok patched) :
    patched.phases = table.phases.set number (phase.patched patch) := by
  rw [withPatch_eq found] at done
  have ordered : ((table.phases.set number (phase.patched patch)).map (·.number)).Pairwise (· ≤ ·) := by
    rw [numbers_patched found, List.pairwise_map]
    exact (numbered_of_sound table.sound).1
  rw [List.pairwise_map] at ordered
  rw [ofPhases_phases done, List.mergeSort_of_pairwise (ordered.imp decide_eq_true)]

theorem withPatch_ok_iff (fits : Acceptable table.phases) {patch : PhasePatch} :
    (∃ patched, table.withPatch number patch = .ok patched) ↔
      ∃ phase, table.get? number = some phase ∧ (phase.patched patch).Valid := by
  cases found : table.get? number with
  | none => simp [withPatch, found]
  | some phase =>
    rw [withPatch_eq found, ofPhases_ok_iff, acceptable_patched fits found]
    simp

/-- Phases make a table exactly if they are acceptable, and from any order they make the same one, with each phase at the
index that is its number. If their numbers are distinct, even the fault does not depend on the order. A phase of a table
can be changed exactly if it is there and valid after the change, and the rest of the table stays as it is. -/
theorem phase_tables_exact (phases : List WarmupPhase) :
    ((∃ table, ofPhases phases = .ok table) ↔ Acceptable phases) ∧
    (∀ others, others.Perm phases → (∀ table, ofPhases others = .ok table ↔ ofPhases phases = .ok table) ∧
      ((phases.map (·.number)).Nodup → ofPhases others = ofPhases phases)) ∧
    ∀ table, ofPhases phases = .ok table →
      (∀ number phase, table.get? number = some phase ↔ phase ∈ phases ∧ phase.number = number) ∧
      ∀ number patch,
        ((∃ patched, table.withPatch number patch = .ok patched) ↔
          ∃ phase, table.get? number = some phase ∧ (phase.patched patch).Valid) ∧
        ∀ phase patched, table.get? number = some phase → table.withPatch number patch = .ok patched →
          patched.phases = table.phases.set number (phase.patched patch) ∧
          patched.phases.map (·.number) = table.phases.map (·.number) := by
  have distinct {phases : List WarmupPhase} {table : PhaseTable} (built : ofPhases phases = .ok table) :
      (phases.map (·.number)).Nodup := (ofPhases_ok_iff.mp ⟨table, built⟩).distinct
  refine ⟨ofPhases_ok_iff, fun others perm => ⟨fun table => ⟨fun built => ?_, fun built => ?_⟩, fun numbers => ?_⟩,
    fun table built => ⟨fun number phase => ⟨fun found => ?_, ?_⟩, fun number patch => ⟨?_, ?_⟩⟩⟩
  · exact (ofPhases_of_perm (distinct built) perm.symm).trans built
  · exact (ofPhases_of_perm (distinct built) perm).trans built
  · exact ofPhases_of_perm numbers perm
  · exact ⟨(ofPhases_perm built).mem_iff.mp (List.mem_of_getElem? found), get?_number found⟩
  · rintro ⟨member, rfl⟩
    exact get?_member ((ofPhases_perm built).mem_iff.mpr member)
  · have again : ofPhases table.phases = .ok table :=
      (ofPhases_of_perm (distinct built) (ofPhases_perm built)).trans built
    exact withPatch_ok_iff (ofPhases_ok_iff.mp ⟨table, again⟩)
  · intro phase patched found done
    have phases := withPatch_phases found done
    exact ⟨phases, phases ▸ numbers_patched found patch⟩

end PhaseTable

/-- Given the other way round, two phases make the table. The second one may be changed to last ten years, and not a day
longer. -/
theorem phase_tables_exact_reversed :
    let little : WarmupPhase := ⟨0, "little", 2, ⟨10, 20, 5⟩⟩
    let more : WarmupPhase := ⟨1, "more", 1, ⟨100, 200, 50⟩⟩
    let lasting (days : Nat) : PhasePatch := ⟨none, some days, none, none, none⟩
    [more, little].Perm [little, more] ∧ PhaseTable.ofPhases [more, little] = .ok threeDays ∧
      threeDays.get? 1 = some more ∧
      (∃ patched, threeDays.withPatch 1 (lasting 3650) = .ok patched ∧
        patched.phases = [little, ⟨1, "more", 3650, ⟨100, 200, 50⟩⟩]) ∧
      ¬ ∃ patched, threeDays.withPatch 1 (lasting 3651) = .ok patched := by
  intro little more lasting
  obtain ⟨-, ordered, -⟩ := PhaseTable.phase_tables_exact [little, more]
  have swapped : [more, little].Perm [little, more] := List.Perm.swap ..
  have built : PhaseTable.ofPhases [more, little] = .ok threeDays :=
    ((ordered _ swapped).1 threeDays).mpr (threeDays.ofPhases_self (by decide))
  obtain ⟨-, -, changes⟩ := PhaseTable.phase_tables_exact [more, little]
  have named : ∃ c ∈ more.name.toList, Text.isBlank c = false := ⟨'m', by decide, by decide⟩
  obtain ⟨longest, placed⟩ := (changes threeDays built).2 1 (lasting 3650)
  obtain ⟨patched, done⟩ := longest.mpr ⟨more, rfl, named, by decide +kernel, by decide, by decide⟩
  refine ⟨swapped, built, rfl, ⟨patched, done, (placed more patched rfl done).1⟩, fun longer => ?_⟩
  obtain ⟨phase, found, valid⟩ := ((changes threeDays built).2 1 (lasting 3651)).1.mp longer
  cases found
  exact absurd valid.bounded (by decide)

/-- With one number for both phases, the first one decides which fault is named. -/
example :
    PhaseTable.ofPhases [⟨0, " ", 1, ⟨1, 1, 1⟩⟩, ⟨0, "a", 1, ⟨1, 1, 1⟩⟩] = .error (.phase 0 .blankName) ∧
      PhaseTable.ofPhases [⟨0, "a", 1, ⟨1, 1, 1⟩⟩, ⟨0, " ", 1, ⟨1, 1, 1⟩⟩] = .error (.phaseTable (.gap 1 0)) := by
  constructor
  · cbv
  · cbv

end RelayRamp.Warmup
