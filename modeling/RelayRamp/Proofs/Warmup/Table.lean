import RelayRamp.Warmup.Clock

/-!
# The days of a phase table

The phases of a table are numbered from zero in order, so the days before a phase are those of the phases listed
before it. A count of elapsed days that lies among the days of a phase has its place there, and the phase is the
active one.
-/
namespace RelayRamp.Warmup

theorem numbered_of_sound {phases : List WarmupPhase} {number : Nat} (sound : firstFault? number phases = none) :
    phases.Pairwise (·.number ≤ ·.number) ∧ ∀ phase ∈ phases, number ≤ phase.number := by
  induction phases generalizing number with
  | nil => exact ⟨.nil, nofun⟩
  | cons phase rest ih =>
    unfold firstFault? at sound
    split at sound
    · cases sound
    · rename_i same
      have same : phase.number = number := Decidable.not_not.mp same
      split at sound
      · cases sound
      · obtain ⟨ordered, above⟩ := ih sound
        refine ⟨.cons (fun later member => ?_) ordered, fun later member => ?_⟩
        · exact same ▸ Nat.le_of_succ_le (above later member)
        · rcases List.mem_cons.mp member with rfl | member
          · exact Nat.le_of_eq same.symm
          · exact Nat.le_of_succ_le (above later member)

theorem durationDays_pos {phase : WarmupPhase} (sound : phase.fault? = none) : 0 < phase.durationDays := by
  refine Nat.pos_of_ne_zero fun zero => ?_
  simp only [WarmupPhase.fault?, zero, if_true] at sound
  repeat' split at sound
  all_goals cases sound

/-- A phase of a sound list stands at its number and lasts a day at least. -/
theorem phase_of_sound {phases : List WarmupPhase} {first index : Nat} {phase : WarmupPhase}
    (sound : firstFault? first phases = none) (found : phases[index]? = some phase) :
    phase.number = first + index ∧ 0 < phase.durationDays := by
  induction phases generalizing first index with
  | nil => cases found
  | cons head rest ih =>
    unfold firstFault? at sound
    split at sound
    · cases sound
    · rename_i same
      split at sound
      · cases sound
      · rename_i faultless
        cases index with
        | zero =>
          cases found
          exact ⟨Decidable.not_not.mp same, durationDays_pos faultless⟩
        | succ index =>
          obtain ⟨number, lasts⟩ := ih sound found
          exact ⟨by omega, lasts⟩

theorem takeWhile_of_sound {phases : List WarmupPhase} {first : Nat} (sound : firstFault? first phases = none)
    (count : Nat) : phases.takeWhile (·.number < first + count) = phases.take count := by
  induction phases generalizing first count with
  | nil => simp
  | cons head rest ih =>
    have number : head.number = first := (phase_of_sound sound (show (head :: rest)[0]? = some head from rfl)).1
    unfold firstFault? at sound
    split at sound
    · cases sound
    · split at sound
      · cases sound
      · cases count with
        | zero => simp [number]
        | succ count =>
          have rest_eq := ih sound count
          rw [Nat.add_assoc, Nat.add_comm 1 count] at rest_eq
          rw [List.takeWhile_cons_of_pos (by simpa using by omega), List.take_succ_cons, rest_eq]

namespace PhaseTable

theorem daysOf_append (phases more : List WarmupPhase) : daysOf (phases ++ more) = daysOf phases + daysOf more := by
  induction phases with
  | nil => simp [daysOf]
  | cons phase rest ih => rw [List.cons_append, daysOf, daysOf, ih, Nat.add_assoc]

/-- Elapsed days that lie among the days of a phase have their place at its index. -/
theorem place_within {phases : List WarmupPhase} {phase : WarmupPhase} {days index before offset : Nat}
    (found : phases[offset]? = some phase) (begun : before + daysOf (phases.take offset) ≤ days)
    (lasts : days < before + daysOf (phases.take offset) + phase.durationDays) :
    place days index before phases = some (index + offset) := by
  induction phases generalizing index before offset with
  | nil => cases found
  | cons head rest ih =>
    cases offset with
    | zero =>
      cases found
      rw [place, if_pos (by simpa [daysOf] using lasts), Nat.add_zero]
    | succ offset =>
      rw [List.take_succ_cons, daysOf, ← Nat.add_assoc] at begun lasts
      rw [place, if_neg (by omega), ih found begun lasts]
      congr 1
      omega

/-- The phase one has come to some days after the start of the first of these, none if all are over. -/
def reached : List WarmupPhase → Nat → Option WarmupPhase
  | [], _ => none
  | phase :: rest, days =>
    if days < phase.durationDays then some phase else reached rest (days - phase.durationDays)

theorem reached_within {phases : List WarmupPhase} {days : Nat} {phase : WarmupPhase}
    (here : reached phases days = some phase) : ∃ offset, phases[offset]? = some phase ∧
      daysOf (phases.take offset) ≤ days ∧ days < daysOf (phases.take offset) + phase.durationDays := by
  induction phases generalizing days with
  | nil => cases here
  | cons head rest ih =>
    rw [reached] at here
    split at here
    · rename_i first
      cases here
      exact ⟨0, rfl, Nat.zero_le _, by simpa [daysOf] using first⟩
    · rename_i begun
      obtain ⟨offset, found, before, lasts⟩ := ih here
      refine ⟨offset + 1, found, ?_, ?_⟩
      · rw [List.take_succ_cons, daysOf]
        omega
      · rw [List.take_succ_cons, daysOf]
        omega

theorem reached_over {phases : List WarmupPhase} {days : Nat} (gone : reached phases days = none) :
    daysOf phases ≤ days := by
  induction phases generalizing days with
  | nil => exact Nat.zero_le _
  | cons head rest ih =>
    rw [reached] at gone
    split at gone
    · cases gone
    · have rest_over := ih gone
      rw [daysOf]
      omega

/-- Days that end before the phases do end in one of them. -/
theorem exists_within {phases : List WarmupPhase} {days : Nat} (early : days < daysOf phases) :
    ∃ offset phase, phases[offset]? = some phase ∧ daysOf (phases.take offset) ≤ days ∧
      days < daysOf (phases.take offset) + phase.durationDays := by
  cases here : reached phases days with
  | none => exact absurd (reached_over here) (Nat.not_le_of_lt early)
  | some phase =>
    obtain ⟨offset, within⟩ := reached_within here
    exact ⟨offset, phase, within⟩

/-- When all phases are over there is no place left. -/
theorem place_over {phases : List WarmupPhase} {days index before : Nat} (past : before + daysOf phases ≤ days) :
    place days index before phases = none := by
  induction phases generalizing index before with
  | nil => rfl
  | cons head rest ih =>
    rw [daysOf] at past
    rw [place, if_neg (by omega)]
    exact ih (by omega)

variable {table : PhaseTable} {number : Nat} {phase : WarmupPhase}

/-- A table has the phases that it is built from, in the order of their numbers. -/
theorem ofPhases_phases {phases : List WarmupPhase} {table : PhaseTable} (ok : ofPhases phases = .ok table) :
    table.phases = phases.mergeSort (·.number ≤ ·.number) := by
  unfold ofPhases at ok
  split at ok
  · cases ok
  · split at ok
    · cases ok
    · dsimp only at ok
      split at ok
      · cases ok
      · split at ok
        · cases ok
          rfl
        · cases ok

/-- The phases of a table build it again. -/
theorem ofPhases_self (few : table.phases.length ≤ maxPhases) : ofPhases table.phases = .ok table := by
  have sorted : table.phases.mergeSort (·.number ≤ ·.number) = table.phases :=
    List.mergeSort_of_pairwise (by simpa using (numbered_of_sound table.sound).1)
  unfold ofPhases
  rw [if_neg (by simpa using table.nonempty), if_neg (Nat.not_lt.mpr few)]
  dsimp only
  split
  · rename_i found
    rw [sorted, table.sound] at found
    cases found
  · rw [dif_pos (by rw [sorted]; exact table.nonempty)]
    simp only [sorted]

/-- A changed table is made from phases, as every table is. -/
theorem withPatch_built {changed : PhaseTable} {patch : PhasePatch} (patched : table.withPatch number patch = .ok changed) :
    ∃ given, ofPhases given = .ok changed := by
  unfold withPatch at patched
  split at patched
  · cases patched
  · exact ⟨_, patched⟩

theorem get?_number (found : table.get? number = some phase) : phase.number = number := by
  rw [(phase_of_sound table.sound found).1, Nat.zero_add]

theorem get?_lasts (found : table.get? number = some phase) : 0 < phase.durationDays :=
  (phase_of_sound table.sound found).2

theorem get?_zero (table : PhaseTable) : ∃ phase, table.get? 0 = some phase := by
  obtain ⟨head, rest, same⟩ := List.exists_cons_of_ne_nil table.nonempty
  exact ⟨head, by simp [get?, same]⟩

/-- Every number before that of a phase is that of a phase. -/
theorem get?_pred (found : table.get? (number + 1) = some phase) : ∃ before, table.get? number = some before := by
  have here : number + 1 < table.phases.length := (List.getElem?_eq_some_iff.mp found).1
  exact ⟨_, List.getElem?_eq_getElem (by omega)⟩

theorem daysBefore_eq (table : PhaseTable) (number : Nat) :
    table.daysBefore number = daysOf (table.phases.take number) := by
  have taken := takeWhile_of_sound table.sound number
  rw [Nat.zero_add] at taken
  rw [daysBefore, taken]

@[simp] theorem daysBefore_zero (table : PhaseTable) : table.daysBefore 0 = 0 := by
  rw [daysBefore_eq, List.take_zero, daysOf]

theorem daysBefore_succ (found : table.get? number = some phase) :
    table.daysBefore (number + 1) = table.daysBefore number + phase.durationDays := by
  rw [daysBefore_eq, daysBefore_eq, List.take_add_one, show table.phases[number]? = some phase from found,
    Option.toList_some, daysOf_append, daysOf, daysOf, Nat.add_zero]

theorem daysBefore_mono {later : Nat} (ordered : number ≤ later) : table.daysBefore number ≤ table.daysBefore later := by
  induction ordered with
  | refl => exact Nat.le_refl _
  | @step later _ ih =>
    refine Nat.le_trans ih ?_
    rw [daysBefore_eq, daysBefore_eq, List.take_add_one, daysOf_append]
    exact Nat.le_add_right ..

/-- While the days of a phase last, it is the active one and the warmup is not over. -/
theorem active_within {days : Nat} (found : table.get? number = some phase) (begun : table.daysBefore number ≤ days)
    (lasts : days < table.daysBefore number + phase.durationDays) :
    table.position days = ⟨number, false⟩ ∧ table.active days = phase := by
  rw [daysBefore_eq] at begun lasts
  have placed : place days 0 0 table.phases = some (0 + number) :=
    place_within found (by simpa using begun) (by simpa using lasts)
  rw [Nat.zero_add] at placed
  have position : table.position days = ⟨number, false⟩ := by rw [PhaseTable.position, placed]
  refine ⟨position, ?_⟩
  rw [active, position, show table.phases[number]? = some phase from found, Option.getD_some]

theorem get?_last (table : PhaseTable) : table.get? (table.phases.length - 1) = some table.last := by
  rw [get?, ← List.getLast?_eq_getElem?, List.getLast?_eq_some_getLast table.nonempty, last]

/-- When the days of all phases are over, the last one is active. -/
theorem active_over {days : Nat} (past : table.totalDays ≤ days) :
    table.position days = ⟨table.phases.length - 1, true⟩ ∧ table.active days = table.last := by
  have position : table.position days = ⟨table.phases.length - 1, true⟩ := by
    rw [PhaseTable.position, place_over (by rw [Nat.zero_add]; exact past)]
  refine ⟨position, ?_⟩
  rw [active, position, show table.phases[table.phases.length - 1]? = some table.last from table.get?_last,
    Option.getD_some]

/-- The active phase is in the table, at its place. -/
theorem get?_position (table : PhaseTable) (days : Nat) :
    table.get? (table.position days).index = some (table.active days) := by
  by_cases early : days < table.totalDays
  · obtain ⟨number, phase, found, begun, lasts⟩ := exists_within early
    rw [← daysBefore_eq] at begun lasts
    obtain ⟨position, active⟩ := active_within found begun lasts
    rw [position, active]
    exact found
  · obtain ⟨position, active⟩ := table.active_over (Nat.le_of_not_lt early)
    rw [position, active]
    exact table.get?_last

theorem position_lt (table : PhaseTable) (days : Nat) : (table.position days).index < table.phases.length :=
  (List.getElem?_eq_some_iff.mp (table.get?_position days)).1

end PhaseTable

/-- Two days of little mail and a day of more. -/
def threeDays : PhaseTable :=
  ⟨[⟨0, "little", 2, ⟨10, 20, 5⟩⟩, ⟨1, "more", 1, ⟨100, 200, 50⟩⟩], by decide, by decide⟩

end RelayRamp.Warmup
