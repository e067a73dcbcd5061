import RelayRamp.Text.Natural

/-!
# Reading back what was written

Splitting is that of the library. Parts that were joined by a separator, or ended by one, are what splitting gives back,
and so are the words of a line. A number is read back from its digits.
-/
namespace RelayRamp.Text

theorem splitOn_eq (separator : Char) (s : List Char) : splitOn separator s = s.splitOn separator := by
  induction s with
  | nil => rfl
  | cons c rest ih =>
    have cons : (c :: rest).splitOn separator =
        if c == separator then [] :: rest.splitOn separator
        else (rest.splitOn separator).modifyHead (List.cons c) :=
      List.splitOnP_cons_eq_if_modifyHead ..
    rw [splitOn, cons, ih]
    by_cases same : c = separator
    · simp [same]
    · simp only [same, if_false, beq_iff_eq]
      cases parts : rest.splitOn separator with
      | nil => exact absurd parts (List.splitOn_ne_nil _ _)
      | cons part parts => rfl

/-- Joining the parts gives the text back. -/
theorem intercalate_splitOn (separator : Char) (s : List Char) :
    [separator].intercalate (splitOn separator s) = s := by
  rw [splitOn_eq, List.intercalate_splitOn]

/-- The text up to a separator is the first part. -/
theorem splitOn_part {separator : Char} {part : List Char} (plain : separator ∉ part) (rest : List Char) :
    splitOn separator (part ++ separator :: rest) = part :: splitOn separator rest := by
  have apart : ∀ c ∈ part, (c == separator) = false := fun c member => by
    rw [beq_eq_false_iff_ne]
    rintro rfl
    exact plain member
  rw [splitOn_eq, splitOn_eq]
  exact List.splitOnP_append_cons_of_forall_mem apart separator (beq_self_eq_true _) rest

/-- A separator parts what is before it from what is behind it. -/
theorem splitOn_append (separator : Char) (before after : List Char) :
    splitOn separator (before ++ separator :: after) = splitOn separator before ++ splitOn separator after := by
  simp only [splitOn_eq]
  exact List.splitOnP_append_cons before after (beq_self_eq_true _)

/-- A text of lines, each with its end, has these lines and an empty one after the last end. -/
theorem splitOn_lines {ending : Char} {lines : List (List Char)} (plain : ∀ line ∈ lines, ending ∉ line) :
    splitOn ending (lines.flatMap (· ++ [ending])) = lines ++ [[]] := by
  induction lines with
  | nil => rfl
  | cons line rest ih =>
    obtain ⟨first, others⟩ := List.forall_mem_cons.mp plain
    rw [List.flatMap_cons, List.append_assoc, List.singleton_append, splitOn_part first, ih others]
    rfl

/-- The first separator ends what stands before it. -/
theorem splitFirst_eq {separator : Char} {before : List Char} (plain : separator ∉ before) (after : List Char) :
    splitFirst separator (before ++ separator :: after) = some (before, after) := by
  have apart : ∀ c ∈ before, decide (c ≠ separator) = true := fun c member =>
    decide_eq_true fun same => plain (same ▸ member)
  rw [splitFirst, List.dropWhile_append_of_pos apart, List.takeWhile_append_of_pos apart]
  simp

/-! ### Lines that are not empty -/

/-- The lines of a text that have something in them. -/
def filledLines (s : List Char) : List (List Char) := (splitOn '\n' s).filter (· ≠ [])

@[simp] theorem filledLines_nil : filledLines [] = [] := rfl

/-- A line end parts the lines before it from those after it. -/
theorem filledLines_append (before after : List Char) :
    filledLines (before ++ '\n' :: after) = filledLines before ++ filledLines after := by
  rw [filledLines, splitOn_append, List.filter_append]
  rfl

/-- A text of lines, each with something in it and with its end, has these lines. -/
theorem filledLines_lines {lines : List (List Char)} (plain : ∀ line ∈ lines, '\n' ∉ line)
    (filled : ∀ line ∈ lines, line ≠ []) : filledLines (lines.flatMap (· ++ ['\n'])) = lines := by
  rw [filledLines, splitOn_lines plain, List.filter_append,
    List.filter_eq_self.mpr fun line member => decide_eq_true (filled line member)]
  exact List.append_nil lines

/-! ### Words -/

/-- What stands between blanks. -/
def words (s : List Char) : List (List Char) := (s.splitOnP isBlank).filter (· ≠ [])

/-- A text without blanks stays on its line. -/
theorem unbroken_of_shown {s : List Char} (shown : ∀ c ∈ s, isBlank c = false) : '\n' ∉ s := fun member =>
  absurd (shown _ member) (by decide)

/-- A text without blanks is one word. -/
theorem words_eq {word : List Char} (shown : ∀ c ∈ word, isBlank c = false) (nonempty : word ≠ []) :
    words word = [word] := by
  rw [words, List.splitOnP_eq_singleton shown]
  exact List.filter_cons_of_pos (decide_eq_true nonempty)

/-- A blank parts the words. -/
theorem words_append_blank (front : List Char) {blank : Char} (parts : isBlank blank = true) (rest : List Char) :
    words (front ++ blank :: rest) = words front ++ words rest := by
  rw [words, List.splitOnP_append_cons front rest parts, List.filter_append]
  rfl

/-! ### Numbers -/

/-- The number that is written in digits. -/
def number? (digits : List Char) : Option Nat :=
  if digits ≠ [] ∧ digits.all isDigit = true then some (ofDigits digits) else none

theorem isDigit_toString (n : Nat) : ∀ c ∈ (toString n).toList, isDigit c = true := by
  intro c member
  rw [Nat.toString_eq_repr, Nat.toList_repr] at member
  have digit := Nat.isDigit_of_mem_toDigits (by decide) (by decide) member
  simpa [isDigit, Char.isDigit, Char.le_def] using digit

theorem toString_nonempty (n : Nat) : (toString n).toList ≠ [] := by
  rw [Nat.toString_eq_repr, Nat.toList_repr]
  exact Nat.toDigits_ne_nil

theorem number?_toString (n : Nat) : number? (toString n).toList = some n := by
  have written : (toString n).toList = Nat.toDigits 10 n := by rw [Nat.toString_eq_repr, Nat.toList_repr]
  have read : ofDigits (Nat.toDigits 10 n) = Nat.ofDigitChars 10 (Nat.toDigits 10 n) 0 := by
    rw [ofDigits, Nat.ofDigitChars_eq_foldl]
    simp only [Nat.mul_comm 10]
  have digits : (toString n).toList ≠ [] ∧ (toString n).toList.all isDigit = true :=
    ⟨toString_nonempty n, List.all_eq_true.mpr (isDigit_toString n)⟩
  rw [number?, if_pos digits, written, read, Nat.ofDigitChars_ten_toDigits]

end RelayRamp.Text
