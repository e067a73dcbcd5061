import Mathlib.Logic.Basic
import RelayRamp.Text.Blank

/-!
# Finding a word in a text

Where a word occurs, how often, and where a search comes upon it first. The words that are looked for begin with a
character that does not come again in them, so two occurrences never overlap and nothing that stands beside an
occurrence can make another one with a part of it.
-/
namespace RelayRamp.Text

/-- The number of places at which the word begins. -/
def occurrences (word : List Char) : List Char → Nat
  | [] => 0
  | c :: rest => (if word <+: c :: rest then 1 else 0) + occurrences word rest

/-- The first character of the word does not come again. -/
def Headed (word : List Char) : Prop := ∃ first rest, word = first :: rest ∧ first ∉ rest

variable {word s before after : List Char} {c : Char}

@[simp] theorem occurrences_nil : occurrences word [] = 0 := rfl

theorem occurrences_cons :
    occurrences word (c :: s) = (if word <+: c :: s then 1 else 0) + occurrences word s := rfl

theorem Headed.nonempty (headed : Headed word) : word ≠ [] := by
  obtain ⟨first, rest, rfl, -⟩ := headed
  nofun

/-- A prefix without a character ends before that character. -/
theorem prefix_append_cons_iff (absent : c ∉ word) : word <+: before ++ c :: after ↔ word <+: before := by
  induction word generalizing before with
  | nil => simp
  | cons d word ih =>
    obtain ⟨other, absent⟩ := not_or.mp (mt List.mem_cons.mpr absent)
    cases before with
    | nil => simp [Ne.symm other]
    | cons e before => rw [List.cons_append, List.cons_prefix_cons, List.cons_prefix_cons, ih absent]

theorem occurrences_eq_zero_iff (some : word ≠ []) : occurrences word s = 0 ↔ ¬ word <:+: s := by
  induction s with
  | nil => simp [some]
  | cons c rest ih =>
    rw [occurrences_cons, Nat.add_eq_zero_iff, ih, List.infix_cons_iff, not_or]
    simp

/-- A character that is not in the word parts its occurrences. -/
theorem occurrences_append_cons (some : word ≠ []) (absent : c ∉ word) :
    occurrences word (before ++ c :: after) = occurrences word before + occurrences word after := by
  have none {after : List Char} : ¬ word <+: c :: after := fun starts =>
    some (List.prefix_nil.mp ((prefix_append_cons_iff absent).mp (show word <+: [] ++ c :: after from starts)))
  induction before with
  | nil => rw [List.nil_append, occurrences_cons, if_neg none, occurrences_nil]
  | cons d before ih =>
    have same : word <+: d :: before ++ c :: after ↔ word <+: d :: before := prefix_append_cons_iff absent
    rw [List.cons_append] at same ⊢
    rw [occurrences_cons, occurrences_cons, ih, if_congr same rfl rfl, Nat.add_assoc]

theorem infix_append_cons_iff (some : word ≠ []) (absent : c ∉ word) :
    word <:+: before ++ c :: after ↔ word <:+: before ∨ word <:+: after := by
  rw [← not_iff_not, not_or, ← occurrences_eq_zero_iff some, ← occurrences_eq_zero_iff some,
    ← occurrences_eq_zero_iff some, occurrences_append_cons some absent, Nat.add_eq_zero_iff]

/-- No occurrence begins in a text that the first character is not in. -/
theorem occurrences_skip {first : Char} {rest front : List Char} (absent : first ∉ front) :
    occurrences (first :: rest) (front ++ s) = occurrences (first :: rest) s := by
  induction front with
  | nil => rfl
  | cons d front ih =>
    obtain ⟨other, absent⟩ := not_or.mp (mt List.mem_cons.mpr absent)
    rw [List.cons_append, occurrences_cons, ih absent, if_neg (fun starts => other (List.cons_prefix_cons.mp starts).1),
      Nat.zero_add]

theorem prefix_before {first : Char} {rest : List Char} (fresh : first ∉ rest) {d : Char} :
    first :: rest <+: d :: (before ++ (first :: rest ++ after)) ↔ first :: rest <+: d :: before := by
  rw [List.cons_prefix_cons, List.cons_prefix_cons, List.cons_append, prefix_append_cons_iff fresh]

/-- An occurrence is one more than those before it and after it. -/
theorem Headed.occurrences_append (headed : Headed word) (before after : List Char) :
    occurrences word (before ++ (word ++ after)) = occurrences word before + 1 + occurrences word after := by
  obtain ⟨first, rest, rfl, fresh⟩ := headed
  induction before with
  | nil =>
    have here : first :: rest <+: first :: (rest ++ after) := List.prefix_append (first :: rest) after
    rw [List.nil_append, List.cons_append, occurrences_cons, occurrences_skip fresh, if_pos here, occurrences_nil]
  | cons d before ih =>
    rw [List.cons_append, occurrences_cons, occurrences_cons, ih, if_congr (prefix_before fresh) rfl rfl]
    omega

/-- Where a word occurs at all, it occurs first. -/
theorem first_of_infix (some : word ≠ []) (inside : word <:+: s) :
    ∃ before after, s = before ++ (word ++ after) ∧ ¬ word <:+: before := by
  induction s with
  | nil => exact absurd (List.infix_nil.mp inside) some
  | cons c rest ih =>
    by_cases starts : word <+: c :: rest
    · obtain ⟨after, same⟩ := starts
      exact ⟨[], after, same.symm, fun inside => some (List.infix_nil.mp inside)⟩
    · obtain ⟨before, after, rfl, absent⟩ := ih ((List.infix_cons_iff.mp inside).resolve_left starts)
      refine ⟨c :: before, after, rfl, fun inside => ?_⟩
      rcases List.infix_cons_iff.mp inside with starts' | inside
      · exact starts (starts'.trans (List.prefix_append (c :: before) (word ++ after)))
      · exact absent inside

/-! ### Searching -/

theorem findWord_none (some : word ≠ []) (absent : ¬ word <:+: s) (n : Nat) : findWord word n s = none := by
  induction s generalizing n with
  | nil => simp [findWord, some]
  | cons c rest ih =>
    rw [List.infix_cons_iff, not_or] at absent
    rw [findWord, if_neg (mt List.isPrefixOf_iff_prefix.mp absent.1), ih absent.2]

/-- The search comes upon the first occurrence. -/
theorem Headed.findWord_first (headed : Headed word) (absent : ¬ word <:+: before) (after : List Char) (n : Nat) :
    findWord word n (before ++ (word ++ after)) = some (n + before.length) := by
  obtain ⟨first, rest, rfl, fresh⟩ := headed
  induction before generalizing n with
  | nil =>
    have here : (first :: rest).isPrefixOf (first :: (rest ++ after)) = true :=
      List.isPrefixOf_iff_prefix.mpr (List.prefix_append (first :: rest) after)
    rw [List.nil_append, List.cons_append, findWord, if_pos here]
    rfl
  | cons d before ih =>
    rw [List.infix_cons_iff, not_or] at absent
    have other : ¬ (first :: rest).isPrefixOf (d :: (before ++ (first :: rest ++ after))) = true := by
      rw [List.isPrefixOf_iff_prefix, prefix_before fresh]
      exact absent.1
    rw [List.cons_append, findWord, if_neg other, ih (n + 1) absent.2, List.length_cons, Nat.add_assoc, Nat.add_comm 1]

theorem splitAround_none (some : word ≠ []) (absent : ¬ word <:+: s) : splitAround word s = none := by
  rw [splitAround, findWord_none some absent, Option.map_none]

theorem Headed.splitAround_first (headed : Headed word) (absent : ¬ word <:+: before) (after : List Char) :
    splitAround word (before ++ (word ++ after)) = some (before, after) := by
  rw [splitAround, headed.findWord_first absent, Option.map_some, Nat.zero_add, List.take_left, ← List.append_assoc,
    ← List.length_append, List.drop_left]

end RelayRamp.Text
