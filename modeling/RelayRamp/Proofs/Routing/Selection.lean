import RelayRamp.Proofs.Routing.Rosters
import RelayRamp.Proofs.Routing.Patterns
import RelayRamp.Proofs.Text.Lines

/-!
# Which rule wins

A suffix pattern matches the domains of which its parent is a proper parent: the labels decide, not the characters. The
patterns that match a domain can so be put in a line, from the domain itself by its parents, the longest first, to the
catch-all. Of the rules that match, a matcher picks one whose pattern comes first in this line.
-/
namespace RelayRamp.Routing

open RelayRamp.Store RelayRamp.Text

/-! ### Parent domains -/

/-- The proper parent domains, the longest first: the labels from some label on, but not from the first. -/
def parentChars (domain : List Char) : List (List Char) :=
  ((splitOn '.' domain).tail.tails.filter (· ≠ [])).map ['.'].intercalate

theorem parentChars_dot (rest : List Char) : parentChars ('.' :: rest) = rest :: parentChars rest := by
  have labels : splitOn '.' ('.' :: rest) = [] :: splitOn '.' rest := by
    rw [splitOn, if_pos rfl]
  have joined := intercalate_splitOn '.' rest
  rw [parentChars, labels, parentChars]
  cases parts : splitOn '.' rest with
  | nil => exact absurd parts (splitOn_ne_nil _ _)
  | cons part parts' =>
    rw [parts] at joined
    simp [joined]

theorem parentChars_letter {c : Char} (letter : c ≠ '.') (rest : List Char) :
    parentChars (c :: rest) = parentChars rest := by
  rw [parentChars, splitOn, if_neg letter, parentChars]
  cases parts : splitOn '.' rest with
  | nil => exact absurd parts (splitOn_ne_nil _ _)
  | cons part parts' => rfl

/-- The parents are what stands behind the dots. -/
theorem mem_parentChars {parent domain : List Char} : parent ∈ parentChars domain ↔ '.' :: parent <:+ domain := by
  induction domain with
  | nil => simp [parentChars, splitOn]
  | cons c rest ih =>
    by_cases dot : c = '.'
    · subst dot
      rw [parentChars_dot, List.mem_cons, ih, List.suffix_cons_iff, List.cons.injEq]
      simp
    · rw [parentChars_letter dot, ih, List.suffix_cons_iff, List.cons.injEq]
      simp [Ne.symm dot]

theorem parentChars_shorter (domain : List Char) :
    (parentChars domain).Pairwise fun longer shorter => '.' :: shorter <:+ longer := by
  induction domain with
  | nil => simp [parentChars, splitOn]
  | cons c rest ih =>
    by_cases dot : c = '.'
    · subst dot
      rw [parentChars_dot]
      exact List.pairwise_cons.mpr ⟨fun shorter member => mem_parentChars.mp member, ih⟩
    · rwa [parentChars_letter dot]

/-- The proper parent domains, the longest first. -/
def parents (domain : String) : List String := (parentChars domain.toList).map String.ofList

theorem IsNormal.undotted_head {s : List Char} (h : IsNormal s) (rest : List Char) : s ≠ '.' :: rest := by
  rintro rfl
  have empty : isLabel [] = true := h.labels [] (by simp [splitOn])
  cases empty

namespace DomainPattern

/-- A suffix pattern matches the domains that end with a dot and its parent. -/
theorem isMatch_suffix_iff {parent domain : String} (normal : IsNormal domain.toList) :
    (suffix parent).isMatch domain = true ↔ '.' :: parent.toList <:+ domain.toList := by
  simp only [isMatch, Bool.and_eq_true, decide_eq_true_eq, List.isSuffixOf_iff_suffix]
  refine ⟨And.right, fun below => ⟨?_, below⟩⟩
  -- A domain does not begin with a dot, so something stands before the suffix.
  refine Nat.lt_of_le_of_ne below.length_le fun same => ?_
  exact normal.undotted_head _ (below.eq_of_length same).symm

/-- A suffix pattern matches the domains below its parent. -/
theorem isMatch_suffix {parent domain : String} (normal : IsNormal domain.toList) :
    (suffix parent).isMatch domain = true ↔ parent ∈ parents domain := by
  rw [isMatch_suffix_iff normal, ← mem_parentChars, parents, List.mem_map]
  constructor
  · exact fun inside => ⟨_, inside, String.ofList_toList⟩
  · rintro ⟨chars, inside, rfl⟩
    rwa [String.toList_ofList]

theorem parse_normal {raw : String} {pattern : DomainPattern} (parsed : parse raw = .ok pattern) : pattern.OfNormal := by
  unfold parse at parsed
  cases read : ofChars? raw.toList with
  | error fault =>
    rw [read] at parsed
    cases parsed
  | ok found =>
    rw [read] at parsed
    cases parsed
    exact ofChars?_normal read

end DomainPattern

namespace TransportName

variable {name : TransportName}

theorem validate_chars (name : TransportName) (valid : name.validate = .ok ()) :
    ∀ c ∈ name.text.toList, isNameChar c = true := by
  unfold validate at valid
  split at valid
  · cases valid
  · split at valid
    · cases valid
    · rename_i letters
      simpa using letters

/-- Letters, digits, `-` and `_` are the characters of labels, too. -/
theorem isNameChar_bounds {c : Char} (letter : isNameChar c = true) : 45 ≤ c.toNat ∧ c.toNat ≤ 122 := by
  refine isLabelChar_bounds ?_
  simp only [isNameChar, isLabelChar, Bool.or_eq_true] at letter ⊢
  exact letter.elim (fun left => left.elim (fun plain => Or.inl (Or.inl plain)) Or.inr) fun dash => Or.inl (Or.inr dash)

theorem validate_shown (valid : name.validate = .ok ()) : ∀ c ∈ name.text.toList, isBlank c = false := by
  intro c member
  have bounds := isNameChar_bounds (name.validate_chars valid c member)
  exact isBlank_eq_false (Nat.le_trans (by decide) bounds.1) (Nat.le_trans bounds.2 (by decide))

theorem validate_nonempty (valid : name.validate = .ok ()) : name.text.toList ≠ [] := by
  intro empty
  have none : name.text = "" := String.toList_eq_nil_iff.mp empty
  rw [validate, none] at valid
  cases valid

end TransportName

/-! ### The rule of a route -/

theorem CompiledRule.precedes_trans (a b c : CompiledRule) (first : a.precedes b = true) (next : b.precedes c = true) :
    a.precedes c = true := by
  simp only [precedes, Bool.or_eq_true, Bool.and_eq_true, decide_eq_true_eq, beq_iff_eq] at *
  omega

theorem CompiledRule.precedes_total (a b : CompiledRule) : (a.precedes b || b.precedes a) = true := by
  simp only [precedes, Bool.or_eq_true, Bool.and_eq_true, decide_eq_true_eq, beq_iff_eq]
  omega

namespace Matcher

theorem compile_eq_ok {rule : TransportRule} {hit : CompiledRule} : compile rule = .ok hit ↔
    ∃ pattern, rule.parsedPattern = .ok pattern ∧ hit = ⟨rule.id, pattern, rule.transport⟩ := by
  constructor
  · intro compiled
    obtain ⟨pattern, parsed, same⟩ := ok_of_bind compiled
    exact ⟨pattern, parsed, (Except.ok.inj same).symm⟩
  · rintro ⟨pattern, parsed, rfl⟩
    rw [compile, parsed]
    rfl

variable {rules : List TransportRule} {fallback : DefaultTransport} {m : Matcher}

/-- The rules of a matcher are the active ones. -/
theorem mem_rules (built : build rules fallback = .ok m) (hit : CompiledRule) :
    hit ∈ m.rules ↔ ∃ rule ∈ rules.filter (·.isActive), ∃ pattern, rule.parsedPattern = .ok pattern ∧
      hit = ⟨rule.id, pattern, rule.transport⟩ := by
  obtain ⟨⟨⟩, -, built⟩ := ok_of_bind built
  obtain ⟨compiled, read, built⟩ := ok_of_bind built
  cases built
  rw [List.mem_mergeSort, mem_of_mapM read]
  simp only [compile_eq_ok]

theorem rules_sorted (built : build rules fallback = .ok m) : m.rules.Pairwise fun a b => a.precedes b = true := by
  obtain ⟨⟨⟩, -, built⟩ := ok_of_bind built
  obtain ⟨compiled, -, built⟩ := ok_of_bind built
  cases built
  exact List.pairwise_mergeSort CompiledRule.precedes_trans CompiledRule.precedes_total compiled

theorem fallback_name (built : build rules fallback = .ok m) : m.fallback = fallback.name := by
  obtain ⟨⟨⟩, -, built⟩ := ok_of_bind built
  obtain ⟨compiled, -, built⟩ := ok_of_bind built
  cases built
  rfl

/-- No rule that matches has a longer literal part than the one that is picked. -/
theorem longest_match (built : build rules fallback = .ok m) {domain : String} {hit other : CompiledRule}
    (found : m.rules.find? (·.pattern.isMatch domain) = some hit) (member : other ∈ m.rules)
    (matched : other.pattern.isMatch domain = true) : other.pattern.literalLength ≤ hit.pattern.literalLength := by
  obtain ⟨-, before, after, split, missed⟩ := List.find?_eq_some_iff_append.mp found
  have sorted := rules_sorted built
  rw [split] at sorted member
  rcases List.mem_append.mp member with earlier | later
  · have not_matched := missed other earlier
    rw [matched] at not_matched
    cases not_matched
  · rcases List.mem_cons.mp later with rfl | later
    · exact Nat.le_refl _
    · have precedes := List.rel_of_pairwise_cons (List.pairwise_append.mp sorted).2.1 later
      simp only [CompiledRule.precedes, Bool.or_eq_true, Bool.and_eq_true, decide_eq_true_eq, beq_iff_eq] at precedes
      omega

end Matcher

end RelayRamp.Routing
