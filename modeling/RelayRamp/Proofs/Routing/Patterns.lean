import RelayRamp.Routing.Pattern

/-!
# Canonical text

The normal form of a domain is its own normal form, and the canonical text of a pattern reads back as the pattern.
-/
namespace RelayRamp.Text

theorem trimWhile_eq_self {p : Char → Bool} {s : List Char} (plain : ∀ c ∈ s, p c = false) : trimWhile p s = s := by
  have kept {s : List Char} (plain : ∀ c ∈ s, p c = false) : s.dropWhile p = s := by
    cases s with
    | nil => rfl
    | cons c rest => rw [List.dropWhile_cons, plain c (List.mem_cons_self ..)]; rfl
  rw [trimWhile, dropEndWhile, kept plain, kept fun c member => plain c (List.mem_reverse.mp member),
    List.reverse_reverse]

theorem splitOn_ne_nil (separator : Char) (s : List Char) : splitOn separator s ≠ [] := by
  cases s with
  | nil => nofun
  | cons c rest =>
    rw [splitOn]
    split
    · nofun
    · split
      · nofun
      · nofun

/-- Every character is a separator or in a part. -/
theorem mem_splitOn (separator : Char) {c : Char} {s : List Char} (member : c ∈ s) :
    c = separator ∨ ∃ part ∈ splitOn separator s, c ∈ part := by
  induction s with
  | nil => cases member
  | cons d rest ih =>
    rw [splitOn]
    split
    · rename_i same
      rcases List.mem_cons.mp member with rfl | member
      · exact Or.inl same
      · refine (ih member).imp_right fun ⟨part, present, inside⟩ => ?_
        exact ⟨part, List.mem_cons_of_mem _ present, inside⟩
    · split
      · rename_i none
        exact absurd none (splitOn_ne_nil _ _)
      · rename_i first parts split
        rw [split] at ih
        rcases List.mem_cons.mp member with rfl | member
        · exact Or.inr ⟨_, List.mem_cons_self .., List.mem_cons_self ..⟩
        · refine (ih member).imp_right fun ⟨part, present, inside⟩ => ?_
          rcases List.mem_cons.mp present with rfl | present
          · exact ⟨_, List.mem_cons_self .., List.mem_cons_of_mem _ inside⟩
          · exact ⟨part, List.mem_cons_of_mem _ present, inside⟩

/-- A separator at the end makes one more part, an empty one. -/
theorem splitOn_append_separator (separator : Char) (s : List Char) :
    splitOn separator (s ++ [separator]) = splitOn separator s ++ [[]] := by
  induction s with
  | nil => simp [splitOn]
  | cons c rest ih =>
    rw [List.cons_append, splitOn, splitOn, ih]
    split
    · rfl
    · cases parts : splitOn separator rest with
      | nil => exact absurd parts (splitOn_ne_nil _ _)
      | cons part parts => rfl

theorem le_and_le_iff (a b c : Char) : (a ≤ c && c ≤ b) = true ↔ a.toNat ≤ c.toNat ∧ c.toNat ≤ b.toNat := by
  rw [Bool.and_eq_true, decide_eq_true_eq, decide_eq_true_eq]
  exact Iff.rfl

/-- Lower case has no upper-case letters. -/
theorem lowerAscii_idem (c : Char) : lowerAscii (lowerAscii c) = lowerAscii c := by
  by_cases upper : ('A' ≤ c && c ≤ 'Z') = true
  · have bounds : 65 ≤ c.toNat ∧ c.toNat ≤ 90 := (le_and_le_iff 'A' 'Z' c).mp upper
    have lower : (Char.ofNat (c.toNat + 32)).toNat = c.toNat + 32 := by
      have valid : (c.toNat + 32).isValidChar := Or.inl (by omega)
      rw [Char.ofNat, dif_pos valid]
      rfl
    have kept : ¬ ('A' ≤ Char.ofNat (c.toNat + 32) && Char.ofNat (c.toNat + 32) ≤ 'Z') = true := fun upper => by
      have bounds : 65 ≤ _ ∧ _ ≤ 90 := (le_and_le_iff 'A' 'Z' _).mp upper
      omega
    rw [show lowerAscii c = Char.ofNat (c.toNat + 32) from if_pos upper]
    exact if_neg kept
  · have kept : lowerAscii c = c := if_neg upper
    rw [kept, kept]

theorem isBlank_eq_false {c : Char} (above : 33 ≤ c.toNat) (below : c.toNat ≤ 132) : isBlank c = false := by
  simp only [isBlank, Bool.or_eq_false_iff, Bool.and_eq_false_iff, decide_eq_false_iff_not, beq_eq_false_iff_ne]
  omega

end RelayRamp.Text

namespace RelayRamp.Routing

open RelayRamp.Text

theorem isLabelChar_bounds {c : Char} (label : isLabelChar c = true) : 45 ≤ c.toNat ∧ c.toNat ≤ 122 := by
  simp only [isLabelChar, isAlphanumeric, Bool.or_eq_true, le_and_le_iff, beq_iff_eq] at label
  rcases label with (((⟨low, high⟩ | ⟨low, high⟩) | ⟨low, high⟩) | rfl) | rfl
  · exact ⟨Nat.le_trans (by decide) low, Nat.le_trans high (by decide)⟩
  · exact ⟨Nat.le_trans (by decide) low, Nat.le_trans high (by decide)⟩
  · exact ⟨Nat.le_trans (by decide) low, Nat.le_trans high (by decide)⟩
  · decide
  · decide

/-! ### Domains -/

/-- The text is the normal form of a domain. -/
structure IsNormal (s : List Char) : Prop where
  nonempty : s ≠ []
  length : s.length ≤ maxDomainLength
  labels : ∀ label ∈ splitOn '.' s, isLabel label = true
  lower : s.map lowerAscii = s

namespace IsNormal

variable {s : List Char}

/-- Every character is a dot, or a letter, a digit, `-` or `_`. -/
theorem bounds (h : IsNormal s) {c : Char} (member : c ∈ s) : 45 ≤ c.toNat ∧ c.toNat ≤ 122 := by
  rcases mem_splitOn '.' member with rfl | ⟨label, present, inside⟩
  · decide
  · have label := h.labels label present
    simp only [isLabel, Bool.and_eq_true, List.all_eq_true] at label
    exact isLabelChar_bounds (label.2 c inside)

theorem not_blank (h : IsNormal s) {c : Char} (member : c ∈ s) : isBlank c = false :=
  isBlank_eq_false (Nat.le_trans (by decide) (h.bounds member).1) (Nat.le_trans (h.bounds member).2 (by decide))

theorem not_star (h : IsNormal s) : '*' ∉ s := fun member => absurd (h.bounds member).1 (by decide)

theorem trimmed (h : IsNormal s) : trimChars s = s := trimWhile_eq_self fun _ => h.not_blank

/-- A last dot would make the last label empty. -/
theorem undotted (h : IsNormal s) : dropTrailingDot s = s := by
  refine if_neg fun last => ?_
  obtain ⟨front, rfl⟩ := List.getLast?_eq_some_iff.mp last
  have empty : isLabel [] = true := h.labels [] (by simp [splitOn_append_separator])
  cases empty

end IsNormal

theorem normalizeChars_eq_some {raw s : List Char} :
    normalizeChars raw = some s ↔ IsNormal s ∧ (dropTrailingDot (trimChars raw)).map lowerAscii = s := by
  simp only [normalizeChars]
  constructor
  · intro normal
    split at normal
    · cases normal
    · rename_i fits
      split at normal
      · rename_i labels
        obtain rfl := Option.some.inj normal
        simp only [Bool.or_eq_true, not_or, decide_eq_true_eq, Nat.not_lt, List.isEmpty_iff] at fits
        refine ⟨⟨fits.1, fits.2, fun label member => List.all_eq_true.mp labels label member, ?_⟩, rfl⟩
        rw [List.map_map]
        exact List.map_congr_left fun c _ => lowerAscii_idem c
      · cases normal
  · rintro ⟨h, rfl⟩
    have fits := And.intro h.nonempty h.length
    rw [if_neg (by simpa using fits), if_pos (List.all_eq_true.mpr h.labels)]

/-- The normal form of a domain is its own normal form. -/
theorem IsNormal.normalized {s : List Char} (h : IsNormal s) : normalizeChars s = some s := by
  rw [normalizeChars_eq_some, h.trimmed, h.undotted]
  exact ⟨h, h.lower⟩

/-! ### Patterns -/

namespace DomainPattern

/-- What a pattern that was read consists of. -/
inductive OfNormal : DomainPattern → Prop
  | catchAll : OfNormal .catchAll
  | suffix {parent : List Char} (normal : IsNormal parent) : OfNormal (.suffix (String.ofList parent))
  | exact {domain : List Char} (normal : IsNormal domain) : OfNormal (.exact (String.ofList domain))

theorem ofChars?_normal {raw : List Char} {pattern : DomainPattern} (read : ofChars? raw = .ok pattern) :
    pattern.OfNormal := by
  unfold ofChars? at read
  split at read
  · cases read
    exact .catchAll
  · split at read
    · rename_i normal
      cases read
      exact .suffix (normalizeChars_eq_some.mp normal).1
    · cases read
  · split at read
    · cases read
    · split at read
      · rename_i normal
        cases read
        exact .exact (normalizeChars_eq_some.mp normal).1
      · cases read

theorem OfNormal.ofChars?_canonical {pattern : DomainPattern} (h : pattern.OfNormal) :
    ofChars? pattern.canonical.toList = .ok pattern := by
  cases h with
  | catchAll => rfl
  | @suffix parent normal =>
    have text : (DomainPattern.suffix (String.ofList parent)).canonical.toList = '*' :: '.' :: parent := by
      simp [canonical]
    have trimmed : trimChars ('*' :: '.' :: parent) = '*' :: '.' :: parent := trimWhile_eq_self fun c member => by
      rcases List.mem_cons.mp member with rfl | member
      · decide
      · rcases List.mem_cons.mp member with rfl | member
        · decide
        · exact normal.not_blank member
    simp only [ofChars?, text, trimmed, normal.normalized]
  | @exact domain normal =>
    have star := normal.not_star
    simp only [ofChars?, canonical, String.toList_ofList, normal.trimmed]
    split
    · simp at star
    · simp at star
    · rw [if_neg (by simpa using star), normal.normalized]

/-- The canonical text of a pattern reads back as the pattern. -/
theorem parse_canonical {raw : String} {pattern : DomainPattern} (parsed : parse raw = .ok pattern) :
    parse pattern.canonical = .ok pattern := by
  unfold parse at parsed ⊢
  cases read : ofChars? raw.toList with
  | error fault =>
    rw [read] at parsed
    cases parsed
  | ok found =>
    rw [read] at parsed
    cases parsed
    rw [(ofChars?_normal read).ofChars?_canonical]
    rfl

end DomainPattern

end RelayRamp.Routing
