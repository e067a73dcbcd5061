import Mathlib.Data.List.TakeWhile
import Mathlib.Data.String.Basic
import RelayRamp.Proofs.Routing.Selection
import RelayRamp.Proofs.Store.Rules

/-!
# Canonical domains and patterns

A domain can be read from a text exactly when that is a well-formed domain between blanks, in letters of any case and with
or without a dot after it; what is read is the domain in lower case, and reading it again changes nothing. Patterns
are equal exactly when their canonical texts are, so looking for a text among those of validated rules is looking for
a pattern.
-/
namespace RelayRamp.Text

variable {p : Char → Bool} {before s after : List Char}

/-- Dropping stops at the first character that is not of the class. -/
theorem dropWhile_before (dropped : ∀ c ∈ before, p c = true) (first : ∀ c, s.head? = some c → p c = false) :
    (before ++ s).dropWhile p = s := by
  rw [List.dropWhile_append_of_pos dropped]
  cases s with
  | nil => rfl
  | cons c rest => simp [first c rfl]

/-- A text that neither begins nor ends with a character of the class is what trimming leaves of it. -/
theorem trimWhile_between (leading : ∀ c ∈ before, p c = true) (trailing : ∀ c ∈ after, p c = true)
    (nonempty : s ≠ []) (first : ∀ c, s.head? = some c → p c = false) (last : ∀ c, s.getLast? = some c → p c = false) :
    trimWhile p (before ++ s ++ after) = s := by
  have front : (before ++ s ++ after).dropWhile p = s ++ after := by
    rw [List.append_assoc]
    apply dropWhile_before leading
    rw [List.head?_append_of_ne_nil _ nonempty]
    exact first
  have back : (s ++ after).reverse.dropWhile p = s.reverse := by
    rw [List.reverse_append]
    apply dropWhile_before
    · simpa using trailing
    · simpa using last
  rw [trimWhile, dropEndWhile, front, back, List.reverse_reverse]

/-- Trimming takes away characters of the class at the two ends and nothing else. -/
theorem trimWhile_parts (p : Char → Bool) (s : List Char) : ∃ before after,
    s = before ++ trimWhile p s ++ after ∧ (∀ c ∈ before, p c = true) ∧ ∀ c ∈ after, p c = true := by
  refine ⟨s.takeWhile p, ((s.dropWhile p).reverse.takeWhile p).reverse, ?_, ?_, ?_⟩
  · have back := congrArg List.reverse (List.takeWhile_append_dropWhile (p := p) (l := (s.dropWhile p).reverse))
    rw [List.reverse_append, List.reverse_reverse] at back
    rw [List.append_assoc, trimWhile, dropEndWhile, back, List.takeWhile_append_dropWhile]
  · intro c member
    exact List.mem_takeWhile_imp member
  · intro c member
    exact List.mem_takeWhile_imp (List.mem_reverse.mp member)

/-! ### Lower case -/

/-- Only the 26 capital letters change. -/
theorem lowerAscii_cases (c : Char) :
    ¬ (65 ≤ c.toNat ∧ c.toNat ≤ 90) ∧ lowerAscii c = c ∨
      (65 ≤ c.toNat ∧ c.toNat ≤ 90) ∧ (lowerAscii c).toNat = c.toNat + 32 := by
  have bounds : ('A' ≤ c && c ≤ 'Z') = true ↔ 65 ≤ c.toNat ∧ c.toNat ≤ 90 := le_and_le_iff 'A' 'Z' c
  unfold lowerAscii
  by_cases capital : 65 ≤ c.toNat ∧ c.toNat ≤ 90
  · right
    have valid : (c.toNat + 32).isValidChar := Or.inl (by omega)
    rw [if_pos (bounds.mpr capital), Char.ofNat, dif_pos valid]
    exact ⟨capital, rfl⟩
  · left
    rw [if_neg (mt bounds.mp capital)]
    exact ⟨capital, rfl⟩

theorem lowerAscii_eq_toLower (c : Char) : lowerAscii c = c.toLower := by
  apply Char.toNat_inj.mp
  have bounds : (c.val ≥ 'A'.val ∧ c.val ≤ 'Z'.val) ↔ 65 ≤ c.toNat ∧ c.toNat ≤ 90 := Iff.rfl
  unfold Char.toLower
  rcases lowerAscii_cases c with ⟨plain, same⟩ | ⟨capital, shifted⟩
  · rw [same, dif_neg (mt bounds.mp plain)]
  · rw [shifted, dif_pos (bounds.mpr capital)]
    have step : ('a'.val - 'A'.val).toNat = 32 := by decide
    simp only [Char.toNat, UInt32.toNat_add, step] at capital ⊢
    omega

theorem lowerAscii_plain (c : Char) : (lowerAscii c).isUpper = false := by
  have bounds : (lowerAscii c).isUpper = true ↔ 65 ≤ (lowerAscii c).toNat ∧ (lowerAscii c).toNat ≤ 90 :=
    decide_eq_true_iff
  apply Bool.eq_false_iff.mpr
  intro upper
  have capital := bounds.mp upper
  rcases lowerAscii_cases c with ⟨plain, same⟩ | ⟨was, shifted⟩
  · rw [same] at capital
    exact plain capital
  · omega

/-- What stands before the letters is where it was. -/
theorem lowerAscii_eq_iff {c d : Char} (sign : d.toNat < 65) : lowerAscii c = d ↔ c = d := by
  rcases lowerAscii_cases c with ⟨-, same⟩ | ⟨capital, shifted⟩
  · rw [same]
  · constructor
    · rintro rfl
      omega
    · rintro rfl
      omega

/-- An ASCII character is one octet. -/
theorem octets_ascii {s : List Char} (ascii : ∀ c ∈ s, c.toNat ≤ 127) : octets (String.ofList s) = s.length := by
  rw [octets, String.utf8ByteSize_ofList]
  induction s with
  | nil => rfl
  | cons c rest ih =>
    obtain ⟨first, others⟩ := List.forall_mem_cons.mp ascii
    have size : c.utf8Size = 1 := Char.utf8Size_eq_one_iff.mpr first
    rw [String.utf8Len_cons, ih others, size, List.length_cons]

theorem splitOn_map_lowerAscii (s : List Char) :
    splitOn '.' (s.map lowerAscii) = (splitOn '.' s).map (List.map lowerAscii) := by
  induction s with
  | nil => rfl
  | cons c rest ih =>
    rw [List.map_cons, splitOn, splitOn, ih]
    by_cases dot : c = '.'
    · rw [if_pos dot, if_pos ((lowerAscii_eq_iff (by decide)).mpr dot)]
      rfl
    · rw [if_neg dot, if_neg (mt (lowerAscii_eq_iff (by decide)).mp dot)]
      cases splitOn '.' rest with
      | nil => rfl
      | cons part parts => rfl

end RelayRamp.Text

namespace RelayRamp.Routing

open RelayRamp.Store RelayRamp.Text

/-! ### Well-formed domains -/

/-- Has 1 to 63 ASCII letters, digits, `-` or `_` and neither begins nor ends with `-`. -/
structure WellFormedLabel (label : List Char) : Prop where
  nonempty : 1 ≤ label.length
  length : label.length ≤ 63
  letters : ∀ c ∈ label, c.isAlphanum = true ∨ c = '-' ∨ c = '_'
  first : label.head? ≠ some '-'
  last : label.getLast? ≠ some '-'

/-- Has 1 to 253 octets, which are well-formed labels with dots between them. -/
structure WellFormedDomain (text : List Char) : Prop where
  nonempty : 1 ≤ octets (String.ofList text)
  length : octets (String.ofList text) ≤ 253
  labels : ∃ labels : List (List Char), text = ['.'].intercalate labels ∧ ∀ label ∈ labels, WellFormedLabel label

theorem isLabelChar_iff (c : Char) : isLabelChar c = true ↔ c.isAlphanum = true ∨ c = '-' ∨ c = '_' := by
  have letter : isAlphanumeric c = c.isAlphanum := by
    have lower : c.isLower = ('a' ≤ c && c ≤ 'z') := rfl
    have upper : c.isUpper = decide ('A' ≤ c ∧ c ≤ 'Z') := rfl
    have digit : c.isDigit = ('0' ≤ c && c ≤ '9') := rfl
    have alpha : c.isAlphanum = ((c.isUpper || c.isLower) || c.isDigit) := rfl
    rw [isAlphanumeric, alpha, lower, upper, digit, Bool.decide_and, Bool.or_comm (_ && _) (_ && _)]
  simp [isLabelChar, letter, or_assoc]

theorem isLabel_iff (label : List Char) : isLabel label = true ↔ WellFormedLabel label := by
  simp only [isLabel, Bool.and_eq_true, Bool.not_eq_true', List.isEmpty_eq_false_iff, decide_eq_true_eq, bne_iff_ne,
    List.all_eq_true, isLabelChar_iff]
  constructor
  · rintro ⟨⟨⟨⟨nonempty, length⟩, first⟩, last⟩, letters⟩
    exact ⟨List.length_pos_iff.mpr nonempty, length, letters, first, last⟩
  · intro h
    exact ⟨⟨⟨⟨List.length_pos_iff.mp h.nonempty, h.length⟩, h.first⟩, h.last⟩, h.letters⟩

namespace WellFormedLabel

variable {label : List Char}

theorem isLabelChar (h : WellFormedLabel label) : ∀ c ∈ label, isLabelChar c = true :=
  fun c member => (isLabelChar_iff c).mpr (h.letters c member)

theorem undotted (h : WellFormedLabel label) : '.' ∉ label := fun member =>
  absurd (h.isLabelChar '.' member) (by decide)

end WellFormedLabel

/-- Lowering the case of a label leaves it a label, and of no other text makes one. -/
theorem isLabelChar_lowerAscii (c : Char) : isLabelChar (lowerAscii c) = isLabelChar c := by
  rcases lowerAscii_cases c with ⟨-, same⟩ | ⟨capital, shifted⟩
  · rw [same]
  · have lowered : isAlphanumeric (lowerAscii c) = true := by
      simp only [isAlphanumeric, Bool.or_eq_true, le_and_le_iff, shifted]
      exact Or.inl (Or.inl ⟨by simpa using capital.1, by simpa using capital.2⟩)
    have letter : isAlphanumeric c = true := by
      simp only [isAlphanumeric, Bool.or_eq_true, le_and_le_iff]
      exact Or.inl (Or.inr capital)
    simp [isLabelChar, lowered, letter]

theorem isLabel_map_lowerAscii (label : List Char) : isLabel (label.map lowerAscii) = isLabel label := by
  have dash (o : Option Char) : o.map lowerAscii = some '-' ↔ o = some '-' := by
    cases o with
    | none => simp
    | some c => simp [lowerAscii_eq_iff (show '-'.toNat < 65 by decide)]
  have letters : isLabelChar ∘ lowerAscii = isLabelChar := funext isLabelChar_lowerAscii
  rw [Bool.eq_iff_iff]
  simp [isLabel, dash, letters, List.all_map, -List.all_eq_true]

theorem ascii_of_labels {text : List Char} (labels : ∀ label ∈ splitOn '.' text, isLabel label = true) :
    ∀ c ∈ text, c.toNat ≤ 127 := by
  intro c member
  rcases mem_splitOn '.' member with rfl | ⟨label, present, inside⟩
  · decide
  · have bounds := isLabelChar_bounds (((isLabel_iff label).mp (labels label present)).isLabelChar c inside)
    omega

/-- The octets of a text of labels are its characters. -/
theorem wellFormedDomain_iff {text : List Char} : WellFormedDomain text ↔
    text ≠ [] ∧ text.length ≤ maxDomainLength ∧ ∀ label ∈ splitOn '.' text, isLabel label = true := by
  constructor
  · rintro ⟨nonempty, length, parts, rfl, wellFormed⟩
    have filled : parts ≠ [] := by
      rintro rfl
      exact absurd nonempty (by decide)
    have split : splitOn '.' (['.'].intercalate parts) = parts := by
      rw [splitOn_eq]
      exact List.splitOn_intercalate '.' (fun label member => (wellFormed label member).undotted) filled
    have labels : ∀ label ∈ splitOn '.' (['.'].intercalate parts), isLabel label = true := by
      rw [split]
      exact fun label member => (isLabel_iff label).mpr (wellFormed label member)
    rw [octets_ascii (ascii_of_labels labels)] at nonempty length
    exact ⟨List.length_pos_iff.mp nonempty, length, labels⟩
  · rintro ⟨nonempty, length, labels⟩
    have size := octets_ascii (ascii_of_labels labels)
    constructor
    · exact size ▸ List.length_pos_iff.mpr nonempty
    · exact size ▸ length
    · exact ⟨splitOn '.' text, (intercalate_splitOn '.' text).symm,
        fun label member => (isLabel_iff label).mp (labels label member)⟩

theorem isNormal_map_lowerAscii {text : List Char} : IsNormal (text.map lowerAscii) ↔ WellFormedDomain text := by
  rw [wellFormedDomain_iff]
  have same : (∀ label ∈ splitOn '.' (text.map lowerAscii), isLabel label = true) ↔
      ∀ label ∈ splitOn '.' text, isLabel label = true := by
    simp [splitOn_map_lowerAscii, isLabel_map_lowerAscii]
  constructor
  · intro h
    refine ⟨?_, ?_, same.mp h.labels⟩
    · exact fun empty => h.nonempty (by simp [empty])
    · simpa using h.length
  · rintro ⟨nonempty, length, labels⟩
    constructor
    · simpa using nonempty
    · simpa using length
    · exact same.mpr labels
    · simp [Function.comp_def, lowerAscii_idem]

/-! ### Reading a domain -/

namespace WellFormedDomain

variable {text : List Char}

theorem bounds (h : WellFormedDomain text) {c : Char} (member : c ∈ text) : 45 ≤ c.toNat ∧ c.toNat ≤ 122 := by
  rcases mem_splitOn '.' member with rfl | ⟨label, present, inside⟩
  · decide
  · have label := (isLabel_iff label).mp ((wellFormedDomain_iff.mp h).2.2 label present)
    exact isLabelChar_bounds (label.isLabelChar c inside)

theorem not_blank (h : WellFormedDomain text) {c : Char} (member : c ∈ text) : isBlank c = false := by
  have bounds := h.bounds member
  apply isBlank_eq_false
  · omega
  · omega

theorem nonempty_list (h : WellFormedDomain text) : text ≠ [] := (wellFormedDomain_iff.mp h).1

/-- A last dot would make the last label empty. -/
theorem undotted (h : WellFormedDomain text) : text.getLast? ≠ some '.' := by
  intro last
  obtain ⟨front, rfl⟩ := List.getLast?_eq_some_iff.mp last
  have empty : isLabel [] = true := (wellFormedDomain_iff.mp h).2.2 [] (by simp [splitOn_append_separator])
  cases empty

/-- What is around a well-formed domain is taken away, if it is a dot and blanks. -/
theorem trimmed {before dot after : List Char} (h : WellFormedDomain text) (leading : ∀ c ∈ before, isBlank c = true)
    (trailing : ∀ c ∈ after, isBlank c = true) (ending : dot = [] ∨ dot = ['.']) :
    dropTrailingDot (trimChars (before ++ text ++ dot ++ after)) = text := by
  have shown : ∀ c ∈ text ++ dot, isBlank c = false := by
    intro c member
    rcases List.mem_append.mp member with inside | final
    · exact h.not_blank inside
    · rcases ending with rfl | rfl
      · cases final
      · obtain rfl := List.mem_singleton.mp final
        decide
  have kept : trimChars (before ++ (text ++ dot) ++ after) = text ++ dot := by
    apply trimWhile_between leading trailing
    · simp [h.nonempty_list]
    · exact fun c first => shown c (List.mem_of_mem_head? first)
    · exact fun c last => shown c (List.mem_of_getLast? last)
  rw [List.append_assoc before, kept]
  rcases ending with rfl | rfl
  · rw [List.append_nil, dropTrailingDot, if_neg h.undotted]
  · rw [dropTrailingDot, if_pos List.getLast?_concat, List.dropLast_concat]

end WellFormedDomain

theorem dropTrailingDot_parts (s : List Char) :
    ∃ dot, s = dropTrailingDot s ++ dot ∧ (dot = [] ∨ dot = ['.']) := by
  unfold dropTrailingDot
  split
  · rename_i last
    obtain ⟨front, rfl⟩ := List.getLast?_eq_some_iff.mp last
    exact ⟨['.'], by simp, Or.inr rfl⟩
  · exact ⟨[], by simp, Or.inl rfl⟩

/-- The text is a domain between blanks, perhaps with a dot after it. -/
def Encloses (raw text : List Char) : Prop :=
  ∃ before dot after, raw = before ++ text ++ dot ++ after ∧ (∀ c ∈ before, isBlank c = true) ∧
    (dot = [] ∨ dot = ['.']) ∧ ∀ c ∈ after, isBlank c = true

theorem encloses_trimmed (raw : List Char) : Encloses raw (dropTrailingDot (trimChars raw)) := by
  obtain ⟨before, after, parted, leading, trailing⟩ := trimWhile_parts isBlank raw
  obtain ⟨dot, final, ending⟩ := dropTrailingDot_parts (trimChars raw)
  refine ⟨before, dot, after, ?_, leading, ending, trailing⟩
  rw [List.append_assoc before, ← final]
  exact parted

/-- The domains that are read. -/
theorem normalizeDomain_eq_some {raw domain : String} : normalizeDomain raw = some domain ↔
    ∃ text, Encloses raw.toList text ∧ WellFormedDomain text ∧ domain.toList = text.map Char.toLower := by
  have lower (text : List Char) : text.map lowerAscii = text.map Char.toLower :=
    List.map_congr_left fun c _ => lowerAscii_eq_toLower c
  rw [normalizeDomain, Option.map_eq_some_iff]
  constructor
  · rintro ⟨chars, read, rfl⟩
    obtain ⟨normal, rfl⟩ := normalizeChars_eq_some.mp read
    refine ⟨_, encloses_trimmed _, isNormal_map_lowerAscii.mp normal, ?_⟩
    rw [String.toList_ofList, lower]
  · rintro ⟨text, ⟨before, dot, after, parted, leading, ending, trailing⟩, wellFormed, lowered⟩
    refine ⟨domain.toList, normalizeChars_eq_some.mpr ?_, String.ofList_toList⟩
    rw [parted, wellFormed.trimmed leading trailing ending, lowered, ← lower]
    exact ⟨isNormal_map_lowerAscii.mpr wellFormed, rfl⟩

theorem normalizeDomain_plain {raw domain : String} (read : normalizeDomain raw = some domain) :
    ∀ c ∈ domain.toList, c.isUpper = false := by
  obtain ⟨text, -, -, lowered⟩ := normalizeDomain_eq_some.mp read
  rw [lowered]
  intro c member
  obtain ⟨letter, -, rfl⟩ := List.mem_map.mp member
  rw [← lowerAscii_eq_toLower]
  exact lowerAscii_plain letter

theorem normalizeDomain_fixed {raw domain : String} (read : normalizeDomain raw = some domain) :
    normalizeDomain domain = some domain := by
  obtain ⟨chars, normal, rfl⟩ := Option.map_eq_some_iff.mp read
  rw [normalizeDomain, String.toList_ofList, (normalizeChars_eq_some.mp normal).1.normalized]
  rfl

/-! ### Equal patterns -/

theorem DomainPattern.canonical_inj {raw raw' : String} {p p' : DomainPattern} (first : parse raw = .ok p)
    (second : parse raw' = .ok p') : p.canonical = p'.canonical ↔ p = p' := by
  constructor
  · intro same
    have read := parse_canonical first
    rw [same, parse_canonical second] at read
    exact (Except.ok.inj read).symm
  · exact congrArg canonical

theorem RuleDraft.pattern_of_validate {raw draft : RuleDraft} {pattern : DomainPattern}
    (valid : raw.validate = .ok (pattern, draft)) :
    draft.pattern = pattern.canonical ∧ DomainPattern.parse draft.pattern = .ok pattern := by
  obtain ⟨found, parsed, valid⟩ := ok_of_bind valid
  obtain ⟨⟨⟩, -, valid⟩ := ok_of_bind valid
  obtain ⟨⟨⟩, -, valid⟩ := ok_of_bind valid
  split at valid
  · cases valid
  · cases valid
    exact ⟨rfl, DomainPattern.parse_canonical parsed⟩

/-- Validated rules have the same pattern text if they have the same pattern. -/
theorem RuleDraft.Validated.pattern_eq_iff {raw other draft : RuleDraft} {pattern : DomainPattern}
    (validated : other.Validated) (valid : raw.validate = .ok (pattern, draft)) :
    other.pattern = draft.pattern ↔ DomainPattern.parse other.pattern = .ok pattern := by
  obtain ⟨otherRaw, otherPattern, otherValid⟩ := validated
  obtain ⟨otherText, otherRead⟩ := pattern_of_validate otherValid
  obtain ⟨text, read⟩ := pattern_of_validate valid
  rw [otherRead, Except.ok.injEq, otherText, text]
  rw [otherText] at otherRead
  rw [text] at read
  exact DomainPattern.canonical_inj otherRead read

open Classical in
/-- Canonical texts stand for patterns. The canonical text of a pattern reads back as that pattern, and two patterns
that were read are the same exactly when their canonical texts are. A domain is read from a text exactly when the text
is a well-formed domain between blanks, perhaps with a dot after it, and is that domain in lower case; reading it again
gives it back. So the check for a rule with the same text, made among validated rules, finds a rule exactly when there is
one with the same pattern. -/
theorem canonical_texts :
    (∀ raw pattern, DomainPattern.parse raw = .ok pattern → DomainPattern.parse pattern.canonical = .ok pattern) ∧
    (∀ raw raw' pattern pattern', DomainPattern.parse raw = .ok pattern → DomainPattern.parse raw' = .ok pattern' →
      (pattern.canonical = pattern'.canonical ↔ pattern = pattern')) ∧
    (∀ raw domain, normalizeDomain raw = some domain ↔
      ∃ text, Encloses raw.toList text ∧ WellFormedDomain text ∧ domain.toList = text.map Char.toLower) ∧
    (∀ raw domain, normalizeDomain raw = some domain →
      (∀ c ∈ domain.toList, c.isUpper = false) ∧ normalizeDomain domain = some domain) ∧
    (∀ (σ : Type) (rules : List TransportRule) (raw draft : RuleDraft) pattern except,
      (∀ rule ∈ rules, rule.toRuleDraft.Validated) → raw.validate = .ok (pattern, draft) →
      (Plane.requireUnused rules draft.pattern except : Plane.Call σ Unit) =
        if ∃ rule ∈ rules, some rule.id ≠ except ∧ rule.parsedPattern = .ok pattern then
          throw (.validation (.duplicatePattern draft.pattern))
        else pure ()) := by
  refine ⟨fun raw pattern => DomainPattern.parse_canonical, fun raw raw' pattern pattern' => DomainPattern.canonical_inj,
    fun raw domain => normalizeDomain_eq_some,
    fun raw domain read => ⟨normalizeDomain_plain read, normalizeDomain_fixed read⟩, ?_⟩
  intro σ rules raw draft pattern except validated valid
  have found : (rules.any fun rule => some rule.id ≠ except && rule.pattern = draft.pattern) = true ↔
      ∃ rule ∈ rules, some rule.id ≠ except ∧ rule.parsedPattern = .ok pattern := by
    rw [List.any_eq_true]
    apply exists_congr
    intro rule
    apply and_congr_right
    intro member
    simp [TransportRule.parsedPattern, (validated rule member).pattern_eq_iff valid]
  unfold Plane.requireUnused
  by_cases taken : ∃ rule ∈ rules, some rule.id ≠ except ∧ rule.parsedPattern = .ok pattern
  · rw [if_pos taken, if_pos (found.mpr taken)]
  · rw [if_neg taken, if_neg (mt found.mp taken)]

/-- An odd mixture of blanks, dots and cases is the pattern of a rule that is already there. -/
theorem canonical_texts_mixture :
    let draft (pattern : String) : RuleDraft :=
      { pattern, transport := ⟨"bulk"⟩, limits := ⟨5, 1⟩, isActive := true, description := none }
    let pattern := DomainPattern.suffix "example.com"
    DomainPattern.parse " *. Example.COM. \n" = .ok pattern ∧ DomainPattern.parse "*.example.com" = .ok pattern ∧
      (pattern.canonical = pattern.canonical ↔ pattern = pattern) ∧
      normalizeDomain " Example.COM. " = some "example.com" ∧ normalizeDomain "example.com" = some "example.com" ∧
      (draft " *. Example.COM. \n").validate = .ok (pattern, draft "*.example.com") ∧
      (Plane.requireUnused [(draft "*.example.com").withId 7] "*.example.com" none : Plane.Call Unit Unit) =
        throw (.validation (.duplicatePattern "*.example.com")) := by
  intro draft pattern
  obtain ⟨canonical, equal, -, fixed, duplicate⟩ := canonical_texts
  have parsed : DomainPattern.parse " *. Example.COM. \n" = .ok pattern := by rfl
  have domain : normalizeDomain " Example.COM. " = some "example.com" := by rfl
  have valid : (draft " *. Example.COM. \n").validate = .ok (pattern, draft "*.example.com") :=
    ok_of_toOption (by decide +kernel)
  have again := canonical _ pattern parsed
  have validated : ∀ rule ∈ [(draft "*.example.com").withId 7], rule.toRuleDraft.Validated := by
    simp only [List.forall_mem_singleton]
    exact ⟨_, pattern, valid⟩
  have refused := duplicate Unit _ _ _ _ none validated valid
  rw [if_pos ⟨_, List.mem_singleton_self _, nofun, again⟩] at refused
  exact ⟨parsed, again, equal _ _ _ _ parsed again, domain, (fixed _ _ domain).2, valid, refused⟩

end RelayRamp.Routing
