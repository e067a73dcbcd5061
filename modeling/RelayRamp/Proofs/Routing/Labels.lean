import RelayRamp.Proofs.Routing.Canonical
import RelayRamp.Proofs.Routing.Resolution

/-!
# Labels decide

Patterns are matched by characters and compared by their lengths. On domains in normal form both come to the labels: a
suffix pattern matches the domains that have its labels at the end and others before them, and of two patterns that match
one domain the longer is the one with more labels. Patterns that differ are so never equally long on one domain, and the
ids of rules that have different patterns decide nothing.
-/
namespace RelayRamp.Text

/-- A text ends with a separator and another text exactly when its parts are those of the other one with some before. -/
theorem suffix_iff_splitOn {separator : Char} {tail s : List Char} :
    separator :: tail <:+ s ↔ ∃ above, above ≠ [] ∧ splitOn separator s = above ++ splitOn separator tail := by
  constructor
  · rintro ⟨before, rfl⟩
    exact ⟨splitOn separator before, splitOn_ne_nil _ _, splitOn_append ..⟩
  · rintro ⟨above, filled, parted⟩
    rw [← intercalate_splitOn separator s, parted]
    clear parted
    induction above with
    | nil => exact absurd rfl filled
    | cons part rest ih =>
      have more : rest ++ splitOn separator tail ≠ [] := by simp [splitOn_ne_nil]
      rw [List.cons_append, List.intercalate_cons_of_ne_nil more]
      by_cases last : rest = []
      · subst last
        rw [List.nil_append, intercalate_splitOn]
        exact ⟨part, by simp⟩
      · exact (ih last).trans (List.suffix_append _ _)

end RelayRamp.Text

namespace RelayRamp.Routing

open RelayRamp.Store RelayRamp.Text

/-- The parts of a domain between its dots. -/
def labels (domain : String) : List (List Char) := domain.toList.splitOn '.'

theorem labels_inj {a b : String} : labels a = labels b ↔ a = b := by
  constructor
  · intro same
    have joined := congrArg ['.'].intercalate same
    rw [labels, labels, List.intercalate_splitOn, List.intercalate_splitOn] at joined
    exact String.toList_inj.mp joined
  · exact congrArg labels

theorem labels_ne_nil (domain : String) : labels domain ≠ [] := List.splitOn_ne_nil _ _

/-- One domain lies properly below another. -/
theorem below_iff {parent domain : String} : '.' :: parent.toList <:+ domain.toList ↔
    ∃ above, above ≠ [] ∧ labels domain = above ++ labels parent := by
  simp only [labels, ← splitOn_eq]
  exact suffix_iff_splitOn

theorem normalizeDomain_normal {raw domain : String} (read : normalizeDomain raw = some domain) :
    IsNormal domain.toList := by
  obtain ⟨chars, normal, rfl⟩ := Option.map_eq_some_iff.mp read
  rw [String.toList_ofList]
  exact (normalizeChars_eq_some.mp normal).1

namespace DomainPattern

/-! ### Matching -/

variable {parent domain : String}

theorem isMatch_exact_labels : (exact parent).isMatch domain = true ↔ labels parent = labels domain := by
  simp [isMatch, labels_inj]

theorem isMatch_suffix_labels (normal : IsNormal domain.toList) : (suffix parent).isMatch domain = true ↔
    ∃ above, above ≠ [] ∧ labels domain = above ++ labels parent := by
  rw [isMatch_suffix_iff normal, below_iff]

/-! ### Literal parts -/

/-- What a domain must end with. -/
def literal : DomainPattern → List Char
  | exact domain => domain.toList
  | suffix parent => '.' :: parent.toList
  | catchAll => []

/-- The number of labels that a pattern prescribes. -/
def depth : DomainPattern → Nat
  | exact domain => (labels domain).length
  | suffix parent => (labels parent).length
  | catchAll => 0

/-- A character of a domain is an octet. -/
theorem OfNormal.literalLength_eq {p : DomainPattern} (h : p.OfNormal) : p.literalLength = p.literal.length := by
  have octets_eq {s : List Char} (normal : IsNormal s) : octets (String.ofList s) = s.length :=
    octets_ascii (ascii_of_labels normal.labels)
  cases h with
  | catchAll => rfl
  | suffix normal => simp [literalLength, literal, octets_eq normal]
  | exact normal => simp [literalLength, literal, octets_eq normal]

theorem literal_suffix {p : DomainPattern} (matched : p.isMatch domain = true) : p.literal <:+ domain.toList := by
  cases p with
  | exact only =>
    rw [beq_iff_eq.mp matched]
    exact List.suffix_refl _
  | suffix parent =>
    rw [isMatch, Bool.and_eq_true, List.isSuffixOf_iff_suffix] at matched
    exact matched.2
  | catchAll => exact List.nil_suffix

/-- Only a suffix pattern has a literal part that begins with a dot, and only the catch-all has none. -/
theorem OfNormal.literal_inj {p q : DomainPattern} (hp : p.OfNormal) (hq : q.OfNormal)
    (same : p.literal = q.literal) : p = q := by
  cases hp with
  | catchAll =>
    cases hq with
    | catchAll => rfl
    | suffix normal => simp [literal] at same
    | exact normal => exact absurd (by simpa [literal] using same.symm) normal.nonempty
  | suffix normal =>
    cases hq with
    | catchAll => simp [literal] at same
    | suffix normal' => exact congrArg DomainPattern.suffix (String.toList_inj.mp (List.cons.inj same).2)
    | exact normal' => exact absurd (by simpa [literal] using same.symm) (normal'.undotted_head _)
  | exact normal =>
    cases hq with
    | catchAll => exact absurd (by simpa [literal] using same) normal.nonempty
    | suffix normal' => exact absurd (by simpa [literal] using same) (normal.undotted_head _)
    | exact normal' => exact congrArg DomainPattern.exact (String.toList_inj.mp same)

variable {p q : DomainPattern}

/-- What two patterns prescribe of one domain lies one inside the other. -/
theorem literal_nested (left : p.isMatch domain = true) (right : q.isMatch domain = true)
    (shorter : p.literal.length ≤ q.literal.length) : p.literal <:+ q.literal :=
  List.suffix_of_suffix_length_le (literal_suffix left) (literal_suffix right) shorter

/-- Patterns that match one domain and are equally long are the same. -/
theorem OfNormal.eq_of_length (hp : p.OfNormal) (hq : q.OfNormal) (left : p.isMatch domain = true)
    (right : q.isMatch domain = true) (same : p.literalLength = q.literalLength) : p = q := by
  rw [hp.literalLength_eq, hq.literalLength_eq] at same
  exact hp.literal_inj hq ((literal_nested left right same.le).eq_of_length same)

/-- The longer of two patterns that match one domain has more labels. -/
theorem OfNormal.depth_lt (hp : p.OfNormal) (hq : q.OfNormal) (left : p.isMatch domain = true)
    (right : q.isMatch domain = true) (less : p.literalLength < q.literalLength) : p.depth < q.depth := by
  rw [hp.literalLength_eq, hq.literalLength_eq] at less
  have nested := literal_nested left right less.le
  cases p with
  | exact only =>
    -- No literal part is longer than the domain.
    have whole := (literal_suffix right).length_le
    rw [← beq_iff_eq.mp left] at whole
    exact absurd less (Nat.not_lt.mpr whole)
  | suffix parent =>
    have deeper {other : String} (below : '.' :: parent.toList <:+ other.toList) :
        (labels parent).length < (labels other).length := by
      obtain ⟨above, filled, parted⟩ := below_iff.mp below
      rw [parted, List.length_append]
      exact Nat.lt_add_of_pos_left (List.length_pos_iff.mpr filled)
    cases q with
    | exact only => exact deeper nested
    | suffix parent' =>
      rcases List.suffix_cons_iff.mp nested with same | below
      · exact absurd (congrArg List.length same) (Nat.ne_of_lt less)
      · exact deeper below
    | catchAll => exact absurd less (Nat.not_lt_zero _)
  | catchAll =>
    cases q with
    | exact only => exact List.length_pos_iff.mpr (labels_ne_nil only)
    | suffix parent => exact List.length_pos_iff.mpr (labels_ne_nil parent)
    | catchAll => exact absurd less (Nat.not_lt_zero _)

/-- Of the patterns that match one domain, which is longer and which has more labels is the same question. -/
theorem OfNormal.literalLength_lt_iff (hp : p.OfNormal) (hq : q.OfNormal) (left : p.isMatch domain = true)
    (right : q.isMatch domain = true) : p.literalLength < q.literalLength ↔ p.depth < q.depth := by
  constructor
  · exact hp.depth_lt hq left right
  · intro deeper
    rcases Nat.lt_trichotomy p.literalLength q.literalLength with less | same | more
    · exact less
    · rw [hp.eq_of_length hq left right same] at deeper
      exact absurd deeper (Nat.lt_irrefl _)
    · exact absurd (hq.depth_lt hp right left more) (Nat.lt_asymm deeper)

end DomainPattern

/-! ### Rules of different patterns -/

namespace Matcher

variable {rules : List TransportRule} {fallback : DefaultTransport} {m m' : Matcher} {domain : String}

theorem patterns_distinct (built : build rules fallback = .ok m)
    (distinct : (rules.filter (·.isActive)).Pairwise (·.parsedPattern ≠ ·.parsedPattern)) :
    m.rules.Pairwise (·.pattern ≠ ·.pattern) := by
  obtain ⟨-, compiled, read, rfl⟩ := build_eq_ok.mp built
  have patterns : (rules.filter (·.isActive)).map (·.parsedPattern) = compiled.map fun hit => .ok hit.pattern := by
    have mapped := congrArg (List.map (Except.map CompiledRule.pattern)) (map_of_mapM read)
    rw [List.map_map, List.map_map] at mapped
    refine Eq.trans (List.map_congr_left fun rule _ => ?_) mapped
    change rule.parsedPattern = (compile rule).map CompiledRule.pattern
    cases parsed : rule.parsedPattern <;> simp [compile, parsed] <;> rfl
  have apart : compiled.Pairwise (·.pattern ≠ ·.pattern) := by
    have listed := List.pairwise_map.mpr distinct
    rw [patterns, List.pairwise_map] at listed
    exact listed.imp fun different same => different (congrArg Except.ok same)
  exact (List.mergeSort_perm compiled _).symm.pairwise apart Ne.symm

/-- The rules that match a domain are tried from the longest pattern to the shortest, and no two are equally long. -/
theorem matching_descend (built : build rules fallback = .ok m)
    (distinct : (rules.filter (·.isActive)).Pairwise (·.parsedPattern ≠ ·.parsedPattern)) :
    (m.rules.filter (·.pattern.isMatch domain)).Pairwise fun a b =>
      b.pattern.literalLength < a.pattern.literalLength := by
  have normal {hit : CompiledRule} (member : hit ∈ m.rules) : hit.pattern.OfNormal := by
    obtain ⟨rule, -, pattern, parsed, rfl⟩ := (mem_rules built hit).mp member
    exact DomainPattern.parse_normal parsed
  rw [List.pairwise_filter]
  refine ((rules_sorted built).and (patterns_distinct built distinct)).imp_of_mem ?_
  rintro a b here there ⟨precedes, different⟩ left right
  have unequal : a.pattern.literalLength ≠ b.pattern.literalLength := fun same =>
    different ((normal here).eq_of_length (normal there) left right same)
  simp only [CompiledRule.precedes, Bool.or_eq_true, Bool.and_eq_true, decide_eq_true_eq, beq_iff_eq] at precedes
  omega

/-- The rules with other ids. -/
def renumbered (number : TransportRule → Nat) (rules : List TransportRule) : List TransportRule :=
  rules.map fun rule => { rule with id := number rule }

/-- A rule of a matcher without its id. -/
def unnumbered (hit : CompiledRule) : DomainPattern × TransportName := (hit.pattern, hit.transport)

theorem renumbered_active (number : TransportRule → Nat) (rules : List TransportRule) :
    (renumbered number rules).filter (·.isActive) = renumbered number (rules.filter (·.isActive)) := by
  rw [renumbered, List.filter_map]
  rfl

theorem compile_unnumbered (rule : TransportRule) (id : Nat) :
    (compile { rule with id }).map unnumbered = (compile rule).map unnumbered := by
  change (rule.parsedPattern >>= _).map unnumbered = (rule.parsedPattern >>= _).map unnumbered
  cases rule.parsedPattern <;> rfl

/-- Other ids leave the matcher its rules, in an order that may differ. -/
theorem build_renumbered (built : build rules fallback = .ok m) (number : TransportRule → Nat) :
    ∃ m', build (renumbered number rules) fallback = .ok m' ∧ m'.transports = m.transports ∧
      m'.fallback = m.fallback ∧ (m'.rules.map unnumbered).Perm (m.rules.map unnumbered) := by
  obtain ⟨valid, compiled, read, rfl⟩ := build_eq_ok.mp built
  have each : ∀ rule ∈ renumbered number (rules.filter (·.isActive)), ∃ hit, compile rule = .ok hit := by
    intro rule member
    obtain ⟨old, inside, rfl⟩ := List.mem_map.mp member
    obtain ⟨hit, found⟩ := ok_of_mapM read inside
    obtain ⟨pattern, parsed, -⟩ := compile_eq_ok.mp found
    exact ⟨_, compile_eq_ok.mpr ⟨pattern, parsed, rfl⟩⟩
  obtain ⟨compiled', read'⟩ := exists_mapM each
  have same : compiled'.map unnumbered = compiled.map unnumbered := by
    have here := congrArg (List.map (Except.map unnumbered)) (map_of_mapM read)
    have there := congrArg (List.map (Except.map unnumbered)) (map_of_mapM read')
    rw [renumbered, List.map_map, List.map_map] at there
    have unchanged := List.map_congr_left (l := rules.filter (·.isActive)) fun rule _ =>
      compile_unnumbered rule (number rule)
    rw [List.map_map] at here
    have equal := there.symm.trans (unchanged.trans here)
    rw [List.map_map, List.map_map] at equal
    have ok_injective : Function.Injective (Except.ok (ε := ValidationFault) (α := DomainPattern × TransportName)) :=
      fun _ _ => Except.ok.inj
    refine ok_injective.list_map ?_
    rw [List.map_map, List.map_map]
    exact equal
  refine ⟨_, build_eq_ok.mpr ⟨valid, compiled', by rw [renumbered_active]; exact read', rfl⟩, ?_, rfl, ?_⟩
  · rw [renumbered_active, renumbered, List.map_map]
    rfl
  · refine ((List.mergeSort_perm compiled' _).map _).trans ?_
    rw [same]
    exact ((List.mergeSort_perm compiled _).map _).symm

theorem renumbered_distinct (number : TransportRule → Nat)
    (distinct : (rules.filter (·.isActive)).Pairwise (·.parsedPattern ≠ ·.parsedPattern)) :
    ((renumbered number rules).filter (·.isActive)).Pairwise (·.parsedPattern ≠ ·.parsedPattern) := by
  rw [renumbered_active, renumbered, List.pairwise_map]
  exact distinct

/-- The rules that match a domain, without their ids, in the order in which they are tried. -/
def tried (m : Matcher) (domain : String) : List (DomainPattern × TransportName) :=
  (m.rules.filter (·.pattern.isMatch domain)).map unnumbered

theorem tried_eq (m : Matcher) (domain : String) :
    m.tried domain = (m.rules.map unnumbered).filter (·.1.isMatch domain) := by
  rw [tried, List.filter_map]
  rfl

theorem tried_descend (built : build rules fallback = .ok m)
    (distinct : (rules.filter (·.isActive)).Pairwise (·.parsedPattern ≠ ·.parsedPattern)) :
    (m.tried domain).Pairwise fun a b => b.1.literalLength < a.1.literalLength := by
  rw [tried, List.pairwise_map]
  exact matching_descend built distinct

/-- Where the patterns differ the ids make no difference to where a domain goes. -/
theorem route_renumbered (built : build rules fallback = .ok m)
    (distinct : (rules.filter (·.isActive)).Pairwise (·.parsedPattern ≠ ·.parsedPattern))
    (number : TransportRule → Nat) : ∃ m', build (renumbered number rules) fallback = .ok m' ∧
      ∀ domain, (m'.route domain).transport = (m.route domain).transport ∧
        (m'.route domain).limits = (m.route domain).limits := by
  obtain ⟨m', built', transports, fallbacks, perm⟩ := build_renumbered built number
  refine ⟨m', built', fun domain => ?_⟩
  have same : m'.tried domain = m.tried domain := by
    refine List.Perm.eq_of_pairwise (fun a b _ _ less more => absurd less (Nat.lt_asymm more))
      (tried_descend built' (renumbered_distinct number distinct)) (tried_descend built distinct) ?_
    rw [tried_eq, tried_eq]
    exact perm.filter _
  have first (m : Matcher) : (m.rules.find? (·.pattern.isMatch domain)).map (·.transport) =
      (m.tried domain).head?.map (·.2) := by
    rw [tried, List.head?_map, List.head?_filter, Option.map_map]
    rfl
  have transport : (m'.route domain).transport = (m.route domain).transport := by
    simp only [route, first, same, fallbacks]
  refine ⟨transport, ?_⟩
  change (m'.transports.get? (m'.route domain).transport).getD unlisted =
    (m.transports.get? (m.route domain).transport).getD unlisted
  rw [transport, transports]

end Matcher

/-- Labels decide which patterns match and which of them goes first. An exact pattern matches the domains that have its
labels, a suffix pattern those that have its labels at the end and others before them. Of the patterns that match one
domain different ones are never equally long, and the longer has more labels. So among active rules of different
patterns those that match a domain are tried in strictly descending length: their ids are never compared, and with any
other ids every domain goes to the same transport with the same limits. -/
theorem labels_decide :
    (∀ raw name, DomainPattern.parse raw = .ok (.exact name) → ∀ text domain, normalizeDomain text = some domain →
      ((DomainPattern.exact name).isMatch domain = true ↔ labels name = labels domain)) ∧
    (∀ raw parent, DomainPattern.parse raw = .ok (.suffix parent) →
      ∀ text domain, normalizeDomain text = some domain →
      ((DomainPattern.suffix parent).isMatch domain = true ↔
        ∃ above, above ≠ [] ∧ labels domain = above ++ labels parent)) ∧
    (∀ raw raw' p q, DomainPattern.parse raw = .ok p → DomainPattern.parse raw' = .ok q →
      ∀ text domain, normalizeDomain text = some domain → p.isMatch domain = true → q.isMatch domain = true →
      (p ≠ q → p.literalLength ≠ q.literalLength) ∧ (p.literalLength < q.literalLength ↔ p.depth < q.depth)) ∧
    ∀ rules fallback m, Matcher.build rules fallback = .ok m →
      (rules.filter (·.isActive)).Pairwise (·.parsedPattern ≠ ·.parsedPattern) →
      (∀ domain, (m.rules.filter (·.pattern.isMatch domain)).Pairwise fun a b =>
        b.pattern.literalLength < a.pattern.literalLength) ∧
      ∀ number, ∃ m', Matcher.build (Matcher.renumbered number rules) fallback = .ok m' ∧
        ∀ domain, (m'.route domain).transport = (m.route domain).transport ∧
          (m'.route domain).limits = (m.route domain).limits := by
  refine ⟨?_, ?_, ?_, ?_⟩
  · intro raw name _ text domain _
    exact DomainPattern.isMatch_exact_labels
  · intro raw parent _ text domain read
    exact DomainPattern.isMatch_suffix_labels (normalizeDomain_normal read)
  · intro raw raw' p q first second text domain _ left right
    have hp := DomainPattern.parse_normal first
    have hq := DomainPattern.parse_normal second
    exact ⟨fun different same => different (hp.eq_of_length hq left right same),
      hp.literalLength_lt_iff hq left right⟩
  · intro rules fallback m built distinct
    exact ⟨fun domain => Matcher.matching_descend built distinct, Matcher.route_renumbered built distinct⟩

/-- A pattern whose letters a domain ends with and whose labels it does not, and one whose labels it has; and three rules
that match one domain, with ids that say the opposite of their lengths. -/
theorem labels_decide_lookalike :
    let suffix := DomainPattern.suffix "example.com"
    let rule (id : Nat) (pattern : String) (name : String) : TransportRule :=
      { id, pattern, transport := ⟨name⟩, limits := ⟨5, 1⟩, isActive := true, description := none }
    let rules := [rule 1 "*" "bulk", rule 2 "*.example.com" "slow", rule 3 "mail.example.com" "mail"]
    DomainPattern.parse "*. Example.com " = .ok suffix ∧
      DomainPattern.parse "mail.example.com" = .ok (.exact "mail.example.com") ∧
      (¬ ∃ above, above ≠ [] ∧ labels "notexample.com" = above ++ labels "example.com") ∧
      (∃ above, above ≠ [] ∧ labels "mail.example.com" = above ++ labels "example.com") ∧
      labels "mail.example.com" = labels "mail.example.com" ∧
      suffix.literalLength ≠ (DomainPattern.exact "mail.example.com").literalLength ∧
      ∃ m, Matcher.build rules .standard = .ok m ∧
        (m.rules.filter (·.pattern.isMatch "mail.example.com")).Pairwise (fun a b =>
          b.pattern.literalLength < a.pattern.literalLength) ∧
        ∃ m', Matcher.build (Matcher.renumbered (fun _ => 7) rules) .standard = .ok m' ∧
          (m'.route "mail.example.com").transport = (m.route "mail.example.com").transport := by
  intro suffix rule rules
  obtain ⟨whole, below, apart, tried⟩ := labels_decide
  have parsed : DomainPattern.parse "*. Example.com " = .ok suffix := by rfl
  have exactly : DomainPattern.parse "mail.example.com" = .ok (.exact "mail.example.com") := by rfl
  have lookalike : normalizeDomain "notexample.com" = some "notexample.com" := by rfl
  have inside : normalizeDomain "Mail.example.com." = some "mail.example.com" := by rfl
  have matched : suffix.isMatch "mail.example.com" = true := by decide
  have itself : (DomainPattern.exact "mail.example.com").isMatch "mail.example.com" = true := by decide
  have missed : suffix.isMatch "notexample.com" ≠ true := by decide
  have made : (Matcher.build rules .standard).toOption.isSome = true := by decide +kernel
  obtain ⟨m, built⟩ := Option.isSome_iff_exists.mp made
  have built := ok_of_toOption built
  have distinct : (rules.filter (·.isActive)).Pairwise (·.parsedPattern ≠ ·.parsedPattern) := by decide
  obtain ⟨descend, renumbered⟩ := tried rules .standard m built distinct
  obtain ⟨m', built', same⟩ := renumbered fun _ => 7
  refine ⟨parsed, exactly, mt (below _ _ parsed _ _ lookalike).mpr missed, (below _ _ parsed _ _ inside).mp matched,
    (whole _ _ exactly _ _ inside).mp itself, (apart _ _ _ _ parsed exactly _ _ inside matched itself).1 nofun,
    m, built, descend _, m', built', (same _).1⟩

end RelayRamp.Routing
