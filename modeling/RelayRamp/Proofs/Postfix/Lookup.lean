import Mathlib.Data.List.Pairwise
import RelayRamp.Postfix.TransportMap
import RelayRamp.Proofs.Routing.Selection

/-!
# Looking a domain up in the transport map

The mail server reads the map line by line and looks a domain up under several keys: the domain itself, its parents with
a dot in front, the longest first, and a star. The first key that is found decides. What it finds is what the engine
routes to by its rules, and it finds nothing where the engine falls back to the default transport.
-/
namespace RelayRamp.Routing

open RelayRamp.Text

/-- The key under which a pattern is written. -/
def DomainPattern.mapKey : DomainPattern → String
  | exact domain => domain
  | suffix parent => "." ++ parent
  | catchAll => "*"

theorem dotted_ne_star (parent : String) : "." ++ parent ≠ "*" := fun same => by
  have chars := congrArg String.toList same
  simp at chars

namespace IsNormal

variable {s : List Char} (h : IsNormal s)

include h

theorem ne_star : String.ofList s ≠ "*" := fun same => by
  have chars : s = ['*'] := by simpa using congrArg String.toList same
  exact h.not_star (chars ▸ List.mem_singleton_self '*')

theorem ne_dotted (parent : String) : String.ofList s ≠ "." ++ parent := fun same => by
  have chars := congrArg String.toList same
  rw [String.toList_append, String.toList_ofList] at chars
  exact h.undotted_head _ chars

end IsNormal

/-- The key tells the pattern. -/
theorem DomainPattern.OfNormal.eq_of_mapKey {a b : DomainPattern} (ha : a.OfNormal) (hb : b.OfNormal)
    (same : a.mapKey = b.mapKey) : a = b := by
  cases ha with
  | catchAll =>
    cases hb with
    | catchAll => rfl
    | suffix normal => exact absurd same.symm (dotted_ne_star _)
    | exact normal => exact absurd same.symm normal.ne_star
  | suffix normal =>
    cases hb with
    | catchAll => exact absurd same (dotted_ne_star _)
    | suffix normal' => exact congrArg DomainPattern.suffix ((String.append_right_inj _).mp same)
    | exact normal' => exact absurd same.symm (normal'.ne_dotted _)
  | exact normal =>
    cases hb with
    | catchAll => exact absurd same normal.ne_star
    | suffix normal' => exact absurd same (normal.ne_dotted _)
    | exact normal' => exact congrArg DomainPattern.exact same

end RelayRamp.Routing

namespace RelayRamp.Postfix

open RelayRamp.Routing RelayRamp.Text

/-! ### How the mail server reads the map -/

/-- The key of a line and the transport of its value, which stands before a colon. Empty lines and comments say
nothing. -/
def readLine : List Char → Option (String × String)
  | [] => none
  | c :: rest =>
    if c = '#' then none
    else
      let value := ((c :: rest).dropWhile fun c => !isBlank c).dropWhile isBlank
      some (String.ofList ((c :: rest).takeWhile fun c => !isBlank c), String.ofList (value.takeWhile (· ≠ ':')))

def readTable (text : String) : List (String × String) := (splitOn '\n' text.toList).filterMap readLine

/-- The keys of a domain in the order in which they are tried. -/
def lookupKeys (domain : String) : List String := domain :: (parents domain).map ("." ++ ·) ++ ["*"]

/-- The transport of a domain; none if no key is found. -/
def lookup (text domain : String) : Option String := (lookupKeys domain).findSome? fun key => (readTable text).lookup key

/-! ### Reading what was written -/

/-- Nothing in the entry can be taken for the format of the line. -/
structure MapEntry.Plain (e : MapEntry) : Prop where
  key_nonempty : e.key.toList ≠ []
  key : ∀ c ∈ e.key.toList, isBlank c = false ∧ c ≠ '#'
  transport : ∀ c ∈ e.transport.text.toList, isBlank c = false ∧ c ≠ ':'

namespace MapEntry

variable {e : MapEntry}

/-- The line without its end. -/
def body (e : MapEntry) : List Char := e.key.toList ++ ("    ".toList ++ (e.transport.text.toList ++ [':']))

theorem line_toList (e : MapEntry) : e.line.toList = e.body ++ ['\n'] := by
  change (toString e.key ++ "    " ++ toString e.transport.text ++ ":\n").toList = _
  simp only [String.toList_append, body, List.append_assoc]
  rfl

theorem Plain.unbroken (h : e.Plain) : '\n' ∉ e.body := by
  intro member
  simp only [body, List.mem_append] at member
  rcases member with key | spaces | name | colon
  · exact unbroken_of_shown (fun c inside => (h.key c inside).1) key
  · exact absurd spaces (by decide)
  · exact unbroken_of_shown (fun c inside => (h.transport c inside).1) name
  · exact absurd colon (by decide)

theorem Plain.readLine_body (h : e.Plain) : readLine e.body = some (e.key, e.transport.text) := by
  obtain ⟨c, rest, key⟩ := List.exists_cons_of_ne_nil h.key_nonempty
  have visible : ∀ c ∈ e.key.toList, (!isBlank c) = true := fun c member => by rw [(h.key c member).1]; rfl
  have name : ∀ c ∈ e.transport.text.toList, decide (c ≠ ':') = true := fun c member =>
    decide_eq_true (h.transport c member).2
  let tail := "    ".toList ++ (e.transport.text.toList ++ [':'])
  have key_read : e.body.takeWhile (fun c => !isBlank c) = e.key.toList := by
    rw [body, List.takeWhile_append_of_pos visible]
    exact List.append_nil _
  have tail_read : e.body.dropWhile (fun c => !isBlank c) = tail := by
    rw [body, List.dropWhile_append_of_pos visible]
    rfl
  have value_read : tail.dropWhile isBlank = e.transport.text.toList ++ [':'] := by
    change (e.transport.text.toList ++ [':']).dropWhile isBlank = _
    cases chars : e.transport.text.toList with
    | nil => rfl
    | cons d others =>
      have shown : isBlank d = false := (h.transport d (chars ▸ List.mem_cons_self ..)).1
      rw [List.cons_append, List.dropWhile_cons_of_neg (by simp [shown])]
  have transport_read : (e.transport.text.toList ++ [':']).takeWhile (· ≠ ':') = e.transport.text.toList := by
    rw [List.takeWhile_append_of_pos name]
    exact List.append_nil _
  have start : e.body = c :: (rest ++ tail) := by
    rw [body, key]
    rfl
  have visible_start : c ≠ '#' := (h.key c (key ▸ List.mem_cons_self ..)).2
  have read : readLine e.body =
      some (String.ofList (e.body.takeWhile fun c => !isBlank c), String.ofList
        (((e.body.dropWhile fun c => !isBlank c).dropWhile isBlank).takeWhile (· ≠ ':'))) := by
    rw [start, readLine, if_neg visible_start]
  rw [read, key_read, tail_read, value_read, transport_read, String.ofList_toList, String.ofList_toList]

end MapEntry

/-- The comment at the head of the map. -/
def headerLine : String := "# Generated transport map; edits are overwritten"

theorem render_toList (rules : List TransportRule) : (renderTransportMap rules).toList =
    (headerLine.toList :: (mapEntries rules).map MapEntry.body).flatMap (· ++ ['\n']) := by
  have header : "# Generated transport map; edits are overwritten\n" = headerLine ++ "\n" := rfl
  have text : renderTransportMap rules = headerLine ++ "\n" ++ String.join ((mapEntries rules).map MapEntry.line) :=
    congrArg (· ++ String.join ((mapEntries rules).map MapEntry.line)) header
  have lines : (String.join ((mapEntries rules).map MapEntry.line)).toList =
      ((mapEntries rules).map MapEntry.body).flatMap (· ++ ['\n']) := by
    rw [String.toList_join, List.flatMap_map, List.flatMap_map]
    exact congrArg (List.flatMap · _) (funext MapEntry.line_toList)
  rw [text, String.toList_append, String.toList_append, lines, List.flatMap_cons]
  rfl

/-- Every entry is read back from its line. -/
theorem readTable_render {rules : List TransportRule} (plain : ∀ e ∈ mapEntries rules, e.Plain) :
    readTable (renderTransportMap rules) = (mapEntries rules).map fun e => (e.key, e.transport.text) := by
  have ended : ∀ line ∈ headerLine.toList :: (mapEntries rules).map MapEntry.body, '\n' ∉ line := by
    refine List.forall_mem_cons.mpr ⟨by decide, fun line member => ?_⟩
    obtain ⟨e, inside, rfl⟩ := List.mem_map.mp member
    exact (plain e inside).unbroken
  have comment : readLine headerLine.toList = none := by decide
  have entries : ((mapEntries rules).map MapEntry.body).filterMap readLine =
      (mapEntries rules).map fun e => (e.key, e.transport.text) := by
    rw [List.filterMap_map, ← List.filterMap_eq_map]
    exact List.filterMap_congr fun e member => (plain e member).readLine_body
  rw [readTable, render_toList, splitOn_lines ended, List.filterMap_append, List.filterMap_cons, comment, entries]
  exact List.append_nil _

/-! ### The keys of a domain -/

/-- A key is the more specific the longer it is; the star is the least. -/
def keyWeight (key : String) : Nat := if key = "*" then 0 else octets key

theorem octets_lt {a b : List Char} (below : a <:+ b) (apart : a ≠ b) :
    octets (String.ofList a) < octets (String.ofList b) := by
  obtain ⟨front, rfl⟩ := below
  have positive : 0 < octets (String.ofList front) := by
    refine Nat.pos_of_ne_zero fun zero => apart ?_
    have empty : String.ofList front = "" := String.utf8ByteSize_eq_zero_iff.mp zero
    have none : front = [] := by simpa using congrArg String.toList empty
    rw [none, List.nil_append]
  rw [octets, octets, String.ofList_append, String.utf8ByteSize_append]
  exact Nat.lt_add_of_pos_left positive

theorem keyWeight_dotted (parent : String) : keyWeight ("." ++ parent) = octets parent + 1 := by
  rw [keyWeight, if_neg (dotted_ne_star parent), octets, String.utf8ByteSize_append, Nat.add_comm]
  rfl

variable {domain : String}

theorem keyWeight_domain (normal : IsNormal domain.toList) : keyWeight domain = octets domain := by
  have plain := normal.ne_star
  rw [String.ofList_toList] at plain
  exact if_neg plain

theorem literalLength_eq {pattern : DomainPattern} (h : pattern.OfNormal) :
    pattern.literalLength = keyWeight pattern.mapKey := by
  cases h with
  | catchAll => rfl
  | suffix normal => exact (keyWeight_dotted _).symm
  | exact normal => exact (if_neg normal.ne_star).symm

theorem octets_parent (normal : IsNormal domain.toList) {parent : String} (member : parent ∈ parents domain) :
    octets parent + 1 < octets domain := by
  obtain ⟨chars, inside, rfl⟩ := List.mem_map.mp member
  have less := octets_lt (mem_parentChars.mp inside) (normal.undotted_head chars).symm
  have dotted : String.ofList ('.' :: chars) = "." ++ String.ofList chars := @String.ofList_append ['.'] _
  rw [dotted, String.ofList_toList, octets, String.utf8ByteSize_append, Nat.add_comm] at less
  exact less

theorem parents_shorter (domain : String) : (parents domain).Pairwise fun a b => octets b < octets a := by
  rw [parents, List.pairwise_map]
  refine (parentChars_shorter domain.toList).imp fun {longer shorter} below => ?_
  refine octets_lt ((List.suffix_cons _ _).trans below) fun same => ?_
  have length := below.length_le
  rw [same, List.length_cons] at length
  omega

/-- The keys of a domain are tried from the most specific to the least. -/
theorem lookupKeys_descend (normal : IsNormal domain.toList) :
    (lookupKeys domain).Pairwise fun a b => keyWeight b < keyWeight a := by
  have dotted : ((parents domain).map ("." ++ ·)).Pairwise fun a b => keyWeight b < keyWeight a := by
    rw [List.pairwise_map]
    refine (parents_shorter domain).imp fun {longer shorter} less => ?_
    rw [keyWeight_dotted, keyWeight_dotted]
    exact Nat.succ_lt_succ less
  have star : keyWeight "*" = 0 := rfl
  rw [lookupKeys, List.cons_append]
  refine List.pairwise_cons.mpr ⟨fun key member => ?_, List.pairwise_append.mpr
    ⟨dotted, List.pairwise_singleton _ _, fun key inside last final => ?_⟩⟩
  · rw [keyWeight_domain normal]
    rcases List.mem_append.mp member with inside | final
    · obtain ⟨parent, present, rfl⟩ := List.mem_map.mp inside
      rw [keyWeight_dotted]
      exact octets_parent normal present
    · obtain rfl := List.mem_singleton.mp final
      have whole := octets_lt (List.nil_suffix (l := domain.toList)) normal.nonempty.symm
      rw [String.ofList_toList] at whole
      rw [star]
      exact Nat.lt_of_le_of_lt (Nat.zero_le _) whole
  · obtain ⟨parent, -, rfl⟩ := List.mem_map.mp inside
    obtain rfl := List.mem_singleton.mp final
    rw [keyWeight_dotted, star]
    exact Nat.succ_pos _

/-- A domain is looked up under the keys of the patterns that match it. -/
theorem mem_lookupKeys {pattern : DomainPattern} (h : pattern.OfNormal) (normal : IsNormal domain.toList) :
    pattern.mapKey ∈ lookupKeys domain ↔ pattern.isMatch domain = true := by
  cases h with
  | catchAll => simp [lookupKeys, DomainPattern.mapKey, DomainPattern.isMatch]
  | @suffix parent _ =>
    have different : "." ++ String.ofList parent ≠ domain := fun same => by
      have plain := normal.ne_dotted (String.ofList parent)
      rw [String.ofList_toList] at plain
      exact plain same.symm
    rw [DomainPattern.isMatch_suffix normal]
    simp only [lookupKeys, DomainPattern.mapKey, List.cons_append, List.mem_cons, List.mem_append, List.mem_map,
      List.not_mem_nil, or_false, different, dotted_ne_star, false_or]
    constructor
    · rintro ⟨other, inside, same⟩
      exact (String.append_right_inj _).mp same ▸ inside
    · exact fun inside => ⟨_, inside, rfl⟩
  | @exact name plain =>
    have undotted : ∀ parent, "." ++ parent ≠ String.ofList name := fun parent => (plain.ne_dotted parent).symm
    simp only [lookupKeys, DomainPattern.mapKey, DomainPattern.isMatch, List.cons_append, List.mem_cons, List.mem_append,
      List.mem_map, List.not_mem_nil, or_false, plain.ne_star, undotted, and_false, exists_false, beq_iff_eq]

/-! ### The entries of a map -/

theorem keyOf_eq_some {rule : TransportRule} {key : String} : keyOf rule = some key ↔
    ∃ pattern, rule.parsedPattern = .ok pattern ∧ pattern ≠ .catchAll ∧ key = pattern.mapKey := by
  unfold keyOf
  split
  · rename_i parsed
    rw [parsed]
    simp [DomainPattern.mapKey, eq_comm]
  · rename_i parsed
    rw [parsed]
    simp [DomainPattern.mapKey, eq_comm]
  · rename_i not_exact not_suffix
    refine ⟨nofun, fun ⟨pattern, found, specific, _⟩ => ?_⟩
    cases pattern with
    | exact domain => exact absurd found (not_exact domain)
    | suffix parent => exact absurd found (not_suffix parent)
    | catchAll => exact absurd rfl specific

theorem isCatchAll_iff {rule : TransportRule} : isCatchAll rule = true ↔ rule.parsedPattern = .ok .catchAll := by
  unfold isCatchAll
  split
  · rename_i parsed
    simp [parsed]
  · rename_i other
    exact ⟨nofun, fun found => absurd found other⟩

variable {rules : List TransportRule}

/-- No two active rules read as the same pattern. -/
def Distinct (rules : List TransportRule) : Prop :=
  (rules.filter (·.isActive)).Pairwise (·.parsedPattern ≠ ·.parsedPattern)

theorem Distinct.eq (distinct : Distinct rules) {a b : TransportRule} (ha : a ∈ rules.filter (·.isActive))
    (hb : b ∈ rules.filter (·.isActive)) (same : a.parsedPattern = b.parsedPattern) : a = b := by
  have symm : Std.Symm fun a b : TransportRule => a.parsedPattern ≠ b.parsedPattern := ⟨fun _ _ => Ne.symm⟩
  exact by_contra fun apart => List.Pairwise.forall distinct ha hb apart same

/-- The map has an entry for each active rule. -/
theorem mem_mapEntries (distinct : Distinct rules) (e : MapEntry) : e ∈ mapEntries rules ↔
    ∃ rule ∈ rules.filter (·.isActive), ∃ pattern, rule.parsedPattern = .ok pattern ∧
      e = ⟨pattern.mapKey, rule.transport⟩ := by
  simp only [mapEntries, List.mem_append, List.mem_mergeSort, List.mem_filterMap, Option.mem_toList, Option.map_eq_some_iff]
  constructor
  · rintro (⟨rule, active, key, keyed, rfl⟩ | ⟨rule, found, rfl⟩)
    · obtain ⟨pattern, parsed, -, rfl⟩ := keyOf_eq_some.mp keyed
      exact ⟨rule, active, pattern, parsed, rfl⟩
    · have parsed := isCatchAll_iff.mp (List.find?_some found)
      exact ⟨rule, List.mem_of_find?_eq_some found, _, parsed, rfl⟩
  · rintro ⟨rule, active, pattern, parsed, rfl⟩
    by_cases specific : pattern = .catchAll
    · subst specific
      obtain ⟨first, found⟩ : ∃ first, (rules.filter (·.isActive)).find? isCatchAll = some first :=
        Option.isSome_iff_exists.mp (List.find?_isSome.mpr ⟨rule, active, isCatchAll_iff.mpr parsed⟩)
      have same : first = rule := distinct.eq (List.mem_of_find?_eq_some found) active
        ((isCatchAll_iff.mp (List.find?_some found)).trans parsed.symm)
      exact Or.inr ⟨first, found, by rw [same]; rfl⟩
    · exact Or.inl ⟨rule, active, _, keyOf_eq_some.mpr ⟨pattern, parsed, specific, rfl⟩, rfl⟩

/-- The keys of patterns and valid names are plain. -/
theorem plain_entry {pattern : DomainPattern} (h : pattern.OfNormal) {name : TransportName} (valid : name.validate = .ok ()) :
    MapEntry.Plain ⟨pattern.mapKey, name⟩ where
  key_nonempty := by
    cases h with
    | catchAll => simp [DomainPattern.mapKey]
    | suffix normal => simp [DomainPattern.mapKey]
    | exact normal => simpa [DomainPattern.mapKey] using normal.nonempty
  key c member := by
    have visible : 42 ≤ c.toNat ∧ c.toNat ≤ 122 := by
      cases h with
      | catchAll =>
        obtain rfl : c = '*' := by simpa [DomainPattern.mapKey] using member
        decide
      | suffix normal =>
        simp only [DomainPattern.mapKey, String.toList_append, String.toList_ofList, List.mem_append] at member
        rcases member with dot | inside
        · obtain rfl : c = '.' := by simpa using dot
          decide
        · exact ⟨Nat.le_trans (by decide) (normal.bounds inside).1, (normal.bounds inside).2⟩
      | exact normal =>
        simp only [DomainPattern.mapKey, String.toList_ofList] at member
        exact ⟨Nat.le_trans (by decide) (normal.bounds member).1, (normal.bounds member).2⟩
    constructor
    · exact isBlank_eq_false (Nat.le_trans (by decide) visible.1) (Nat.le_trans visible.2 (by decide))
    · rintro rfl
      exact absurd visible.1 (by decide)
  transport c member := by
    refine ⟨TransportName.validate_shown valid c member, ?_⟩
    rintro rfl
    exact absurd (name.validate_chars valid ':' member) (by decide)

/-! ### The map routes as the matcher does -/

theorem mem_of_lookup {table : List (String × String)} {key value : String} (found : table.lookup key = some value) :
    (key, value) ∈ table := by
  obtain ⟨before, after, rfl, -⟩ := List.lookup_eq_some_iff.mp found
  exact List.mem_append_right _ (List.mem_cons_self ..)

/-- In a table in which no key has two values, every entry is found. -/
theorem lookup_of_mem {table : List (String × String)} {key value : String} (member : (key, value) ∈ table)
    (single : ∀ other, (key, other) ∈ table → other = value) : table.lookup key = some value := by
  cases found : table.lookup key with
  | none => simpa using List.lookup_eq_none_iff.mp found (key, value) member
  | some other => rw [single other (mem_of_lookup found)]

/-- Of keys in descending order the heaviest one with a value decides. -/
theorem findSome?_heaviest {keys : List String} {f : String → Option String} {key value : String}
    (descend : keys.Pairwise fun a b => keyWeight b < keyWeight a) (member : key ∈ keys) (found : f key = some value)
    (heaviest : ∀ other ∈ keys, (f other).isSome = true → keyWeight other ≤ keyWeight key) :
    keys.findSome? f = some value := by
  obtain ⟨before, after, rfl⟩ := List.append_of_mem member
  refine List.findSome?_eq_some_iff.mpr ⟨before, key, after, rfl, found, fun other earlier => ?_⟩
  have heavier := (List.pairwise_append.mp descend).2.2 other earlier key (List.mem_cons_self ..)
  cases value' : f other with
  | none => rfl
  | some _ =>
    have lighter := heaviest other (List.mem_append_left _ earlier) (by rw [value']; rfl)
    omega

variable {fallback : DefaultTransport} {m : Matcher}

/-- Under a key the map has the transport of the rule with this pattern. -/
theorem lookup_key (built : Matcher.build rules fallback = .ok m) (distinct : Distinct rules)
    (names : ∀ rule ∈ rules.filter (·.isActive), rule.transport.validate = .ok ()) {key name : String} :
    (readTable (renderTransportMap rules)).lookup key = some name ↔
      ∃ hit ∈ m.rules, hit.pattern.mapKey = key ∧ hit.transport.text = name := by
  have plain : ∀ e ∈ mapEntries rules, e.Plain := by
    intro e member
    obtain ⟨rule, active, pattern, parsed, rfl⟩ := (mem_mapEntries distinct e).mp member
    exact plain_entry (DomainPattern.parse_normal parsed) (names rule active)
  have entries {key name : String} : (key, name) ∈ (mapEntries rules).map (fun e => (e.key, e.transport.text)) ↔
      ∃ hit ∈ m.rules, hit.pattern.mapKey = key ∧ hit.transport.text = name := by
    constructor
    · intro member
      obtain ⟨e, inside, same⟩ := List.mem_map.mp member
      obtain ⟨rule, active, pattern, parsed, rfl⟩ := (mem_mapEntries distinct e).mp inside
      obtain ⟨rfl, rfl⟩ := Prod.mk.inj same
      exact ⟨_, (Matcher.mem_rules built _).mpr ⟨rule, active, pattern, parsed, rfl⟩, rfl, rfl⟩
    · rintro ⟨hit, member, rfl, rfl⟩
      obtain ⟨rule, active, pattern, parsed, rfl⟩ := (Matcher.mem_rules built hit).mp member
      exact List.mem_map.mpr ⟨_, (mem_mapEntries distinct _).mpr ⟨rule, active, pattern, parsed, rfl⟩, rfl⟩
  rw [readTable_render plain]
  constructor
  · exact fun found => entries.mp (mem_of_lookup found)
  · intro written
    refine lookup_of_mem (entries.mpr written) fun other member => ?_
    obtain ⟨hit, inside, rfl, rfl⟩ := written
    obtain ⟨hit', inside', same, rfl⟩ := entries.mp member
    obtain ⟨rule, active, pattern, parsed, rfl⟩ := (Matcher.mem_rules built hit).mp inside
    obtain ⟨rule', active', pattern', parsed', rfl⟩ := (Matcher.mem_rules built hit').mp inside'
    have one : pattern' = pattern :=
      (DomainPattern.parse_normal parsed').eq_of_mapKey (DomainPattern.parse_normal parsed) same
    rw [distinct.eq active' active (parsed'.trans (one ▸ parsed.symm))]

/-- Looking up finds the transport of the rule that the matcher picks. -/
theorem lookup_eq (built : Matcher.build rules fallback = .ok m) (distinct : Distinct rules)
    (names : ∀ rule ∈ rules.filter (·.isActive), rule.transport.validate = .ok ()) (normal : IsNormal domain.toList) :
    lookup (renderTransportMap rules) domain =
      (m.rules.find? (·.pattern.isMatch domain)).map (·.transport.text) := by
  have readable {hit : CompiledRule} (member : hit ∈ m.rules) : hit.pattern.OfNormal := by
    obtain ⟨rule, -, pattern, parsed, rfl⟩ := (Matcher.mem_rules built hit).mp member
    exact DomainPattern.parse_normal parsed
  -- A key of the domain that is in the map is that of a rule that matches.
  have matching {key : String} (tried : key ∈ lookupKeys domain) {name : String}
      (found : (readTable (renderTransportMap rules)).lookup key = some name) :
      ∃ hit ∈ m.rules, hit.pattern.isMatch domain = true ∧ hit.pattern.mapKey = key := by
    obtain ⟨hit, member, rfl, -⟩ := (lookup_key built distinct names).mp found
    exact ⟨hit, member, (mem_lookupKeys (readable member) normal).mp tried, rfl⟩
  cases picked : m.rules.find? (·.pattern.isMatch domain) with
  | none =>
    refine List.findSome?_eq_none_iff.mpr fun key tried => ?_
    cases found : (readTable (renderTransportMap rules)).lookup key with
    | none => rfl
    | some name =>
      obtain ⟨hit, member, matched, -⟩ := matching tried found
      exact absurd matched (List.find?_eq_none.mp picked hit member)
  | some hit =>
    have member := List.mem_of_find?_eq_some picked
    have matched : hit.pattern.isMatch domain = true := by
      simpa using List.find?_some picked
    refine findSome?_heaviest (lookupKeys_descend normal) ((mem_lookupKeys (readable member) normal).mpr matched)
      ((lookup_key built distinct names).mpr ⟨hit, member, rfl, rfl⟩) fun key tried found => ?_
    obtain ⟨name, found⟩ := Option.isSome_iff_exists.mp found
    obtain ⟨other, inside, also, rfl⟩ := matching tried found
    rw [← literalLength_eq (readable inside), ← literalLength_eq (readable member)]
    exact Matcher.longest_match built picked inside also

/-- The mail server routes by the rendered map as the engine does by its rules. It finds a transport for a domain if
and only if the engine picks a rule with that transport, and nothing if and only if the engine takes the default. -/
theorem transport_map_routes (built : Matcher.build rules fallback = .ok m)
    (distinct : (rules.filter (·.isActive)).Pairwise (·.parsedPattern ≠ ·.parsedPattern))
    (names : ∀ rule ∈ rules.filter (·.isActive), rule.transport.validate = .ok ()) {raw : String}
    (normal : normalizeDomain raw = some domain) : ∃ route, m.resolve raw = .ok route ∧
      (∀ name, lookup (renderTransportMap rules) domain = some name ↔
        route.ruleId.isSome = true ∧ route.transport.text = name) ∧
      (lookup (renderTransportMap rules) domain = none ↔
        route.ruleId = none ∧ route.transport = fallback.name) := by
  obtain ⟨chars, normalized, rfl⟩ := Option.map_eq_some_iff.mp normal
  have readable : IsNormal (String.ofList chars).toList := by
    rw [String.toList_ofList]
    exact (normalizeChars_eq_some.mp normalized).1
  have looked := lookup_eq built distinct names readable
  refine ⟨m.route (String.ofList chars), ?_, ?_⟩
  · rw [Matcher.resolve, normal]
  · rw [looked, Matcher.route]
    cases m.rules.find? (·.pattern.isMatch (String.ofList chars)) with
    | none => simp [Matcher.fallback_name built]
    | some hit => simp

/-- Of two suffix rules the one that would be more specific is not active. -/
theorem transport_map_routes_subdomain :
    let rule (id : Nat) (pattern transport : String) (active : Bool) : TransportRule :=
      { id, pattern, transport := ⟨transport⟩, limits := ⟨2, 0⟩, isActive := active, description := none }
    let rules := [rule 1 "*.example.org" "below" true, rule 2 "*.mail.example.org" "off" false]
    ∃ m, Matcher.build rules .standard = .ok m ∧
      lookup (renderTransportMap rules) "a.mail.example.org" = some "below" := by
  intro rule rules
  have made : (Matcher.build rules .standard).toOption.map (fun m => (m.resolve "a.mail.example.org").toOption) =
      some (some ⟨⟨"below"⟩, ⟨2, 0⟩, some 1⟩) := by decide +kernel
  obtain ⟨m, built, resolved⟩ := Option.map_eq_some_iff.mp made
  have built := Store.ok_of_toOption built
  have distinct : (rules.filter (·.isActive)).Pairwise (·.parsedPattern ≠ ·.parsedPattern) := List.pairwise_singleton _ _
  have names : ∀ rule ∈ rules.filter (·.isActive), rule.transport.validate = .ok () := fun rule member => by
    obtain rfl := List.mem_singleton.mp member
    exact Store.ok_of_toOption (by decide +kernel)
  have normal : normalizeDomain "a.mail.example.org" = some "a.mail.example.org" := by decide +kernel
  obtain ⟨route, routed, found, -⟩ := transport_map_routes built distinct names normal
  have same : route = ⟨⟨"below"⟩, ⟨2, 0⟩, some 1⟩ := by
    rw [routed] at resolved
    exact Option.some.inj resolved
  exact ⟨m, built, (found "below").mpr (same ▸ ⟨rfl, rfl⟩)⟩

end RelayRamp.Postfix
