import RelayRamp.Postfix.ServiceBlock
import RelayRamp.Proofs.Routing.Selection

/-!
# Limits of the declared services

The mail server reads a file of services by logical lines: a line that starts with a blank belongs to the one before. A
service has eight columns and then its settings. What is read from the block are the limits that the rules of each
transport combine to. The matcher adds to those of the default transport the limits that it has of itself.
-/
namespace RelayRamp.Routing

open RelayRamp.Store

namespace Roster

variable {withDefault byRules : Roster TransportLimits} {fallback : DefaultTransport}

/-- Two rosters that differ by the limits of the default transport, which are merged into one of them. -/
def Overlaid (fallback : DefaultTransport) (withDefault byRules : Roster TransportLimits) : Prop :=
  ∀ name, withDefault.get? name =
    if name = fallback.name then some (((byRules.get? name).map fallback.limits.merge).getD fallback.limits)
    else byRules.get? name

/-- One more rule leaves the difference as it is, also when it routes to the default transport. -/
theorem Overlaid.upsert (h : Overlaid fallback withDefault byRules) (sorted : withDefault.Sorted)
    (sorted' : byRules.Sorted) (limits : TransportLimits) (target : TransportName) :
    Overlaid fallback (withDefault.upsert (fun found => (found.map (·.merge limits)).getD limits) target)
      (byRules.upsert (fun found => (found.map (·.merge limits)).getD limits) target) := by
  have assoc (a b : TransportLimits) : (a.merge b).merge limits = a.merge (b.merge limits) := by
    simp only [TransportLimits.merge, Nat.min_assoc, Nat.max_assoc]
  intro name
  by_cases routed : name = target
  · subst routed
    rw [sorted.get?_upsert_self, sorted'.get?_upsert_self, h name]
    by_cases default : name = fallback.name
    · rw [if_pos default, if_pos default]
      cases byRules.get? name with
      | none => rfl
      | some sofar => exact congrArg some (assoc fallback.limits sofar)
    · rw [if_neg default, if_neg default]
  · rw [get?_upsert_other routed, get?_upsert_other routed]
    exact h name

theorem Overlaid.rosterOf (h : Overlaid fallback withDefault byRules) (sorted : withDefault.Sorted)
    (sorted' : byRules.Sorted) (rules : List RuleDraft) :
    Overlaid fallback (rosterOf withDefault rules) (rosterOf byRules rules) := by
  induction rules generalizing withDefault byRules with
  | nil => exact h
  | cons rule rest ih => exact ih (h.upsert sorted sorted' rule.limits rule.transport) sorted.upsert sorted'.upsert

end Roster

/-- The matcher has the limits of the rules with those of the default transport. -/
theorem Matcher.transports_overlaid {rules : List TransportRule} {fallback : DefaultTransport} {m : Matcher}
    (built : build rules fallback = .ok m) :
    Roster.Overlaid fallback m.transports (rosterOf [] ((rules.filter (·.isActive)).map (·.toRuleDraft))) := by
  obtain ⟨⟨⟩, -, built⟩ := ok_of_bind built
  obtain ⟨compiled, -, built⟩ := ok_of_bind built
  cases built
  have start : Roster.Overlaid fallback [(fallback.name, fallback.limits)] [] := fun name => by
    simp [Roster.get?, eq_comm]
  exact start.rosterOf (List.pairwise_singleton _ _) List.Pairwise.nil _

end RelayRamp.Routing

namespace RelayRamp.Postfix

open RelayRamp.Routing RelayRamp.Text

/-! ### How the mail server reads the file -/

/-- A service with the limits that its line and its settings give. -/
structure Service where
  name : String
  /-- The bound on processes, from the line. -/
  processes : Nat
  /-- The bound on deliveries to one destination at a time, from the settings. -/
  concurrency : Nat
  /-- Seconds from one delivery to the next, from the settings; zero if they say nothing. -/
  rateDelay : Nat
  deriving DecidableEq, Repr

/-- The line belongs to the one before. -/
def continues : List Char → Bool
  | [] => false
  | c :: _ => isBlank c

/-- The line is neither empty nor a comment. -/
def speaks (line : List Char) : Bool :=
  match line.dropWhile isBlank with
  | [] => false
  | c :: _ => c ≠ '#'

/-- The words of each logical line. -/
def logicalLines : List (List Char) → List (List (List Char))
  | [] => []
  | line :: rest =>
    if continues line then logicalLines rest
    else (words line ++ (rest.takeWhile continues).flatMap words) :: logicalLines rest

/-- The names and values that the arguments set. -/
def settings : List (List Char) → List (List Char × List Char)
  | flag :: setting :: rest =>
    if flag = ['-', 'o'] then (splitFirst '=' setting).toList ++ settings rest else settings (setting :: rest)
  | _ => []

/-- A time in seconds. -/
def seconds? (value : List Char) : Option Nat :=
  match splitFirst 's' value with
  | some (digits, []) => number? digits
  | _ => none

def concurrencySetting : List Char := "smtp_destination_concurrency_limit".toList
def rateDelaySetting : List Char := "smtp_destination_rate_delay".toList

def readService : List (List Char) → Option Service
  | name :: _ :: _ :: _ :: _ :: _ :: processes :: _ :: arguments => do
    let processes ← number? processes
    let concurrency ← ((settings arguments).lookup concurrencySetting).bind number?
    let rateDelay ← (((settings arguments).lookup rateDelaySetting).map seconds?).getD (some 0)
    pure ⟨String.ofList name, processes, concurrency, rateDelay⟩
  | _ => none

/-- The services of a file that have a bound on concurrent deliveries. -/
def services (text : String) : List Service :=
  (logicalLines ((splitOn '\n' text.toList).filter speaks)).filterMap readService

/-! ### Reading what was written -/

/-- The text of a block that declares these limits. -/
def blockOf (declared : Roster TransportLimits) : String :=
  String.join ((startMarker :: declared.flatMap (fun (name, limits) => serviceLines name limits) ++ [endMarker]).map
    (· ++ "\n"))

/-- What the block says of a transport. -/
def declaration (entry : TransportName × TransportLimits) : Service :=
  ⟨entry.1.text, entry.2.concurrency, entry.2.concurrency, entry.2.rateDelaySeconds⟩

section

variable (name : TransportName) (limits : TransportLimits)

def headLine : List Char :=
  name.text.toList ++ ' ' :: ("   unix  -       -       n       -      ".toList ++
    ' ' :: ((toString limits.concurrency).toList ++ ' ' :: "      smtp".toList))

/-- What the service sets, by name. -/
def serviceSettings : List (List Char × List Char) :=
  [("syslog_name".toList, "postfix/".toList ++ name.text.toList),
    (concurrencySetting, (toString limits.concurrency).toList)] ++
    if limits.rateDelaySeconds > 0 then
      [(rateDelaySetting, (toString limits.rateDelaySeconds).toList ++ ['s'])]
    else []

def settingLine (setting : List Char × List Char) : List Char :=
  "  -o".toList ++ ' ' :: (setting.1 ++ '=' :: setting.2)

theorem serviceLines_toList : (serviceLines name limits).map String.toList =
    headLine name limits :: (serviceSettings name limits).map settingLine := by
  have head : (s!"{name.text}    unix  -       -       n       -       {limits.concurrency}       smtp").toList =
      headLine name limits := by
    change (toString name.text ++ "    unix  -       -       n       -       " ++ toString limits.concurrency ++
      "       smtp").toList = _
    simp only [String.toList_append, List.append_assoc]
    rfl
  have log : (s!"  -o syslog_name=postfix/{name.text}").toList =
      settingLine ("syslog_name".toList, "postfix/".toList ++ name.text.toList) :=
    String.toList_append
  have bound : (s!"  -o smtp_destination_concurrency_limit={limits.concurrency}").toList =
      settingLine (concurrencySetting, (toString limits.concurrency).toList) :=
    String.toList_append
  have delay : (s!"  -o smtp_destination_rate_delay={limits.rateDelaySeconds}s").toList =
      settingLine (rateDelaySetting, (toString limits.rateDelaySeconds).toList ++ ['s']) := by
    change ("  -o smtp_destination_rate_delay=" ++ toString limits.rateDelaySeconds ++ "s").toList = _
    simp only [String.toList_append, List.append_assoc]
    rfl
  rw [serviceLines, serviceSettings, List.map_append, List.map_append]
  split
  · simp only [List.map_cons, List.map_nil, head, log, bound, delay]
    rfl
  · simp only [List.map_cons, List.map_nil, head, log, bound]
    rfl

end

/-- Nothing in the setting can be taken for the format of the line. -/
structure PlainSetting (setting : List Char × List Char) : Prop where
  name : ∀ c ∈ setting.1, isBlank c = false ∧ c ≠ '='
  value : ∀ c ∈ setting.2, isBlank c = false

/-- The names of the settings have neither blanks nor the sign before the value. -/
theorem setting_names : ∀ setting ∈ ["syslog_name".toList, concurrencySetting, rateDelaySetting],
    ∀ c ∈ setting, isBlank c = false ∧ c ≠ '=' := by
  have each : ["syslog_name".toList, concurrencySetting, rateDelaySetting].all
      (fun setting => setting.all fun c => !isBlank c && c != '=') = true := by decide
  intro setting named c member
  simpa using List.all_eq_true.mp (List.all_eq_true.mp each setting named) c member

theorem PlainSetting.words_settingLine {setting : List Char × List Char} (h : PlainSetting setting) :
    words (settingLine setting) = [['-', 'o'], setting.1 ++ '=' :: setting.2] := by
  have shown : ∀ c ∈ setting.1 ++ '=' :: setting.2, isBlank c = false := by
    intro c member
    rcases List.mem_append.mp member with inside | inside
    · exact (h.name c inside).1
    · rcases List.mem_cons.mp inside with rfl | inside
      · decide
      · exact h.value c inside
  have flag : words "  -o".toList = [['-', 'o']] := by decide
  rw [settingLine, words_append_blank _ (by decide), flag, words_eq shown (by simp)]
  rfl

/-- Settings are read back from their lines. -/
theorem settings_settingLines {all : List (List Char × List Char)} (plain : ∀ setting ∈ all, PlainSetting setting) :
    settings ((all.map settingLine).flatMap words) = all := by
  induction all with
  | nil => rfl
  | cons setting rest ih =>
    obtain ⟨first, others⟩ := List.forall_mem_cons.mp plain
    have parted := splitFirst_eq (fun member => (first.name _ member).2 rfl) setting.2
    rw [List.map_cons, List.flatMap_cons, first.words_settingLine, List.cons_append, List.cons_append,
      settings, if_pos rfl, parted]
    exact congrArg (setting :: ·) (ih others)

/-- Lines that continue another one end with the next one that does not. -/
theorem logicalLines_append {continuing : List (List Char)} (all : ∀ line ∈ continuing, continues line = true)
    (rest : List (List Char)) : logicalLines (continuing ++ rest) = logicalLines rest := by
  induction continuing with
  | nil => rfl
  | cons line others ih =>
    obtain ⟨first, later⟩ := List.forall_mem_cons.mp all
    rw [List.cons_append, logicalLines, if_pos first, ih later]

theorem logicalLines_eq {groups : List (List Char × List (List Char))}
    (grouped : ∀ group ∈ groups, continues group.1 = false ∧ ∀ line ∈ group.2, continues line = true) :
    logicalLines (groups.flatMap fun group => group.1 :: group.2) =
      groups.map fun group => words group.1 ++ group.2.flatMap words := by
  induction groups with
  | nil => rfl
  | cons group rest ih =>
    obtain ⟨⟨starts, continued⟩, others⟩ := List.forall_mem_cons.mp grouped
    have stops : (rest.flatMap fun group => group.1 :: group.2).takeWhile continues = [] := by
      cases rest with
      | nil => rfl
      | cons next rest =>
        have ends := (others next (List.mem_cons_self ..)).1
        exact List.takeWhile_cons_of_neg (by simp [ends])
    rw [List.flatMap_cons, List.cons_append, logicalLines, if_neg (by simp [starts]), List.takeWhile_append_of_pos continued,
      stops, List.append_nil, logicalLines_append continued, ih others, List.map_cons]

theorem toString_shown (n : Nat) : ∀ c ∈ (toString n).toList, isBlank c = false := by
  intro c member
  have bounds := (le_and_le_iff '0' '9' c).mp (isDigit_toString n c member)
  exact isBlank_eq_false (Nat.le_trans (by decide) bounds.1) (Nat.le_trans bounds.2 (by decide))

section

variable {name : TransportName} (valid : name.validate = .ok ()) (limits : TransportLimits)

include valid

theorem serviceSettings_plain : ∀ setting ∈ serviceSettings name limits, PlainSetting setting := by
  have path_shown : "postfix/".toList.all (fun c => !isBlank c) = true := by decide
  have log : PlainSetting ("syslog_name".toList, "postfix/".toList ++ name.text.toList) := by
    refine ⟨setting_names _ (by simp), fun c member => ?_⟩
    rcases List.mem_append.mp member with path | inside
    · simpa using List.all_eq_true.mp path_shown c path
    · exact TransportName.validate_shown valid c inside
  have bound : PlainSetting (concurrencySetting, (toString limits.concurrency).toList) :=
    ⟨setting_names _ (by simp), toString_shown _⟩
  have delay : PlainSetting (rateDelaySetting, (toString limits.rateDelaySeconds).toList ++ ['s']) := by
    refine ⟨setting_names _ (by simp), fun c member => ?_⟩
    rcases List.mem_append.mp member with digit | unit
    · exact toString_shown _ c digit
    · obtain rfl := List.mem_singleton.mp unit
      decide
  intro setting member
  rw [serviceSettings] at member
  split at member
  · simp only [List.mem_append, List.mem_cons, List.not_mem_nil, or_false] at member
    rcases member with (rfl | rfl) | rfl
    exacts [log, bound, delay]
  · simp only [List.mem_append, List.mem_cons, List.not_mem_nil, or_false] at member
    rcases member with rfl | rfl
    exacts [log, bound]

theorem words_headLine : words (headLine name limits) =
    [name.text.toList, "unix".toList, ['-'], ['-'], ['n'], ['-'], (toString limits.concurrency).toList, "smtp".toList] := by
  have columns : words "   unix  -       -       n       -      ".toList =
      ["unix".toList, ['-'], ['-'], ['n'], ['-']] := by decide
  have command : words "      smtp".toList = ["smtp".toList] := by decide
  have blank : isBlank ' ' = true := by decide
  rw [headLine, words_append_blank _ blank, words_append_blank _ blank, words_append_blank _ blank, columns, command,
    words_eq (TransportName.validate_shown valid) (TransportName.validate_nonempty valid),
    words_eq (toString_shown _) (toString_nonempty _)]
  rfl

/-- A service is read back from the words of its lines. -/
theorem readService_words : readService (words (headLine name limits) ++
    ((serviceSettings name limits).map settingLine).flatMap words) = some (declaration (name, limits)) := by
  have apart : (concurrencySetting == "syslog_name".toList) = false ∧
      (rateDelaySetting == "syslog_name".toList) = false ∧ (rateDelaySetting == concurrencySetting) = false := by
    decide
  have bound : (serviceSettings name limits).lookup concurrencySetting = some (toString limits.concurrency).toList := by
    simp only [serviceSettings, List.cons_append, List.lookup_cons, apart.1, beq_self_eq_true]
  have delay : (((serviceSettings name limits).lookup rateDelaySetting).map seconds?).getD (some 0) =
      some limits.rateDelaySeconds := by
    simp only [serviceSettings, List.cons_append, List.nil_append, List.lookup_cons, apart.2.1, apart.2.2]
    by_cases waits : limits.rateDelaySeconds > 0
    · have unitless : 's' ∉ (toString limits.rateDelaySeconds).toList := fun member =>
        absurd (isDigit_toString _ _ member) (by decide)
      rw [if_pos waits]
      simp only [List.lookup_cons_self, Option.map_some, Option.getD_some, seconds?, splitFirst_eq unitless,
        number?_toString]
    · rw [if_neg waits, Nat.eq_zero_of_not_pos waits]
      rfl
  rw [words_headLine valid]
  simp only [List.cons_append, List.nil_append, readService, settings_settingLines (serviceSettings_plain valid limits),
    bound, delay, number?_toString, Option.bind_some, Option.bind_eq_bind, String.ofList_toList]
  rfl

theorem headLine_starts : continues (headLine name limits) = false ∧ speaks (headLine name limits) = true := by
  obtain ⟨c, rest, chars⟩ := List.exists_cons_of_ne_nil (TransportName.validate_nonempty valid)
  have member : c ∈ name.text.toList := chars ▸ List.mem_cons_self ..
  have shown := TransportName.validate_shown valid c member
  have letter : c ≠ '#' := by
    rintro rfl
    exact absurd (name.validate_chars valid '#' member) (by decide)
  have start : headLine name limits = c :: (headLine name limits).tail := by
    rw [headLine, chars]
    rfl
  rw [start]
  refine ⟨shown, ?_⟩
  rw [speaks, List.dropWhile_cons_of_neg (by simp [shown])]
  exact decide_eq_true letter

end

/-! ### Characters that the lines of a service do not have -/

section

variable {c : Char} (special : c = '\n' ∨ c = '#')

include special

theorem unnamed : TransportName.isNameChar c = false := by
  rcases special with rfl | rfl
  · decide
  · decide

theorem number_lacks (n : Nat) : c ∉ (toString n).toList := by
  intro member
  have digit := isDigit_toString n c member
  rcases special with rfl | rfl
  · exact absurd digit (by decide)
  · exact absurd digit (by decide)

theorem name_lacks {name : TransportName} (valid : name.validate = .ok ()) : c ∉ name.text.toList := fun member =>
  Bool.false_ne_true ((unnamed special).symm.trans (name.validate_chars valid c member))

theorem headLine_lacks {name : TransportName} (valid : name.validate = .ok ()) (limits : TransportLimits) :
    c ∉ headLine name limits := by
  have fixed : c ≠ ' ' ∧ c ∉ "   unix  -       -       n       -      ".toList ∧ c ∉ "      smtp".toList := by
    rcases special with rfl | rfl
    · decide
    · decide
  simp only [headLine, List.mem_append, List.mem_cons, name_lacks special valid, number_lacks special, fixed.1, fixed.2.1,
    fixed.2.2, or_self, not_false_eq_true]

theorem settingLine_lacks {name : TransportName} (valid : name.validate = .ok ()) (limits : TransportLimits) :
    ∀ setting ∈ serviceSettings name limits, c ∉ settingLine setting := by
  have signs : c ≠ ' ' ∧ c ≠ '=' ∧ c ≠ 's' ∧ c ∉ "  -o".toList ∧ c ∉ "postfix/".toList := by
    rcases special with rfl | rfl
    · decide
    · decide
  have keys : c ∉ "syslog_name".toList ∧ c ∉ concurrencySetting ∧ c ∉ rateDelaySetting := by
    rcases special with rfl | rfl
    · decide
    · decide
  have delay : c ∉ settingLine (rateDelaySetting, (toString limits.rateDelaySeconds).toList ++ ['s']) := by
    simp only [settingLine, List.mem_append, List.mem_cons, List.not_mem_nil, number_lacks special, signs, keys, or_self,
      not_false_eq_true]
  intro setting member
  simp only [serviceSettings, List.mem_append, List.mem_cons, List.not_mem_nil, or_false] at member
  rcases member with (rfl | rfl) | member
  · simp only [settingLine, List.mem_append, List.mem_cons, name_lacks special valid, signs, keys, or_self,
      not_false_eq_true]
  · simp only [settingLine, List.mem_append, List.mem_cons, number_lacks special, signs, keys, or_self, not_false_eq_true]
  · split at member
    · obtain rfl := List.mem_singleton.mp member
      exact delay
    · cases member

end

/-- The lines of a service. -/
def lineGroup (entry : TransportName × TransportLimits) : List Char × List (List Char) :=
  (headLine entry.1 entry.2, (serviceSettings entry.1 entry.2).map settingLine)

/-- The lines of a block that stand between the markers. -/
def bodyLines (declared : Roster TransportLimits) : List (List Char) :=
  (declared.map lineGroup).flatMap fun group => group.1 :: group.2

theorem mem_bodyLines {declared : Roster TransportLimits} {line : List Char} (member : line ∈ bodyLines declared) :
    ∃ entry ∈ declared, line = headLine entry.1 entry.2 ∨
      ∃ setting ∈ serviceSettings entry.1 entry.2, line = settingLine setting := by
  obtain ⟨_, grouped, member⟩ := List.mem_flatMap.mp member
  obtain ⟨entry, present, rfl⟩ := List.mem_map.mp grouped
  refine ⟨entry, present, ?_⟩
  rcases List.mem_cons.mp member with rfl | member
  · exact Or.inl rfl
  · obtain ⟨setting, set, rfl⟩ := List.mem_map.mp member
    exact Or.inr ⟨setting, set, rfl⟩

theorem bodyLines_eq (declared : Roster TransportLimits) :
    (declared.flatMap fun (name, limits) => serviceLines name limits).map String.toList = bodyLines declared := by
  rw [List.map_flatMap, bodyLines, List.flatMap_map]
  exact congrArg (List.flatMap · declared) (funext fun entry => serviceLines_toList entry.1 entry.2)

theorem blockOf_toList (declared : Roster TransportLimits) : (blockOf declared).toList =
    (startMarker.toList :: bodyLines declared ++ [endMarker.toList]).flatMap (· ++ ['\n']) := by
  have body := bodyLines_eq declared
  have ended : (fun line : String => (line ++ "\n").toList) = fun line => line.toList ++ ['\n'] :=
    funext fun line => String.toList_append
  rw [blockOf, String.toList_join, ← body, List.flatMap_map, ended]
  simp only [List.cons_append, List.flatMap_cons, List.flatMap_append, List.flatMap_map, List.flatMap_nil, List.append_nil]

/-- The lines between the markers have neither line ends nor what a comment begins with. -/
theorem bodyLines_lack {declared : Roster TransportLimits} (valid : ∀ entry ∈ declared, entry.1.validate = .ok ())
    {c : Char} (special : c = '\n' ∨ c = '#') : ∀ line ∈ bodyLines declared, c ∉ line := by
  intro line member
  obtain ⟨entry, present, rfl | ⟨setting, set, rfl⟩⟩ := mem_bodyLines member
  · exact headLine_lacks special (valid entry present) entry.2
  · exact settingLine_lacks special (valid entry present) entry.2 setting set

theorem blockOf_unbroken {declared : Roster TransportLimits} (valid : ∀ entry ∈ declared, entry.1.validate = .ok ()) :
    ∀ line ∈ startMarker.toList :: bodyLines declared ++ [endMarker.toList], '\n' ∉ line :=
  List.forall_mem_append.mpr ⟨List.forall_mem_cons.mpr ⟨by decide, bodyLines_lack valid (Or.inl rfl)⟩,
    by decide⟩

/-- The services of a block are what it declares. -/
theorem services_blockOf {declared : Roster TransportLimits} (valid : ∀ entry ∈ declared, entry.1.validate = .ok ()) :
    services (blockOf declared) = declared.map declaration := by
  have spoken : (startMarker.toList :: bodyLines declared ++ [endMarker.toList] ++ [[]]).filter speaks =
      bodyLines declared := by
    have markers : speaks startMarker.toList = false ∧ [endMarker.toList, []].filter speaks = [] := by decide
    have all : ∀ line ∈ bodyLines declared, speaks line = true := by
      intro line member
      obtain ⟨entry, present, rfl | ⟨setting, -, rfl⟩⟩ := mem_bodyLines member
      · exact (headLine_starts (valid entry present) entry.2).2
      · rfl
    rw [List.append_assoc, List.cons_append, List.filter_cons_of_neg (by simp [markers.1]), List.filter_append,
      List.filter_eq_self.mpr all]
    exact (congrArg (bodyLines declared ++ ·) markers.2).trans (List.append_nil _)
  have grouped : ∀ group ∈ declared.map lineGroup,
      continues group.1 = false ∧ ∀ line ∈ group.2, continues line = true := by
    intro group member
    obtain ⟨entry, present, rfl⟩ := List.mem_map.mp member
    refine ⟨(headLine_starts (valid entry present) entry.2).1, fun line member => ?_⟩
    obtain ⟨setting, -, rfl⟩ := List.mem_map.mp member
    rfl
  rw [services, blockOf_toList, splitOn_lines (blockOf_unbroken valid), spoken, bodyLines, logicalLines_eq grouped, List.map_map,
    List.filterMap_map, ← List.filterMap_eq_map]
  exact List.filterMap_congr fun entry present => readService_words (valid entry present) entry.2

/-! ### Limits of the matcher and of the block -/

variable {rules : List TransportRule} {fallback : DefaultTransport} {m : Matcher}

/-- The block declares each transport that an active rule names, once, with the limits that the matcher has for it.
For the default transport the matcher has these merged with the limits of the default transport. If the names are valid,
the declared limits are those that the mail server reads. -/
theorem service_block_limits (built : Matcher.build rules fallback = .ok m) :
    ∃ declared : Roster TransportLimits, renderServiceBlock rules = blockOf declared ∧
      (declared.map (·.1)).Nodup ∧
      (∀ name, name ∈ declared.map (·.1) ↔ ∃ rule ∈ rules.filter (·.isActive), rule.transport = name) ∧
      (∀ name limits, (name, limits) ∈ declared → m.transports.get? name =
        some (if name = fallback.name then fallback.limits.merge limits else limits)) ∧
      ((∀ rule ∈ rules.filter (·.isActive), rule.transport.validate = .ok ()) →
        services (renderServiceBlock rules) = declared.map declaration) := by
  let declared := rosterOf [] ((rules.filter (·.isActive)).map (·.toRuleDraft))
  have sorted : declared.Sorted := rosterOf_sorted List.Pairwise.nil
  have named (name : TransportName) :
      name ∈ declared.map (·.1) ↔ ∃ rule ∈ rules.filter (·.isActive), rule.transport = name := by
    constructor
    · intro member
      obtain ⟨entry, inside, rfl⟩ := List.mem_map.mp member
      rcases mem_rosterOf inside with start | ⟨draft, drafted, same⟩
      · cases start
      · obtain ⟨rule, active, rfl⟩ := List.mem_map.mp drafted
        exact ⟨rule, active, same⟩
    · rintro ⟨rule, active, rfl⟩
      have listed : declared.Lists rule.transport := rosterOf_lists (List.mem_map_of_mem active)
      obtain ⟨limits, found⟩ := Option.isSome_iff_exists.mp listed
      exact List.mem_map_of_mem (Roster.mem_of_get? found)
  refine ⟨declared, rfl, sorted.nodup, named, fun name limits member => ?_, fun valid => ?_⟩
  · rw [Matcher.transports_overlaid built name, sorted.get?_of_mem member]
    split <;> rfl
  · refine services_blockOf fun entry member => ?_
    obtain ⟨rule, active, same⟩ := (named entry.1).mp (List.mem_map_of_mem member)
    exact same ▸ valid rule active

/-- Two rules share a transport, and a third one is not active. -/
theorem service_block_limits_shared :
    let rule (id : Nat) (pattern : String) (limits : TransportLimits) (active : Bool) : TransportRule :=
      { id, pattern, transport := ⟨"bulk"⟩, limits, isActive := active, description := none }
    let rules := [rule 1 "*.example.org" ⟨5, 1⟩ true, rule 2 "example.org" ⟨3, 0⟩ true, rule 3 "*" ⟨1, 9⟩ false]
    ∃ m, Matcher.build rules .standard = .ok m ∧ ∃ service ∈ services (renderServiceBlock rules),
      service.name = "bulk" ∧ m.transports.get? ⟨"bulk"⟩ = some ⟨service.concurrency, service.rateDelay⟩ := by
  intro rule rules
  have made : (Matcher.build rules .standard).toOption.isSome = true := by decide +kernel
  obtain ⟨m, built⟩ := Option.isSome_iff_exists.mp made
  have built := Store.ok_of_toOption built
  obtain ⟨declared, -, -, named, limited, read⟩ := service_block_limits built
  have listed := (named ⟨"bulk"⟩).mpr ⟨rule 1 "*.example.org" ⟨5, 1⟩ true, List.mem_cons_self .., rfl⟩
  obtain ⟨⟨name, limits⟩, member, rfl⟩ := List.mem_map.mp listed
  have valid : ∀ rule ∈ rules.filter (·.isActive), rule.transport.validate = .ok () := by
    intro rule active
    have bulk : rule.transport = ⟨"bulk"⟩ := by
      rcases List.mem_cons.mp active with rfl | later
      · rfl
      · obtain rfl := List.mem_singleton.mp later
        rfl
    exact bulk ▸ Store.ok_of_toOption (by decide +kernel)
  refine ⟨m, built, declaration (⟨"bulk"⟩, limits), read valid ▸ List.mem_map_of_mem member, rfl, ?_⟩
  exact limited ⟨"bulk"⟩ limits member

/-- A rule may route to the default transport by its name. The block has the limits of the rule alone, and the matcher
has tighter ones. -/
theorem service_block_omits_default :
    let rules : List TransportRule :=
      [{ id := 1, pattern := "*", transport := ⟨"relay"⟩, limits := ⟨10, 0⟩, isActive := true, description := none }]
    ∃ m, Matcher.build rules ⟨⟨"relay"⟩, ⟨2, 5⟩⟩ = .ok m ∧
      services (renderServiceBlock rules) = [⟨"relay", 10, 10, 0⟩] ∧ m.transports.get? ⟨"relay"⟩ = some ⟨2, 5⟩ := by
  intro rules
  have made : (Matcher.build rules ⟨⟨"relay"⟩, ⟨2, 5⟩⟩).toOption.map (·.transports.get? ⟨"relay"⟩) = some (some ⟨2, 5⟩) := by
    decide +kernel
  obtain ⟨m, built, limits⟩ := Option.map_eq_some_iff.mp made
  have declared : renderServiceBlock rules = blockOf [(⟨"relay"⟩, ⟨10, 0⟩)] := rfl
  have read : services (renderServiceBlock rules) = [⟨"relay", 10, 10, 0⟩] := by
    rw [declared, services_blockOf fun entry member => ?_]
    · rfl
    · obtain rfl := List.mem_singleton.mp member
      exact Store.ok_of_toOption (by decide +kernel)
  exact ⟨m, Store.ok_of_toOption built, read, limits⟩

end RelayRamp.Postfix
