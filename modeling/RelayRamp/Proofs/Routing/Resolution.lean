import Mathlib.Data.List.Nodup
import Mathlib.Data.List.Perm.Basic
import RelayRamp.Proofs.Routing.Selection

/-!
# What a matcher resolves to

The answers of a matcher, said from the rules it was built from. A domain goes to the active rule that matches it with
the longest literal part, of equally long ones to that with the smallest id, else to the default transport. The limits
are the least bound and the widest spacing of everything that gives the transport limits. Neither the order of the
rules nor anything about inactive ones enters a matcher at all.
-/
namespace RelayRamp.Routing

open RelayRamp.Store

/-! ### Limits that combine -/

namespace TransportLimits

/-- The tightest of the bounds and the widest of the spacings. -/
def Combines (limits : TransportLimits) (parts : List TransportLimits) : Prop :=
  (parts.map (·.concurrency)).min? = some limits.concurrency ∧
    (parts.map (·.rateDelaySeconds)).max? = some limits.rateDelaySeconds

theorem combines_foldl (first : TransportLimits) (rest : List TransportLimits) :
    (rest.foldl merge first).Combines (first :: rest) := by
  induction rest generalizing first with
  | nil => exact ⟨rfl, rfl⟩
  | cons next rest ih =>
    -- The first two limits are merged before the others come in, on both sides.
    exact ih (first.merge next)

variable {a b : TransportLimits} {parts parts' : List TransportLimits}

theorem Combines.perm (perm : parts'.Perm parts) (h : a.Combines parts) : a.Combines parts' := by
  unfold Combines at h ⊢
  rw [List.min?_eq_some_iff, List.max?_eq_some_iff] at h ⊢
  simpa only [(perm.map _).mem_iff] using h

theorem Combines.unique (here : a.Combines parts) (there : b.Combines parts) : a = b := by
  have bounds := Option.some.inj (here.1.symm.trans there.1)
  have spacings := Option.some.inj (here.2.symm.trans there.2)
  cases a
  cases b
  exact congrArg₂ _ bounds spacings

end TransportLimits

namespace Roster

/-- Two rosters in order that have the same entries are the same. -/
theorem Sorted.ext {α : Type} {a b : Roster α} (ha : a.Sorted) (hb : b.Sorted)
    (same : ∀ name, a.get? name = b.get? name) : a = b := by
  have members (entry : TransportName × α) : entry ∈ a ↔ entry ∈ b :=
    ⟨fun member => mem_of_get? (same entry.1 ▸ ha.get?_of_mem member),
      fun member => mem_of_get? ((same entry.1).symm ▸ hb.get?_of_mem member)⟩
  have perm : a.Perm b :=
    (List.perm_ext_iff_of_nodup (List.Nodup.of_map _ ha.nodup) (List.Nodup.of_map _ hb.nodup)).mpr members
  refine perm.eq_of_pairwise (fun x y _ _ less more => ?_) ha hb
  exact absurd rfl (TransportName.before_ne (TransportName.before_trans less more))

end Roster

/-- Every limit that the name gets: that of the start, and those of the rules that route to it. -/
def limitsOf (start : Option TransportLimits) (rules : List RuleDraft) (name : TransportName) : List TransportLimits :=
  start.toList ++ (rules.filter (·.transport = name)).map (·.limits)

theorem rosterOf_get? {start : Roster TransportLimits} (sorted : start.Sorted) (rules : List RuleDraft)
    (name : TransportName) :
    match (rosterOf start rules).get? name with
    | some limits => limits.Combines (limitsOf (start.get? name) rules name)
    | none => limitsOf (start.get? name) rules name = [] := by
  have folded : (rosterOf start rules).get? name =
      match limitsOf (start.get? name) rules name with
      | [] => none
      | first :: rest => some (rest.foldl TransportLimits.merge first) := by
    induction rules generalizing start with
    | nil => cases found : start.get? name <;> simp [rosterOf, limitsOf, found]
    | cons rule rest ih =>
      refine (ih sorted.upsert).trans ?_
      by_cases routed : rule.transport = name
      · subst routed
        rw [sorted.get?_upsert_self]
        cases found : start.get? rule.transport <;> simp [limitsOf]
      · rw [Roster.get?_upsert_other (Ne.symm routed)]
        simp [limitsOf, routed]
  rw [folded]
  cases limitsOf (start.get? name) rules name with
  | nil => rfl
  | cons first rest => exact TransportLimits.combines_foldl first rest

theorem rosterOf_perm {start : Roster TransportLimits} (sorted : start.Sorted) {rules rules' : List RuleDraft}
    (perm : rules'.Perm rules) : rosterOf start rules' = rosterOf start rules := by
  refine (rosterOf_sorted sorted).ext (rosterOf_sorted sorted) fun name => ?_
  have given : (limitsOf (start.get? name) rules' name).Perm (limitsOf (start.get? name) rules name) :=
    ((perm.filter _).map _).append_left _
  have here := rosterOf_get? sorted rules' name
  have there := rosterOf_get? sorted rules name
  cases found : (rosterOf start rules').get? name with
  | none =>
    cases other : (rosterOf start rules).get? name with
    | none => rfl
    | some limits =>
      rw [found] at here
      rw [other] at there
      simp [TransportLimits.Combines, List.nil_perm.mp (here ▸ given)] at there
  | some limits =>
    cases other : (rosterOf start rules).get? name with
    | none =>
      rw [found] at here
      rw [other] at there
      simp [TransportLimits.Combines, List.perm_nil.mp (there ▸ given)] at here
    | some limits' =>
      rw [found] at here
      rw [other] at there
      exact congrArg some (here.unique (there.perm given))

/-! ### The rule that wins -/

/-- The rule is active and routes the domain by this pattern. -/
structure TransportRule.Routes (rule : TransportRule) (pattern : DomainPattern) (domain : String) : Prop where
  active : rule.isActive = true
  parsed : rule.parsedPattern = .ok pattern
  matched : pattern.isMatch domain = true

/-- Of the active rules that match the domain it has the longest literal part, and of those the smallest id. -/
def Wins (rules : List TransportRule) (domain : String) (rule : TransportRule) : Prop :=
  rule ∈ rules ∧ ∃ pattern, rule.Routes pattern domain ∧
    ∀ other ∈ rules, ∀ pattern', other.Routes pattern' domain →
      pattern'.literalLength < pattern.literalLength ∨
        pattern'.literalLength = pattern.literalLength ∧ rule.id ≤ other.id

/-- Everything that gives a transport limits: the default transport, and the active rules that name it. -/
def limitsNaming (rules : List TransportRule) (fallback : DefaultTransport) (name : TransportName) :
    List TransportLimits :=
  (if fallback.name = name then [fallback.limits] else []) ++
    (rules.filter fun rule => rule.isActive && rule.transport = name).map (·.limits)

theorem same_of_id {rules : List TransportRule} (distinct : (rules.map (·.id)).Nodup) {a b : TransportRule}
    (here : a ∈ rules) (there : b ∈ rules) (same : a.id = b.id) : a = b :=
  List.inj_on_of_nodup_map distinct here there same

theorem Wins.unique {rules : List TransportRule} {domain : String} {a b : TransportRule}
    (distinct : (rules.map (·.id)).Nodup) (here : Wins rules domain a) (there : Wins rules domain b) : a = b := by
  obtain ⟨inside, pattern, routes, best⟩ := here
  obtain ⟨inside', pattern', routes', best'⟩ := there
  have first := best b inside' pattern' routes'
  have second := best' a inside pattern routes
  exact same_of_id distinct inside inside' (by omega)

namespace Matcher

variable {rules others : List TransportRule} {fallback : DefaultTransport} {m : Matcher}

/-- The parts of a matcher that could be built. -/
theorem build_eq_ok : build rules fallback = .ok m ↔
    fallback.validate = .ok () ∧ ∃ compiled, (rules.filter (·.isActive)).mapM compile = .ok compiled ∧
      m = ⟨compiled.mergeSort CompiledRule.precedes,
        rosterOf [(fallback.name, fallback.limits)] ((rules.filter (·.isActive)).map (·.toRuleDraft)),
        fallback.name⟩ := by
  constructor
  · intro built
    obtain ⟨⟨⟩, valid, built⟩ := ok_of_bind built
    obtain ⟨compiled, read, built⟩ := ok_of_bind built
    exact ⟨valid, compiled, read, (Except.ok.inj built).symm⟩
  · rintro ⟨valid, compiled, read, rfl⟩
    simp only [build, valid, read]
    rfl

/-- Whatever a matcher tries first among the rules that match wins. -/
theorem wins_of_find? (built : build rules fallback = .ok m) {domain : String} {hit : CompiledRule}
    (found : m.rules.find? (·.pattern.isMatch domain) = some hit) :
    ∃ rule, Wins rules domain rule ∧ hit.transport = rule.transport ∧ hit.id = rule.id := by
  obtain ⟨matched, before, after, split, missed⟩ := List.find?_eq_some_iff_append.mp found
  obtain ⟨rule, kept, pattern, parsed, rfl⟩ := (mem_rules built hit).mp (List.mem_of_find?_eq_some found)
  obtain ⟨inside, active⟩ := List.mem_filter.mp kept
  refine ⟨rule, ⟨inside, pattern, ⟨active, parsed, matched⟩, fun other there pattern' routes => ?_⟩, rfl, rfl⟩
  have listed : (⟨other.id, pattern', other.transport⟩ : CompiledRule) ∈ m.rules :=
    (mem_rules built _).mpr ⟨other, List.mem_filter.mpr ⟨there, routes.active⟩, pattern', routes.parsed, rfl⟩
  have sorted := rules_sorted built
  rw [split] at sorted listed
  rcases List.mem_append.mp listed with earlier | later
  · have not_matched := missed _ earlier
    rw [routes.matched] at not_matched
    cases not_matched
  · rcases List.mem_cons.mp later with same | later
    · obtain ⟨ids, patterns, -⟩ := CompiledRule.mk.inj same
      exact Or.inr ⟨congrArg _ patterns, Nat.le_of_eq ids.symm⟩
    · have precedes := List.rel_of_pairwise_cons (List.pairwise_append.mp sorted).2.1 later
      simp only [CompiledRule.precedes, Bool.or_eq_true, Bool.and_eq_true, decide_eq_true_eq, beq_iff_eq] at precedes
      omega

theorem unrouted_of_find? (built : build rules fallback = .ok m) {domain : String}
    (missing : m.rules.find? (·.pattern.isMatch domain) = none) {rule : TransportRule} (inside : rule ∈ rules)
    (pattern : DomainPattern) : ¬ rule.Routes pattern domain := by
  intro routes
  have listed := (mem_rules built ⟨rule.id, pattern, rule.transport⟩).mpr
    ⟨rule, List.mem_filter.mpr ⟨inside, routes.active⟩, pattern, routes.parsed, rfl⟩
  exact List.find?_eq_none.mp missing _ listed routes.matched

theorem limits_combine (built : build rules fallback = .ok m) (name : TransportName) :
    match m.transports.get? name with
    | some limits => limits.Combines (limitsNaming rules fallback name)
    | none => limitsNaming rules fallback name = [] := by
  obtain ⟨-, compiled, -, rfl⟩ := build_eq_ok.mp built
  have start : Roster.Sorted [(fallback.name, fallback.limits)] := List.pairwise_singleton _ _
  have same : limitsOf (Roster.get? name [(fallback.name, fallback.limits)])
      ((rules.filter (·.isActive)).map (·.toRuleDraft)) name = limitsNaming rules fallback name := by
    rw [limitsOf, limitsNaming, Roster.get?_cons, List.filter_map, List.map_map, List.filter_filter]
    congr 1
    · split <;> rfl
    · simp [Function.comp_def, Bool.and_comm]
  exact same ▸ rosterOf_get? start _ name

/-! ### Order and inactive rules -/

theorem compiled_perm {active active' : List TransportRule} (perm : active'.Perm active)
    {compiled : List CompiledRule} (read : active.mapM compile = .ok compiled) :
    ∃ compiled', active'.mapM compile = .ok compiled' ∧ compiled'.Perm compiled := by
  obtain ⟨compiled', read'⟩ := exists_mapM (l := active') fun rule member => ok_of_mapM read (perm.mem_iff.mp member)
  have mapped := perm.map compile
  rw [map_of_mapM read, map_of_mapM read'] at mapped
  exact ⟨compiled', read', (List.map_perm_map_iff fun _ _ same => Except.ok.inj same).mp mapped⟩

/-- Rules of different ids can be put in order in one way only. -/
theorem sorted_unique {active : List TransportRule} (distinct : (active.map (·.id)).Nodup)
    {compiled compiled' : List CompiledRule} (read : active.mapM compile = .ok compiled)
    (perm : compiled'.Perm compiled) :
    compiled'.mergeSort CompiledRule.precedes = compiled.mergeSort CompiledRule.precedes := by
  have sorted (rules : List CompiledRule) :=
    List.pairwise_mergeSort CompiledRule.precedes_trans CompiledRule.precedes_total rules
  have origin {rules : List CompiledRule} (same : rules.Perm compiled) {hit : CompiledRule}
      (member : hit ∈ rules.mergeSort CompiledRule.precedes) : ∃ rule ∈ active, compile rule = .ok hit :=
    (mem_of_mapM read hit).mp (same.mem_iff.mp (List.mem_mergeSort.mp member))
  have both := ((List.mergeSort_perm compiled' CompiledRule.precedes).trans perm).trans
    (List.mergeSort_perm compiled CompiledRule.precedes).symm
  refine both.eq_of_pairwise (fun a b here there first second => ?_) (sorted compiled') (sorted compiled)
  obtain ⟨rule, inside, written⟩ := origin perm here
  obtain ⟨rule', inside', written'⟩ := origin (List.Perm.refl _) there
  obtain ⟨pattern, -, rfl⟩ := compile_eq_ok.mp written
  obtain ⟨pattern', -, rfl⟩ := compile_eq_ok.mp written'
  simp only [CompiledRule.precedes, Bool.or_eq_true, Bool.and_eq_true, decide_eq_true_eq, beq_iff_eq] at first second
  have same : rule = rule' := same_of_id distinct inside inside' (by omega)
  subst same
  exact Except.ok.inj (written.symm.trans written')

/-- Neither the order of the rules nor the inactive ones enter a matcher. -/
theorem build_perm (distinct : (rules.map (·.id)).Nodup) (built : build rules fallback = .ok m)
    (perm : (others.filter (·.isActive)).Perm (rules.filter (·.isActive))) : build others fallback = .ok m := by
  obtain ⟨valid, compiled, read, rfl⟩ := build_eq_ok.mp built
  obtain ⟨compiled', read', same⟩ := compiled_perm perm read
  have active : ((rules.filter (·.isActive)).map (·.id)).Nodup := distinct.sublist (List.filter_sublist.map _)
  refine build_eq_ok.mpr ⟨valid, compiled', read', ?_⟩
  rw [sorted_unique active read same, rosterOf_perm (List.pairwise_singleton _ _) (perm.map _)]

/-- What a domain in normal form is answered with. -/
theorem resolution_specified (distinct : (rules.map (·.id)).Nodup) (built : build rules fallback = .ok m)
    {text domain : String} (normal : normalizeDomain text = some domain) :
    ∃ route, m.resolve text = .ok route ∧
      ((∃ rule, Wins rules domain rule ∧ (∀ other, Wins rules domain other → other = rule) ∧
          route.transport = rule.transport ∧ route.ruleId = some rule.id) ∨
        ((∀ rule ∈ rules, ∀ pattern, ¬ rule.Routes pattern domain) ∧
          route.transport = fallback.name ∧ route.ruleId = none)) ∧
      -- The limits are those of a listed transport, so `unlisted` is never used.
      m.transports.get? route.transport = some route.limits ∧
      route.limits.Combines (limitsNaming rules fallback route.transport) ∧
      m.byName route.transport = .ok { route with ruleId := none } ∧
      ∀ others : List TransportRule, (others.filter (·.isActive)).Perm (rules.filter (·.isActive)) →
        build others fallback = .ok m := by
  obtain ⟨limits, listed⟩ := Option.isSome_iff_exists.mp ((build_complete built).route domain)
  have given : (m.route domain).limits = limits := congrArg (Option.getD · unlisted) listed
  have combined := limits_combine built (m.route domain).transport
  rw [listed] at combined
  refine ⟨m.route domain, by rw [resolve, normal], ?_, given ▸ listed, given ▸ combined, ?_,
    fun others => build_perm distinct built⟩
  · cases found : m.rules.find? (·.pattern.isMatch domain) with
    | none =>
      refine Or.inr ⟨fun rule inside pattern => unrouted_of_find? built found inside pattern, ?_, ?_⟩
      · simp [route, found, fallback_name built]
      · simp [route, found]
    | some hit =>
      obtain ⟨rule, wins, transport, id⟩ := wins_of_find? built found
      refine Or.inl ⟨rule, wins, fun other also => also.unique distinct wins, ?_, ?_⟩
      · simp [route, found, transport]
      · simp [route, found, id]
  · rw [byName, listed, ← given]

/-- Three rules match, and two of them are equally long; another transport is limited by a rule and by the default. -/
theorem resolution_of_tied_rules :
    let rule (id : Nat) (pattern : String) (name : String) (limits : TransportLimits) (active : Bool) : TransportRule :=
      { id, pattern, transport := ⟨name⟩, limits, isActive := active, description := none }
    let rules := [rule 7 "*.example.org" "bulk" ⟨5, 1⟩ true, rule 2 "*" "default" ⟨3, 9⟩ true,
      rule 4 "*.example.org" "slow" ⟨8, 2⟩ true, rule 1 "a.example.org" "bulk" ⟨1, 0⟩ false]
    (rules.map (·.id)).Nodup ∧ normalizeDomain " A.Example.org. " = some "a.example.org" ∧
    ∃ m, build rules .standard = .ok m ∧ ∃ route, m.resolve " A.Example.org. " = .ok route ∧
      route.limits.Combines (limitsNaming rules .standard route.transport) ∧
      build (rule 1 "*" "other" ⟨1, 0⟩ false :: rules.reverse) .standard = .ok m := by
  intro rule rules
  have made : (build rules .standard).toOption.isSome = true := by decide +kernel
  obtain ⟨m, built⟩ := Option.isSome_iff_exists.mp made
  have built := ok_of_toOption built
  have distinct : (rules.map (·.id)).Nodup := by decide
  have normal : normalizeDomain " A.Example.org. " = some "a.example.org" := by decide +kernel
  obtain ⟨route, answer, -, -, combined, -, same⟩ := resolution_specified distinct built normal
  have perm : ((rule 1 "*" "other" ⟨1, 0⟩ false :: rules.reverse).filter (·.isActive)).Perm
      (rules.filter (·.isActive)) := rules.reverse_perm.filter (·.isActive)
  exact ⟨distinct, normal, m, built, route, answer, combined, same _ perm⟩

end Matcher

end RelayRamp.Routing
