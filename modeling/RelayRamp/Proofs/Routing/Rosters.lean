import Mathlib.Data.String.Basic
import RelayRamp.Proofs.Store.Effects
import RelayRamp.Routing.Matcher

/-!
# What a matcher lists

A roster is kept in the order of its names, so no name occurs twice in it. The roster of a matcher lists every transport
that a request can be routed to: the default transport, and that of each active rule.
-/
namespace RelayRamp.Routing

open RelayRamp.Store

namespace TransportName

theorem before_trans {a b c : TransportName} (first : a.before b = true) (next : b.before c = true) :
    a.before c = true := by
  simp only [before, decide_eq_true_eq] at *
  exact lt_trans first next

theorem before_ne {a b : TransportName} (less : a.before b = true) : a ≠ b := by
  rintro rfl
  simp only [before, decide_eq_true_eq] at less
  exact lt_irrefl _ less

theorem before_of_not {a b : TransportName} (apart : a ≠ b) (not : ¬ b.before a = true) : a.before b = true := by
  simp only [before, decide_eq_true_eq] at *
  refine lt_of_le_of_ne (not_lt.mp not) fun same => apart ?_
  cases a
  cases b
  exact congrArg _ same

end TransportName

namespace Roster

variable {α : Type} {roster : Roster α} {name other : TransportName} {change : Option α → α}

/-- The names come in their order. -/
def Sorted (roster : Roster α) : Prop := roster.Pairwise fun a b => a.1.before b.1 = true

/-- The name occurs in the roster. -/
def Lists (roster : Roster α) (name : TransportName) : Prop := (roster.get? name).isSome = true

theorem get?_cons (key : TransportName) (value : α) (rest : Roster α) :
    get? name ((key, value) :: rest) = if key = name then some value else get? name rest := by
  by_cases same : key = name
  · simp [get?, same]
  · simp [get?, same]

theorem upsert_lists_self (roster : Roster α) : (roster.upsert change name).Lists name := by
  induction roster with
  | nil => simp [upsert, Lists, get?]
  | cons entry rest ih =>
    obtain ⟨key, value⟩ := entry
    unfold upsert
    split
    · rename_i same
      simp [Lists, get?_cons, same]
    · rename_i apart
      split
      · simp [Lists, get?_cons]
      · rw [Lists, get?_cons, if_neg apart]
        exact ih

theorem get?_upsert_other (apart : other ≠ name) (roster : Roster α) :
    (roster.upsert change name).get? other = roster.get? other := by
  induction roster with
  | nil => simp [upsert, get?, apart.symm]
  | cons entry rest ih =>
    obtain ⟨key, value⟩ := entry
    unfold upsert
    split
    · rename_i same
      subst same
      simp only [get?_cons, if_neg apart.symm]
    · split
      · rw [get?_cons, if_neg apart.symm]
      · simp only [get?_cons, ih]

theorem Lists.upsert (lists : roster.Lists other) : (roster.upsert change name).Lists other := by
  by_cases same : other = name
  · exact same ▸ upsert_lists_self roster
  · rw [Lists, get?_upsert_other same]
    exact lists

theorem mem_upsert {entry : TransportName × α} (member : entry ∈ roster.upsert change name) :
    entry.1 = name ∨ entry ∈ roster := by
  induction roster with
  | nil => exact Or.inl (congrArg Prod.fst (List.mem_singleton.mp member))
  | cons first rest ih =>
    obtain ⟨key, value⟩ := first
    unfold Roster.upsert at member
    split at member
    · rename_i same
      rcases List.mem_cons.mp member with rfl | later
      · exact Or.inl same
      · exact Or.inr (List.mem_cons_of_mem _ later)
    · split at member
      · rcases List.mem_cons.mp member with rfl | later
        · exact Or.inl rfl
        · exact Or.inr later
      · rcases List.mem_cons.mp member with rfl | later
        · exact Or.inr (List.mem_cons_self ..)
        · exact (ih later).imp_right (List.mem_cons_of_mem _)

theorem Sorted.upsert (sorted : roster.Sorted) : (roster.upsert change name).Sorted := by
  induction roster with
  | nil => exact List.pairwise_singleton _ _
  | cons first rest ih =>
    obtain ⟨key, value⟩ := first
    obtain ⟨least, others⟩ := List.pairwise_cons.mp sorted
    unfold Roster.upsert
    split
    · exact List.pairwise_cons.mpr ⟨least, others⟩
    · rename_i apart
      split
      · rename_i less
        refine List.pairwise_cons.mpr ⟨fun entry member => ?_, sorted⟩
        rcases List.mem_cons.mp member with rfl | later
        · exact less
        · exact TransportName.before_trans less (least entry later)
      · rename_i more
        refine List.pairwise_cons.mpr ⟨fun entry member => ?_, ih others⟩
        rcases mem_upsert member with same | old
        · rw [same]
          exact TransportName.before_of_not apart more
        · exact least entry old

theorem Sorted.nodup (sorted : roster.Sorted) : (roster.map (·.1)).Nodup :=
  List.pairwise_map.mpr (sorted.imp TransportName.before_ne)

/-- Names before the first one are not in the roster. -/
theorem Sorted.get?_before {key : TransportName} {value : α} {rest : Roster α}
    (sorted : Sorted ((key, value) :: rest)) (less : name.before key = true) : get? name ((key, value) :: rest) = none := by
  refine Option.map_eq_none_iff.mpr (List.find?_eq_none.mpr fun entry member => ?_)
  have later : name.before entry.1 = true := by
    rcases List.mem_cons.mp member with rfl | inside
    · exact less
    · exact TransportName.before_trans less ((List.pairwise_cons.mp sorted).1 entry inside)
  simpa using (TransportName.before_ne later).symm

/-- The entry of the name is what the change makes of it. -/
theorem Sorted.get?_upsert_self (sorted : roster.Sorted) :
    (roster.upsert change name).get? name = some (change (roster.get? name)) := by
  induction roster with
  | nil => simp [Roster.upsert, get?]
  | cons first rest ih =>
    obtain ⟨key, value⟩ := first
    unfold Roster.upsert
    split
    · rename_i same
      rw [get?_cons, get?_cons, if_pos same, if_pos same]
    · rename_i apart
      split
      · rename_i less
        rw [get?_cons, if_pos rfl, sorted.get?_before less]
      · rw [get?_cons, get?_cons, if_neg apart, if_neg apart]
        exact ih (List.pairwise_cons.mp sorted).2

theorem Sorted.get?_of_mem {value : α} (sorted : roster.Sorted) (member : (name, value) ∈ roster) :
    roster.get? name = some value := by
  induction roster with
  | nil => cases member
  | cons first rest ih =>
    obtain ⟨key, other⟩ := first
    obtain ⟨least, others⟩ := List.pairwise_cons.mp sorted
    rcases List.mem_cons.mp member with same | later
    · cases same
      rw [get?_cons, if_pos rfl]
    · rw [get?_cons, if_neg (TransportName.before_ne (least _ later))]
      exact ih others later

theorem mem_of_get? {value : α} (found : roster.get? name = some value) : (name, value) ∈ roster := by
  obtain ⟨⟨key, _⟩, hit, rfl⟩ := Option.map_eq_some_iff.mp found
  have same : key = name := by simpa using List.find?_some hit
  exact same ▸ List.mem_of_find?_eq_some hit

theorem not_mem_of_get? (absent : roster.get? name = none) : name ∉ roster.map (·.1) := by
  intro member
  obtain ⟨entry, inside, rfl⟩ := List.mem_map.mp member
  simpa using List.find?_eq_none.mp (Option.map_eq_none_iff.mp absent) entry inside

end Roster

section

variable {start : Roster TransportLimits} {rules : List RuleDraft}

theorem rosterOf_sorted (sorted : start.Sorted) : (rosterOf start rules).Sorted := by
  induction rules generalizing start with
  | nil => exact sorted
  | cons rule rest ih => exact ih sorted.upsert

theorem Roster.Lists.rosterOf {name : TransportName} (lists : start.Lists name) :
    (rosterOf start rules).Lists name := by
  induction rules generalizing start with
  | nil => exact lists
  | cons rule rest ih => exact ih lists.upsert

/-- The transports of the rules are listed. -/
theorem rosterOf_lists {rule : RuleDraft} (member : rule ∈ rules) : (rosterOf start rules).Lists rule.transport := by
  induction rules generalizing start with
  | nil => cases member
  | cons first rest ih =>
    rcases List.mem_cons.mp member with rfl | later
    · exact (Roster.upsert_lists_self start).rosterOf
    · exact ih later

/-- A name is listed at the start or by a rule. -/
theorem mem_rosterOf {entry : TransportName × TransportLimits} (member : entry ∈ rosterOf start rules) :
    entry ∈ start ∨ ∃ rule ∈ rules, rule.transport = entry.1 := by
  induction rules generalizing start with
  | nil => exact Or.inl member
  | cons rule rest ih =>
    rcases ih member with early | ⟨later, inside, same⟩
    · rcases Roster.mem_upsert early with same | old
      · exact Or.inr ⟨rule, List.mem_cons_self .., same.symm⟩
      · exact Or.inl old
    · exact Or.inr ⟨later, List.mem_cons_of_mem _ inside, same⟩

end

namespace Matcher

/-- Whatever the matcher routes to is listed, once. -/
structure Complete (m : Matcher) : Prop where
  nodup : (m.transports.map (·.1)).Nodup
  fallback : m.transports.Lists m.fallback
  rules : ∀ rule ∈ m.rules, m.transports.Lists rule.transport

theorem build_complete {rules : List TransportRule} {fallback : DefaultTransport} {m : Matcher}
    (built : build rules fallback = .ok m) : m.Complete := by
  obtain ⟨⟨⟩, -, built⟩ := ok_of_bind built
  obtain ⟨compiled, read, built⟩ := ok_of_bind built
  cases built
  refine ⟨(rosterOf_sorted (List.pairwise_singleton _ _)).nodup, ?_, fun hit member => ?_⟩
  · refine Roster.Lists.rosterOf ?_
    simp [Roster.Lists, Roster.get?]
  · obtain ⟨rule, active, written⟩ := (mem_of_mapM read hit).mp (List.mem_mergeSort.mp member)
    obtain ⟨pattern, -, same⟩ := ok_of_bind written
    cases same
    exact rosterOf_lists (List.mem_map_of_mem active)

/-- Every domain is routed to a listed transport. -/
theorem Complete.route {m : Matcher} (h : m.Complete) (domain : String) :
    m.transports.Lists (m.route domain).transport := by
  unfold Matcher.route
  cases found : m.rules.find? fun rule => rule.pattern.isMatch domain with
  | none => exact h.fallback
  | some hit => exact h.rules hit (List.mem_of_find?_eq_some found)

end Matcher

end RelayRamp.Routing
