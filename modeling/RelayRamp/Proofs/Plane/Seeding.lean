import RelayRamp.Proofs.Plane.Commands
import RelayRamp.Proofs.Store.Stock

/-!
# Seeding in several attempts

A store without a configuration is filled with the seed data whenever a plane is opened over it, reloads or gives its
configuration. Phases and rules are each written only if there are none, and the configuration at the end. Whatever
fails on the way, a later attempt writes the phases if they are missing, and the rules if there are none at all. So
rules can be missing for good: if an attempt ended after the first of them was written and before the last, no other
one goes on where it stopped.
-/
namespace RelayRamp.Plane

open RelayRamp.Routing RelayRamp.Store RelayRamp.Time RelayRamp.Warmup

variable {p q : Plane (PlannedStore Backing)} {moment : Moment} {last : Nat} {config : Option WarmupConfig}
  {phases : List WarmupPhase} {drafts rest : List RuleDraft} {α : Type}

/-! ### One call -/

/-- A call that fails, by plan or not, leaves the inner store as it is. -/
theorem leads_planned {c : StoreCall α} {Q : Except PlaneFault α → Plane (PlannedStore Backing) → Prop}
    (failed : ∀ fault q, q.store.inner = p.store.inner → q.settings = p.settings → Q (.error fault) q)
    (passed : ∀ a q, (p.store.inner.call c).1 = .ok a → q.store.inner = (p.store.inner.call c).2 →
      q.settings = p.settings → Q (.ok a) q) : (ask c).Leads moment p Q := by
  refine Call.leads_ask ?_
  rcases p.store.call_cases c with ⟨fault, answer, same⟩ | ⟨answer, inner⟩
  · rw [answer]
    exact failed _ _ same rfl
  · rw [answer]
    change _ = (p.store.inner.call c).1 at answer
    change _ = (p.store.inner.call c).2 at inner
    change Q ((p.store.inner.call c).1.mapError .store) _
    cases answered : (p.store.inner.call c).1 with
    | ok a => exact passed a _ answered inner rfl
    | error fault =>
      have vain : (p.store.inner.call c).2 = p.store.inner :=
        Backing.call_vain fun a ok => nomatch answered.symm.trans ok
      exact failed _ _ (inner.trans vain) rfl

/-- The store of a plane that seeds phases and rules has come this far. -/
structure Filled (p : Plane (PlannedStore Backing)) (last : Nat) (config : Option WarmupConfig)
    (phases : List WarmupPhase) (drafts : List RuleDraft) : Prop where
  stocked : p.store.inner.Stocked last config phases drafts
  seedPhases : p.settings.seedPhases = true
  seedRules : p.settings.seedRules = true

namespace Filled

theorem same (h : Filled p last config phases drafts) (inner : q.store.inner = p.store.inner)
    (settings : q.settings = p.settings) : Filled q last config phases drafts :=
  ⟨inner ▸ h.stocked, settings ▸ h.seedPhases, settings ▸ h.seedRules⟩

theorem next (h : Filled p last config phases drafts) {config' : Option WarmupConfig} {phases' : List WarmupPhase}
    {drafts' : List RuleDraft} {s : Backing} (stocked : s.Stocked last config' phases' drafts')
    (inner : q.store.inner = s) (settings : q.settings = p.settings) : Filled q last config' phases' drafts' :=
  ⟨inner ▸ stocked, settings ▸ h.seedPhases, settings ▸ h.seedRules⟩

/-- What is read is what the store holds, and it stays so. -/
theorem leads_read (h : Filled p last config phases drafts) {c : StoreCall α} (read : c.isRead = true) :
    (ask c).Leads moment p fun answer q => Filled q last config phases drafts ∧
      ∀ a, answer = .ok a → c.Answers a p.store.inner.contents q.store.inner.contents := by
  refine leads_planned (fun _ q inner settings => ⟨h.same inner settings, nofun⟩) fun a q answer inner settings => ?_
  have vain : (p.store.inner.call c).2 = p.store.inner := Backing.call_vain fun _ _ => Or.inl read
  refine ⟨h.same (inner.trans vain) settings, fun b same => ?_⟩
  cases same
  rw [inner]
  exact Backing.faithful.answer c trivial answer

/-! ### Seeding -/

/-- The rules are written one after another up to the first that fails. -/
theorem leads_insertions (h : Filled p last config phases drafts) (split : Seed.rules = drafts ++ rest) :
    (rest.forM fun draft => do
      let (_, draft) ← orInvalid draft.validate
      let _ ← ask (.insertRule draft) : Call (PlannedStore Backing) Unit).Leads moment p fun answer q =>
        ∃ more left, rest = more ++ left ∧ Filled q last config phases (drafts ++ more) ∧
          (answer = .ok () → left = []) := by
  induction rest generalizing p drafts with
  | nil => exact Call.leads_pure ⟨[], [], rfl, by rwa [List.append_nil], fun _ => rfl⟩
  | cons draft rest ih =>
    obtain ⟨pattern, valid⟩ := Seed.rules_validated (show draft ∈ Seed.rules by simp [split])
    have one : (do
        let (_, draft) ← orInvalid draft.validate
        let _ ← ask (.insertRule draft) : Call (PlannedStore Backing) Unit).Leads moment p fun answer q =>
          (∃ fault, answer = .error fault ∧ Filled q last config phases drafts) ∨
            answer = .ok () ∧ Filled q last config phases (drafts ++ [draft]) := by
      rw [valid]
      refine Call.leads_orInvalid_bind (fun validated same => ?_) nofun
      cases same
      refine Call.Leads.bind (leads_planned (Q := fun answer q =>
        (∃ fault, answer = .error fault ∧ Filled q last config phases drafts) ∨
          (∃ rule, answer = .ok rule) ∧ Filled q last config phases (drafts ++ [draft])) ?_ ?_) ?_ ?_
      · exact fun fault q inner settings => Or.inl ⟨fault, rfl, h.same inner settings⟩
      · exact fun rule q done inner settings =>
          Or.inr ⟨⟨rule, rfl⟩, h.next (h.stocked.insertRule ⟨draft, pattern, valid⟩ done) inner settings⟩
      · rintro rule q (⟨_, impossible, -⟩ | ⟨-, filled⟩)
        · cases impossible
        · exact Call.leads_pure (Or.inr ⟨rfl, filled⟩)
      · rintro fault q (⟨_, -, filled⟩ | ⟨⟨_, impossible⟩, -⟩)
        · exact Or.inl ⟨fault, rfl, filled⟩
        · cases impossible
    refine one.bind (fun _ q reached => ?_) fun fault q reached => ?_
    · rcases reached with ⟨_, impossible, -⟩ | ⟨-, filled⟩
      · cases impossible
      · refine (ih filled (by simp [split])).mono ?_
        rintro answer q ⟨more, left, rfl, filled, all⟩
        exact ⟨draft :: more, left, rfl, by rwa [List.append_assoc] at filled, all⟩
    · rcases reached with ⟨_, -, filled⟩ | ⟨impossible, -⟩
      · exact ⟨[], draft :: rest, rfl, by rwa [List.append_nil], nofun⟩
      · cases impossible

theorem leads_seedConfig (h : Filled p last config phases drafts) :
    (Call.seedConfig : Call (PlannedStore Backing) WarmupConfig).Leads moment p fun _ q =>
      ∃ config, Filled q last config phases drafts := by
  refine Call.leads_wallNow_bind (Call.Leads.bind (Q := fun _ q => ∃ config, Filled q last config phases drafts)
    (leads_planned (fun _ q inner settings => ⟨config, h.same inner settings⟩) fun _ q _ inner settings => ?_)
    (fun _ _ filled => Call.leads_pure filled) fun _ _ => id)
  obtain ⟨config, stocked⟩ := h.stocked.saveConfig (.fresh moment.wall)
  exact ⟨config, h.next stocked inner settings⟩

end Filled

/-- How a store stands between two attempts: it has the phases or nothing, and rules up to some one; once it has a
configuration it has phases and rules. -/
structure Underway (p : Plane (PlannedStore Backing)) (last : Nat) (config : Option WarmupConfig)
    (phases : List WarmupPhase) (drafts : List RuleDraft) : Prop extends Filled p last config phases drafts where
  leading : drafts <+: Seed.rules
  order : phases = Seed.phases ∨ phases = [] ∧ drafts = []
  marked : config ≠ none → phases = Seed.phases ∧ drafts ≠ []

/-- What an attempt makes of it: what was there stays, and if it succeeds phases and rules are there, all of the rules
if there were none. -/
structure Attempted (last : Nat) (phases : List WarmupPhase) (drafts : List RuleDraft) (answer : Except PlaneFault α)
    (q : Plane (PlannedStore Backing)) (config' : Option WarmupConfig) (phases' : List WarmupPhase)
    (drafts' : List RuleDraft) : Prop extends Underway q last config' phases' drafts' where
  phases_kept : phases = Seed.phases → phases' = Seed.phases
  rules_kept : drafts ≠ [] → drafts' = drafts
  seeded : (∃ a, answer = .ok a) → phases' = Seed.phases ∧ drafts' ≠ [] ∧ (drafts = [] → drafts' = Seed.rules)

theorem Filled.leads_seedRules (h : Filled p last none Seed.phases drafts) (leading : drafts <+: Seed.rules)
    {settings : EngineSettings} (on : settings.seedRules = true) :
    (Call.seedRules settings : Call (PlannedStore Backing) WarmupConfig).Leads moment p fun answer q =>
      ∃ config drafts', Attempted last Seed.phases drafts answer q config Seed.phases drafts' := by
  have some_rules : Seed.rules ≠ [] := by decide
  have unfinished {answer : Except PlaneFault WarmupConfig} {q : Plane (PlannedStore Backing)}
      {drafts' : List RuleDraft} (filled : Filled q last none Seed.phases drafts') (leading : drafts' <+: Seed.rules)
      (kept : drafts ≠ [] → drafts' = drafts) (failed : ∀ a, answer ≠ .ok a) :
      ∃ config drafts', Attempted last Seed.phases drafts answer q config Seed.phases drafts' :=
    ⟨none, drafts', { filled with
      leading, order := Or.inl rfl, marked := fun impossible => absurd rfl impossible, phases_kept := id
      rules_kept := kept, seeded := fun ⟨a, ok⟩ => absurd ok (failed a) }⟩
  have ends {q : Plane (PlannedStore Backing)} {drafts' : List RuleDraft}
      (filled : Filled q last none Seed.phases drafts') (leading : drafts' <+: Seed.rules)
      (some : drafts' ≠ []) (kept : drafts ≠ [] → drafts' = drafts) (all : drafts = [] → drafts' = Seed.rules) :
      (Call.seedConfig : Call (PlannedStore Backing) WarmupConfig).Leads moment q fun answer q =>
        ∃ config drafts', Attempted last Seed.phases drafts answer q config Seed.phases drafts' :=
    filled.leads_seedConfig.mono fun answer q ⟨config, filled⟩ => ⟨config, drafts', { filled with
      leading, order := Or.inl rfl, marked := fun _ => ⟨rfl, some⟩, phases_kept := id
      rules_kept := kept, seeded := fun _ => ⟨rfl, some, all⟩ }⟩
  unfold Call.seedRules
  rw [if_pos on]
  refine (h.leads_read (c := .listRules) rfl).bind (fun rules q reached => ?_) fun fault q reached =>
    unfinished reached.1 leading (fun _ => rfl) nofun
  obtain ⟨filled, answers⟩ := reached
  have listed : rules = Seed.numbered last drafts := (answers rules rfl).1.trans h.stocked.rules
  split
  · rename_i none_yet
    have none_yet : drafts = [] := by
      rw [listed] at none_yet
      exact Seed.numbered_eq_nil.mp (List.isEmpty_iff.mp none_yet)
    subst none_yet
    have all : Seed.rules = [] ++ Seed.rules := rfl
    refine (filled.leads_insertions all).bind (fun _ q reached => ?_) fun fault q reached => ?_
    · obtain ⟨more, left, split, filled, all⟩ := reached
      cases all rfl
      rw [List.append_nil] at split
      subst split
      exact ends filled (List.prefix_rfl) some_rules (fun some => absurd rfl some) fun _ => rfl
    · obtain ⟨more, left, split, filled, -⟩ := reached
      exact unfinished filled ⟨left, split.symm⟩ (fun some => absurd rfl some) nofun
  · rename_i there
    have there : drafts ≠ [] := by
      rintro rfl
      exact there (by rw [listed]; rfl)
    exact ends filled leading there (fun _ => rfl) fun none => absurd none there

/-- Loading or seeding the configuration is an attempt. -/
theorem Underway.leads_loadOrSeed (h : Underway p last config phases drafts) :
    (loadOrSeed : Call (PlannedStore Backing) WarmupConfig).Leads moment p fun answer q =>
      ∃ config' phases' drafts', Attempted last phases drafts answer q config' phases' drafts' := by
  have unchanged {answer : Except PlaneFault WarmupConfig} {q : Plane (PlannedStore Backing)}
      (filled : Filled q last config phases drafts)
      (seeded : (∃ a, answer = .ok a) → phases = Seed.phases ∧ drafts ≠ []) :
      ∃ config' phases' drafts', Attempted last phases drafts answer q config' phases' drafts' :=
    ⟨config, phases, drafts, { filled with
      leading := h.leading, order := h.order, marked := h.marked, phases_kept := id, rules_kept := fun _ => rfl
      seeded := fun ok => ⟨(seeded ok).1, (seeded ok).2, fun none => absurd none (seeded ok).2⟩ }⟩
  rw [Call.loadOrSeed_eq]
  refine (h.leads_read (c := .loadConfig) rfl).bind (fun found q reached => ?_) fun fault q reached =>
    unchanged reached.1 nofun
  obtain ⟨filled, answers⟩ := reached
  have same : found = config := (answers found rfl).1.trans h.stocked.config
  subst same
  cases found with
  | some loaded =>
    have marked := h.marked nofun
    exact Call.leads_orInvalid_bind (fun _ _ => Call.leads_pure (unchanged filled fun _ => marked))
      fun _ _ => unchanged filled nofun
  | none =>
    -- From here on the phases are those of the seed data, read or written.
    have rules {r : Plane (PlannedStore Backing)} (filled' : Filled r last none Seed.phases drafts) :
        (Call.seedRules q.settings : Call (PlannedStore Backing) WarmupConfig).Leads moment r fun answer q =>
          ∃ config' phases' drafts', Attempted last phases drafts answer q config' phases' drafts' :=
      (filled'.leads_seedRules h.leading filled.seedRules).mono fun answer q ⟨config', drafts', attempted⟩ =>
        ⟨config', Seed.phases, drafts', { attempted with phases_kept := fun _ => rfl }⟩
    refine Call.leads_plane_bind ?_
    dsimp only
    rw [if_pos filled.seedPhases]
    refine (filled.leads_read (c := .loadPhases) rfl).bind (fun held r reached => ?_) fun fault r reached =>
      unchanged reached.1 nofun
    obtain ⟨filled', answers⟩ := reached
    have same : held = phases := (answers held rfl).1.trans filled.stocked.phases
    subst same
    split
    · refine Call.Leads.bind (leads_planned (Q := fun answer t =>
        (∃ fault, answer = .error fault ∧ Filled t last none held drafts) ∨
          answer = .ok () ∧ Filled t last none Seed.phases drafts)
        (fun fault t inner settings => Or.inl ⟨fault, rfl, filled'.same inner settings⟩)
        fun _ t _ inner settings => Or.inr ⟨rfl, filled'.next filled'.stocked.replacePhases inner settings⟩) ?_ ?_
      · rintro _ t (⟨_, impossible, -⟩ | ⟨-, replaced⟩)
        · cases impossible
        · exact rules replaced
      · rintro fault t (⟨_, -, same⟩ | ⟨impossible, -⟩)
        · exact unchanged same nofun
        · cases impossible
    · rename_i there
      have there : held = Seed.phases := h.order.resolve_right fun nothing => there (by rw [nothing.1]; rfl)
      exact rules (there ▸ filled')

/-! ### Attempts of a plane -/

/-- The store is the same, and so are the settings. -/
structure Spares (p q : Plane (PlannedStore Backing)) : Prop where
  inner : q.store.inner = p.store.inner
  settings : q.settings = p.settings

instance : IsPreorder (Plane (PlannedStore Backing)) Spares where
  refl _ := ⟨rfl, rfl⟩
  trans _ _ _ first rest := ⟨rest.inner.trans first.inner, rest.settings.trans first.settings⟩

theorem read_spares {c : StoreCall α} (read : c.isRead = true) : (ask c).Keeps moment Spares := fun _ =>
  leads_planned (fun _ _ => .mk) fun _ _ _ inner settings =>
    ⟨inner.trans (Backing.call_vain fun _ _ => Or.inl read), settings⟩

theorem publishSnapshot_spares (next : Snapshot) :
    (publishSnapshot next : Call (PlannedStore Backing) Nat).Keeps moment Spares :=
  fun _ => Call.leads_publishSnapshot ⟨rfl, rfl⟩

theorem refresh_spares : (refresh : Call (PlannedStore Backing) Nat).Keeps moment Spares := by
  refine (read_spares (c := .loadConfig) rfl).bind fun found => ?_
  split
  · refine (read_spares (c := .loadPhases) rfl).bind fun phases => ?_
    refine (read_spares (c := .listRules) rfl).bind fun rules => ?_
    refine (Call.idle_plane.keeps moment).bind fun p => ((Call.idle_orInvalid _).keeps moment).bind fun matcher => ?_
    exact (Call.configurePool_keeps (fun _ _ _ => ⟨rfl, rfl⟩) (fun _ _ => ⟨rfl, rfl⟩) matcher).bind fun _ =>
      publishSnapshot_spares _
  · exact (Call.idle_throw _).keeps moment

theorem degrade_spares (fault : PlaneFault) : (degrade fault : Call (PlannedStore Backing) Unit).Keeps moment Spares :=
  (Call.idle_plane.keeps moment).bind fun _ =>
    (publishSnapshot_spares _).bind fun _ => (Call.idle_report _).keeps moment

theorem Underway.spared (h : Underway p last config phases drafts) (spares : Spares p q) :
    Underway q last config phases drafts :=
  { h with toFilled := h.toFilled.same spares.inner spares.settings }

/-- Whatever follows leaves the store as loading or seeding left it. -/
theorem spares_bind {c : Call (PlannedStore Backing) α} {β : Type} {f : α → Call (PlannedStore Backing) β}
    (rest : ∀ a, (f a).Keeps moment Spares) (p : Plane (PlannedStore Backing)) :
    Spares (c.after moment p) ((c >>= f).after moment p) := by
  change Spares (c.exec moment ⟨p, .none⟩).2.plane ((c >>= f).exec moment ⟨p, .none⟩).2.plane
  rw [Call.exec_bind]
  rcases c.exec moment ⟨p, .none⟩ with ⟨fault | a, s⟩
  · exact ⟨rfl, rfl⟩
  · exact rest a s.plane s.effects

theorem spares_tryCatch {c : Call (PlannedStore Backing) α} {f : PlaneFault → Call (PlannedStore Backing) α}
    (rest : ∀ fault, (f fault).Keeps moment Spares) (p : Plane (PlannedStore Backing)) :
    Spares (c.after moment p) ((tryCatch c f).after moment p) := by
  change Spares (c.exec moment ⟨p, .none⟩).2.plane ((tryCatch c f).exec moment ⟨p, .none⟩).2.plane
  rw [Call.exec_tryCatch]
  rcases c.exec moment ⟨p, .none⟩ with ⟨fault | a, s⟩
  · exact rest fault s.plane s.effects
  · exact ⟨rfl, rfl⟩

theorem load_spares (p : Plane (PlannedStore Backing)) :
    Spares (loadOrSeed.after moment p) (load.after moment p) := by
  refine IsTrans.trans _ _ _ (spares_bind (fun _ => ?_) p) (spares_tryCatch (fun fault => degrade_spares fault) p)
  refine (read_spares (c := .loadCounters) rfl).bind fun buckets => ?_
  refine fun p => Call.leads_wallNow_bind (Call.leads_setPlane_bind ?_)
  exact (refresh_spares.bind (fun _ => (Call.idle_pure ()).keeps moment) _).mono fun _ _ spares =>
    ⟨spares.inner, spares.settings⟩

theorem reload_spares (p : Plane (PlannedStore Backing)) :
    Spares (loadOrSeed.after moment p) (reload.after moment p) :=
  IsTrans.trans _ _ _ (spares_bind (fun _ => refresh_spares) p)
    (spares_tryCatch (fun fault => (degrade_spares fault).bind fun _ => (Call.idle_throw _).keeps moment) p)

/-! ### Any number of attempts -/

inductive Entry where
  /-- The store is opened again, and a plane over it. -/
  | opening
  | reload
  | getConfig

/-- An occasion to load or seed the configuration, with the plan by which the calls of the store fail. What a process
that ends in between would still have asked of the store is planned to fail. -/
structure Occasion where
  entry : Entry
  plan : List (Option StoreFault)
  moment : Moment

namespace Occasion

/-- The plane that is to load the configuration; there is none if the settings are invalid. -/
def start? (p : Plane (PlannedStore Backing)) (o : Occasion) : Option (Plane (PlannedStore Backing)) :=
  match o.entry with
  | .opening => do
    let inner ← p.store.inner.reopen.toOption
    (Plane.unloaded ⟨inner, o.plan⟩ p.settings o.moment.wall).toOption
  | .reload | .getConfig => some { p with store := { p.store with plan := o.plan } }

/-- The plane afterwards. -/
def perform (p : Plane (PlannedStore Backing)) (o : Occasion) : Plane (PlannedStore Backing) :=
  match o.start? p with
  | none => p
  | some q =>
    match o.entry with
    | .opening => load.after o.moment q
    | .reload => Plane.reload.after o.moment q
    | .getConfig => Plane.getConfig.after o.moment q

/-- The configuration was loaded or seeded. -/
def Seeds (p : Plane (PlannedStore Backing)) (o : Occasion) : Prop :=
  ∃ q config, o.start? p = some q ∧ (loadOrSeed.run o.moment q).1 = .ok config

theorem seeds_iff {p : Plane (PlannedStore Backing)} {o : Occasion} :
    o.Seeds p ↔ ((o.start? p).bind fun q => (loadOrSeed.run o.moment q).1.toOption).isSome = true := by
  simp only [Option.isSome_iff_exists, Option.bind_eq_some_iff]
  constructor
  · rintro ⟨q, config, starts, ok⟩
    exact ⟨config, q, starts, by rw [ok]; rfl⟩
  · rintro ⟨config, q, starts, ok⟩
    exact ⟨q, config, starts, ok_of_toOption ok⟩

instance (p : Plane (PlannedStore Backing)) (o : Occasion) : Decidable (o.Seeds p) := decidable_of_iff _ seeds_iff.symm

theorem start?_spares (h : Underway p last config phases drafts) {o : Occasion} (starts : o.start? p = some q) :
    Spares p q := by
  rcases o with ⟨_ | _ | _, plan, moment⟩
  · simp only [start?, h.stocked.tabulates.reopened] at starts
    obtain ⟨matcher, -, same⟩ := ok_of_bind (ok_of_toOption starts)
    cases same
    exact ⟨rfl, rfl⟩
  · cases starts
    exact ⟨rfl, rfl⟩
  · cases starts
    exact ⟨rfl, rfl⟩

theorem perform_spares {o : Occasion} (starts : o.start? p = some q) :
    Spares (loadOrSeed.after o.moment q) (o.perform p) := by
  simp only [perform, starts]
  split
  · exact load_spares q
  · exact reload_spares q
  · exact ⟨rfl, rfl⟩

end Occasion

/-- Every occasion is an attempt, if it comes to one at all. -/
theorem Underway.perform (h : Underway p last config phases drafts) (o : Occasion) :
    ∃ config' phases' drafts', Underway (o.perform p) last config' phases' drafts' ∧
      (phases = Seed.phases → phases' = Seed.phases) ∧ (drafts ≠ [] → drafts' = drafts) ∧
      (o.Seeds p → phases' = Seed.phases ∧ drafts' ≠ [] ∧ (drafts = [] → drafts' = Seed.rules)) := by
  cases starts : o.start? p with
  | none =>
    refine ⟨config, phases, drafts, ?_, id, fun _ => rfl, ?_⟩
    · simpa only [Occasion.perform, starts] using h
    · rintro ⟨q, _, other, -⟩
      cases starts.symm.trans other
  | some q =>
    have begun := h.spared (Occasion.start?_spares h starts)
    have leads : loadOrSeed.Leads o.moment q _ := begun.leads_loadOrSeed
    obtain ⟨config', phases', drafts', attempted⟩ := leads .none
    refine ⟨config', phases', drafts', attempted.toUnderway.spared (Occasion.perform_spares starts),
      attempted.phases_kept, attempted.rules_kept, ?_⟩
    rintro ⟨q', loaded, same, ok⟩
    cases starts.symm.trans same
    exact attempted.seeded ⟨loaded, ok⟩

/-- The plane after the occasions, one after the other. -/
def attempts (p : Plane (PlannedStore Backing)) (occasions : List Occasion) : Plane (PlannedStore Backing) :=
  occasions.foldl (fun p o => o.perform p) p

theorem attempts_append (p : Plane (PlannedStore Backing)) (before after : List Occasion) :
    attempts p (before ++ after) = attempts (attempts p before) after := List.foldl_append

theorem Underway.rules (h : Underway p last config phases drafts) :
    p.store.inner.contents.rules = Seed.numbered last drafts := h.stocked.rules

theorem Underway.no_rules (h : Underway p last config phases drafts) :
    p.store.inner.contents.rules = [] ↔ drafts = [] := by
  rw [h.rules, Seed.numbered_eq_nil]

/-- What is there after some occasions stays. -/
theorem Underway.attempts (h : Underway p last config phases drafts) (occasions : List Occasion) :
    ∃ config' phases' drafts', Underway (attempts p occasions) last config' phases' drafts' ∧
      (phases = Seed.phases → phases' = Seed.phases) ∧ (drafts ≠ [] → drafts' = drafts) := by
  induction occasions generalizing p config phases drafts with
  | nil => exact ⟨config, phases, drafts, h, id, fun _ => rfl⟩
  | cons o rest ih =>
    obtain ⟨_, phases₁, drafts₁, next, phases_kept, rules_kept, -⟩ := h.perform o
    obtain ⟨config₂, phases₂, drafts₂, done, phases_kept₂, rules_kept₂⟩ := ih next
    refine ⟨config₂, phases₂, drafts₂, done, phases_kept₂ ∘ phases_kept, fun some => ?_⟩
    obtain rfl := rules_kept some
    exact rules_kept₂ some

/-- The rules that are there were written on one occasion; if it came to its end, they are all of them. -/
theorem Underway.first_written (h : Underway p last config phases []) {occasions : List Occasion}
    (some : (Plane.attempts p occasions).store.inner.contents.rules ≠ []) :
    ∃ first o rest, occasions = first ++ o :: rest ∧ (Plane.attempts p first).store.inner.contents.rules = [] ∧
      (o.perform (Plane.attempts p first)).store.inner.contents.rules =
        (Plane.attempts p occasions).store.inner.contents.rules ∧
      (o.Seeds (Plane.attempts p first) →
        (Plane.attempts p occasions).store.inner.contents.rules = Seed.numbered last Seed.rules) := by
  induction occasions generalizing p config phases with
  | nil => exact absurd (h.no_rules.mpr rfl) some
  | cons o rest ih =>
    obtain ⟨config₁, phases₁, drafts₁, next, -, -, seeded⟩ := h.perform o
    by_cases none : drafts₁ = []
    · subst none
      obtain ⟨first, o', rest', rfl, empty, written, all⟩ := ih next some
      exact ⟨o :: first, o', rest', rfl, empty, written, all⟩
    · obtain ⟨_, _, drafts₂, done, -, kept⟩ := next.attempts rest
      obtain rfl := kept none
      have same : (Plane.attempts p (o :: rest)).store.inner.contents.rules = Seed.numbered last drafts₂ := done.rules
      refine ⟨[], o, rest, rfl, h.no_rules.mpr rfl, next.rules.trans same.symm, fun ok => ?_⟩
      rw [same, (seeded ok).2.2 rfl]

/-- Over an empty store the phases are those of the seed data or not there yet, and the rules are the first of the seed
data's, however the attempts to seed it end. As soon as one of them comes to its end, phases and rules are there: all of
the rules, unless an earlier attempt wrote the first of them and did not come to its end; then it stays at the rules
which that one wrote. -/
theorem seeding_resumed (empty : Filled p last none [] []) (occasions : List Occasion) :
    let s := (attempts p occasions).store.inner.contents
    (s.phases = Seed.phases ∨ s.phases = [] ∧ s.rules = []) ∧
      (∃ drafts, drafts <+: Seed.rules ∧ s.rules = Seed.numbered last drafts) ∧
      ∀ before o after, occasions = before ++ o :: after → o.Seeds (attempts p before) →
        s.phases = Seed.phases ∧ s.rules ≠ [] ∧
          (s.rules = Seed.numbered last Seed.rules ∨
            ∃ first stopped rest, before = first ++ stopped :: rest ∧
              (attempts p first).store.inner.contents.rules = [] ∧
              (stopped.perform (attempts p first)).store.inner.contents.rules = s.rules ∧
              ¬ stopped.Seeds (attempts p first)) := by
  have start : Underway p last none [] [] :=
    { empty with
      leading := List.nil_prefix, order := Or.inr ⟨rfl, rfl⟩, marked := fun impossible => absurd rfl impossible }
  obtain ⟨config, phases, drafts, now, -, -⟩ := start.attempts occasions
  refine ⟨?_, ⟨drafts, now.leading, now.rules⟩, ?_⟩
  · exact now.order.imp now.stocked.phases.trans fun ⟨no_phases, no_drafts⟩ =>
      ⟨now.stocked.phases.trans no_phases, now.no_rules.mpr no_drafts⟩
  rintro before o after rfl ok
  obtain ⟨_, _, earlier, reached, -, -⟩ := start.attempts before
  obtain ⟨_, phases₁, drafts₁, next, -, rules_kept, seeded⟩ := reached.perform o
  obtain ⟨rfl, some, all⟩ := seeded ok
  obtain ⟨_, phases₂, drafts₂, done, phases_kept, kept⟩ := next.attempts after
  obtain rfl := phases_kept rfl
  obtain rfl := kept some
  rw [show attempts p (before ++ o :: after) = attempts (o.perform (attempts p before)) after from
    attempts_append p before (o :: after)]
  refine ⟨done.stocked.phases, mt done.no_rules.mp some, ?_⟩
  by_cases none : earlier = []
  · rw [done.rules, all none]
    exact Or.inl rfl
  · obtain rfl := rules_kept none
    have there : (attempts p before).store.inner.contents.rules ≠ [] := mt reached.no_rules.mp none
    obtain ⟨first, stopped, rest, split, nothing, written, complete⟩ := start.first_written there
    have same : (attempts p before).store.inner.contents.rules =
        (attempts (o.perform (attempts p before)) after).store.inner.contents.rules :=
      reached.rules.trans done.rules.symm
    rw [← same]
    by_cases ended : stopped.Seeds (attempts p first)
    · exact Or.inl (complete ended)
    · exact Or.inr ⟨first, stopped, rest, split, nothing, written, ended⟩

/-- A plane that has not loaded anything yet, over an empty store. -/
def blank : Plane (PlannedStore Backing) :=
  let fallback := DefaultTransport.standard
  { store := ⟨.memory .empty, []⟩
    snapshot := ⟨0, .fresh ⟨0⟩, .error .notLoaded, ⟨[], [(fallback.name, fallback.limits)], fallback.name⟩, true⟩
    counters := .fresh ⟨0⟩
    pool := .empty
    tallies := .zero
    settings := .standard }

theorem blank_unloaded : Plane.unloaded ⟨Backing.memory .empty, []⟩ .standard ⟨0⟩ = .ok blank := by
  with_unfolding_all rfl

theorem blank_filled : Filled blank 0 none [] [] where
  stocked := ⟨⟨rfl, rfl, rfl⟩, ⟨nofun, .nil, .nil, nofun⟩, rfl, rfl⟩
  seedPhases := rfl
  seedRules := rfl

/-- The plane is opened and the store fails after a number of calls. -/
def cutAfter (calls : Nat) : Occasion := ⟨.opening, List.replicate calls none ++ [some ⟨.io, "offline"⟩], ⟨⟨0⟩, 0⟩⟩

def undisturbed : Occasion := ⟨.reload, [], ⟨⟨1⟩, 1⟩⟩

/-- The first attempt is cut short when the phases are written; the second writes the rules. -/
theorem seeding_resumed_phases :
    (attempts blank [cutAfter 3]).store.inner.contents.phases = Seed.phases ∧
      (attempts blank [cutAfter 3]).store.inner.contents.rules = [] ∧
      (attempts blank [cutAfter 3, undisturbed]).store.inner.contents.phases = Seed.phases ∧
      (attempts blank [cutAfter 3, undisturbed]).store.inner.contents.rules = Seed.numbered 0 Seed.rules := by
  have phases : (attempts blank [cutAfter 3]).store.inner.contents.phases = Seed.phases := by decide +kernel
  have none : (attempts blank [cutAfter 3]).store.inner.contents.rules = [] := by decide +kernel
  obtain ⟨-, -, settled⟩ := seeding_resumed blank_filled [cutAfter 3, undisturbed]
  obtain ⟨phases', some, all | ⟨first, stopped, rest, split, -, written, -⟩⟩ :=
    settled [cutAfter 3] undisturbed [] rfl (by decide +kernel)
  · exact ⟨phases, none, phases', all⟩
  · -- The attempt that wrote the rules was not the first.
    obtain ⟨rfl, here⟩ | ⟨_, rfl, impossible⟩ := List.append_eq_cons_iff.mp split.symm
    · cases here
      exact absurd (written.symm.trans none) some
    · cases List.append_ne_nil_of_right_ne_nil _ (List.cons_ne_nil _ _) impossible.symm

/-- The first attempt is cut short when one of the rules is written. The second loads the configuration without a
failure, and the others are not there. -/
theorem seeding_stops_short :
    Plane.unloaded ⟨Backing.memory .empty, []⟩ .standard ⟨0⟩ = .ok blank ∧
      undisturbed.Seeds (attempts blank [cutAfter 5]) ∧
      (attempts blank [cutAfter 5, undisturbed]).store.inner.contents.phases = Seed.phases ∧
      (attempts blank [cutAfter 5, undisturbed]).store.inner.contents.rules = Seed.numbered 0 (Seed.rules.take 1) ∧
      (attempts blank [cutAfter 5, undisturbed]).store.inner.contents.rules ≠ Seed.numbered 0 Seed.rules :=
  ⟨blank_unloaded, by decide +kernel, by decide +kernel, by decide +kernel, by decide +kernel⟩

end RelayRamp.Plane
