import Mathlib.Data.List.Induction
import RelayRamp.Proofs.Plane.Commands
import RelayRamp.Proofs.Store.Contents

/-!
# The published snapshot and the store

A snapshot that is not degraded shows what the store holds: its configuration, its phases and its rules. Nobody but
the plane writes the store, so the two can part only while a command is under way. Whatever a command has written is
published before it ends, and if that fails the snapshot is degraded: it keeps the data it had.
-/
namespace RelayRamp.Plane

open RelayRamp.Routing RelayRamp.Store RelayRamp.Warmup

/-- The snapshot has the configuration, the phases and the rules that are stored. -/
structure Snapshot.Shows (snapshot : Snapshot) (contents : Contents) (fallback : DefaultTransport) : Prop where
  config : contents.config = some snapshot.config
  phases : snapshot.phases = (PhaseTable.ofPhases contents.phases).mapError .invalid
  matcher : Matcher.build contents.rules fallback = .ok snapshot.matcher

/-- The snapshot has the data of the other one. -/
structure Snapshot.Carries (snapshot other : Snapshot) : Prop where
  config : snapshot.config = other.config
  phases : snapshot.phases = other.phases
  matcher : snapshot.matcher = other.matcher

/-- The last snapshot that is not degraded; before any there is the initial one. -/
def lastRefreshed (initial : Snapshot) (trail : List Snapshot) : Snapshot :=
  (trail.filter (!·.degraded)).getLastD initial

variable {σ : Type} (valid : σ → Prop) (contents : σ → Contents)

/-- The store is a valid one, and a snapshot that is not degraded shows it. -/
structure Coherent (p : Plane σ) : Prop where
  valid : valid p.store
  shows : p.snapshot.degraded = false → p.snapshot.Shows (contents p.store) p.settings.defaultTransport

/-- Neither the snapshot nor the settings change, and the store stays valid. -/
structure Stays (p q : Plane σ) : Prop where
  valid : valid p.store → valid q.store
  snapshot : q.snapshot = p.snapshot
  settings : q.settings = p.settings

/-- Nothing is published, and nothing that is stored changes. -/
structure Unwritten (p q : Plane σ) : Prop extends Stays valid p q where
  contents : contents q.store = contents p.store

/-- Nothing is published, and under a snapshot that is not degraded the contents stay as they are. -/
structure Quiet (p q : Plane σ) : Prop extends Stays valid p q where
  contents : p.snapshot.degraded = false → contents q.store = contents p.store

/-- The snapshot was published again, as degraded. -/
structure Degraded (p q : Plane σ) : Prop where
  valid : valid q.store
  settings : q.settings = p.settings
  snapshot : q.snapshot = { p.snapshot with version := p.snapshot.version + 1, degraded := true }

/-- A snapshot of what the store holds was published. -/
structure Refreshed (p q : Plane σ) : Prop where
  valid : valid q.store
  settings : q.settings = p.settings
  version : q.snapshot.version = p.snapshot.version + 1
  sound : q.snapshot.degraded = false
  shows : q.snapshot.Shows (contents q.store) q.settings.defaultTransport

/-- A rebuilt snapshot was published; a call that failed has published nothing. -/
def Rebuilt {α : Type} (p : Plane σ) (answer : Except PlaneFault α) (q : Plane σ) : Prop :=
  match answer with
  | .ok _ => Refreshed valid contents p q
  | .error _ => Stays valid p q

/-- What a command does to the published snapshot. -/
inductive Publication (p q : Plane σ) : Prop
  | kept (quiet : Quiet valid contents p q)
  | degraded (degraded : Degraded valid p q)
  | refreshed (refreshed : Refreshed valid contents p q)

variable {valid : σ → Prop} {contents : σ → Contents} {moment : Moment} {p q r : Plane σ}

theorem Stays.trans (first : Stays valid p q) (rest : Stays valid q r) : Stays valid p r where
  valid sound := rest.valid (first.valid sound)
  snapshot := rest.snapshot.trans first.snapshot
  settings := rest.settings.trans first.settings

instance : IsPreorder (Plane σ) (Stays valid) where
  refl _ := ⟨id, rfl, rfl⟩
  trans _ _ _ := Stays.trans

theorem Unwritten.trans (first : Unwritten valid contents p q) (rest : Unwritten valid contents q r) :
    Unwritten valid contents p r :=
  ⟨first.toStays.trans rest.toStays, rest.contents.trans first.contents⟩

instance : IsPreorder (Plane σ) (Unwritten valid contents) where
  refl _ := ⟨⟨id, rfl, rfl⟩, rfl⟩
  trans _ _ _ := Unwritten.trans

theorem Unwritten.quiet (unwritten : Unwritten valid contents p q) : Quiet valid contents p q :=
  ⟨unwritten.toStays, fun _ => unwritten.contents⟩

theorem Quiet.trans (first : Quiet valid contents p q) (rest : Quiet valid contents q r) :
    Quiet valid contents p r where
  toStays := first.toStays.trans rest.toStays
  contents sound := (rest.contents (first.snapshot ▸ sound)).trans (first.contents sound)

theorem Quiet.coherent (h : Coherent valid contents p) (quiet : Quiet valid contents p q) :
    Coherent valid contents q where
  valid := quiet.valid h.valid
  shows sound := by
    rw [quiet.snapshot] at sound
    rw [quiet.snapshot, quiet.settings, quiet.contents sound]
    exact h.shows sound

theorem Publication.coherent (h : Coherent valid contents p) (publication : Publication valid contents p q) :
    Coherent valid contents q := by
  cases publication with
  | kept quiet => exact quiet.coherent h
  | degraded degraded =>
    exact ⟨degraded.valid, fun sound => by rw [degraded.snapshot] at sound; cases sound⟩
  | refreshed refreshed => exact ⟨refreshed.valid, fun _ => refreshed.shows⟩

theorem Stays.degraded (stays : Stays valid p q) (degraded : Degraded valid q r) : Degraded valid p r where
  valid := degraded.valid
  settings := degraded.settings.trans stays.settings
  snapshot := by rw [degraded.snapshot, stays.snapshot]

theorem Stays.refreshed (stays : Stays valid p q) (refreshed : Refreshed valid contents q r) :
    Refreshed valid contents p r where
  valid := refreshed.valid
  settings := refreshed.settings.trans stays.settings
  version := by rw [refreshed.version, stays.snapshot]
  sound := refreshed.sound
  shows := refreshed.shows

theorem Stays.rebuilt {α : Type} {answer : Except PlaneFault α} (stays : Stays valid p q)
    (rebuilt : Rebuilt valid contents q answer r) : Rebuilt valid contents p answer r := by
  cases answer with
  | ok _ => exact stays.refreshed rebuilt
  | error _ => exact stays.trans rebuilt

theorem lastRefreshed_append (initial : Snapshot) (trail : List Snapshot) (snapshot : Snapshot) :
    lastRefreshed initial (trail ++ [snapshot]) =
      if snapshot.degraded then lastRefreshed initial trail else snapshot := by
  cases degraded : snapshot.degraded <;> simp [lastRefreshed, degraded]

/-- What is published next is degraded and has the data of the snapshot before it, or it is a refreshed one. -/
theorem Publication.carries (publication : Publication valid contents p q) {initial : Snapshot}
    {trail : List Snapshot} (carries : p.snapshot.Carries (lastRefreshed initial trail)) :
    q.snapshot.Carries (lastRefreshed initial (trail ++ [q.snapshot])) := by
  rw [lastRefreshed_append]
  cases publication with
  | kept quiet =>
    rw [quiet.snapshot]
    split
    · exact carries
    · exact ⟨rfl, rfl, rfl⟩
  | degraded degraded =>
    rw [degraded.snapshot]
    exact ⟨carries.config, carries.phases, carries.matcher⟩
  | refreshed refreshed =>
    rw [refreshed.sound]
    exact ⟨rfl, rfl, rfl⟩

theorem Publication.settings (publication : Publication valid contents p q) : q.settings = p.settings := by
  cases publication with
  | kept quiet => exact quiet.settings
  | degraded degraded => exact degraded.settings
  | refreshed refreshed => exact refreshed.settings

theorem Publication.version (publication : Publication valid contents p q) :
    q.snapshot = p.snapshot ∨ q.snapshot.version = p.snapshot.version + 1 := by
  cases publication with
  | kept quiet => exact Or.inl quiet.snapshot
  | degraded degraded => exact Or.inr (by rw [degraded.snapshot])
  | refreshed refreshed => exact Or.inr refreshed.version

/-! ### What the calls do -/

theorem configurePool_unwritten (matcher : Matcher) :
    (configurePool matcher : Call σ Unit).Keeps moment (Unwritten valid contents) :=
  Call.configurePool_keeps (fun _ _ _ => ⟨⟨id, rfl, rfl⟩, rfl⟩) (fun _ _ => ⟨⟨id, rfl, rfl⟩, rfl⟩) matcher

theorem degrade_leads (sound : valid p.store) (fault : PlaneFault) :
    (degrade fault).Leads moment p fun _ q => Degraded valid p q :=
  Call.leads_plane_bind (Call.Leads.bind (Q := fun _ q => Degraded valid p q)
    (Call.leads_publishSnapshot ⟨sound, rfl, rfl⟩)
    (fun _ _ degraded => (Call.idle_report _ _ _).mono fun _ _ same => same ▸ degraded) fun _ _ => id)

/-- A call that rebuilds the snapshot, or else degrades it. -/
theorem orDegrade_publishes {α : Type} {c : Call σ α} (sound : valid p.store)
    (rebuilds : c.Leads moment p (Rebuilt valid contents p)) :
    (orDegrade c).Leads moment p fun _ q => Degraded valid p q ∨ Refreshed valid contents p q := by
  refine rebuilds.tryCatch (fun _ _ => Or.inr) fun fault q stays => ?_
  refine (degrade_leads (stays.valid sound) fault).bind (fun _ r degraded => ?_) fun _ _ degraded =>
    Or.inl (stays.degraded degraded)
  exact Call.leads_throw (Or.inl (stays.degraded degraded))

variable [ThrottleStore σ] (h : Faithful valid contents)

include h

theorem asked_stays {α : Type} (p : Plane σ) (s : StoreCall α) : Stays valid p (p.asked s) := ⟨h.valid_call s, rfl, rfl⟩

theorem asks_stays : Call.Asks (Stays valid) := fun p _ s _ => asked_stays h p s

/-- What is asked for, or not found, stays as it is stored. -/
theorem asked_unwritten {α : Type} {s : StoreCall α} (sound : valid p.store)
    (unwritten : ∀ a, (ThrottleStore.call s p.store).1 = .ok a →
      s.isRead = true ∨ s.missed a = true ∨ s.kind = .saveCounters) :
    Unwritten valid contents p (p.asked s) := by
  refine ⟨asked_stays h p s, ?_⟩
  cases answered : (ThrottleStore.call s p.store).1 with
  | error fault => exact h.fault s sound answered
  | ok a =>
    have answers := h.answer s sound answered
    have cause := unwritten a answered
    cases s with
    | loadConfig | loadPhases | listRules => exact answers.2
    | loadCounters | saveCounters _ => exact answers
    | updateRule _ | deleteRule _ =>
      exact answers (by simpa [StoreCall.isRead, StoreCall.missed, StoreCall.kind] using cause)
    | _ => simp [StoreCall.isRead, StoreCall.missed, StoreCall.kind] at cause

/-- A call that reads answers with the contents. -/
theorem leads_read {α : Type} {s : StoreCall α} (read : s.isRead = true) (sound : valid p.store) :
    (ask s).Leads moment p fun answer q => Unwritten valid contents p q ∧
      ∀ a, answer = .ok a → s.Answers a (contents p.store) (contents p.store) := by
  have unwritten := asked_unwritten h sound fun a (_ : (ThrottleStore.call s p.store).1 = .ok a) => Or.inl read
  refine Call.leads_ask ⟨unwritten, fun a ok => ?_⟩
  have answered := ((Call.ask_ok s p).mp ok)
  have answers := h.answer s sound answered
  rwa [show contents (ThrottleStore.call s p.store).2 = contents p.store from unwritten.contents] at answers

/-- Either a snapshot of the contents is published, or nothing is; the contents stay as they are. -/
theorem refresh_rebuilds (sound : valid p.store) :
    (refresh : Call σ Nat).Leads moment p fun answer q =>
      Rebuilt valid contents p answer q ∧ contents q.store = contents p.store := by
  refine (leads_read h (s := .loadConfig) rfl sound).bind (fun found q₁ reached => ?_)
    fun _ _ reached => ⟨reached.1.toStays, reached.1.contents⟩
  obtain ⟨one, answer⟩ := reached
  have config := (answer found rfl).1
  cases found with
  | none => exact Call.leads_throw ⟨one.toStays, one.contents⟩
  | some stored =>
    refine (leads_read h (s := .loadPhases) rfl (one.valid sound)).bind (fun phases q₂ reached => ?_)
      fun _ _ reached => ⟨(one.trans reached.1).toStays, (one.trans reached.1).contents⟩
    have two := one.trans reached.1
    have phases_eq := (reached.2 phases rfl).1
    refine (leads_read h (s := .listRules) rfl (two.valid sound)).bind (fun rules q₃ reached => ?_)
      fun _ _ reached => ⟨(two.trans reached.1).toStays, (two.trans reached.1).contents⟩
    have three := two.trans reached.1
    have rules_eq := (reached.2 rules rfl).1
    refine Call.leads_plane_bind (Call.leads_orInvalid_bind (fun matcher built => ?_) fun _ _ =>
      ⟨three.toStays, three.contents⟩)
    refine (configurePool_unwritten matcher q₃).bind (fun _ q₄ reached => ?_) fun _ _ reached =>
      ⟨(three.trans reached).toStays, (three.trans reached).contents⟩
    have four := three.trans reached
    have same : contents q₄.store = contents p.store := four.contents
    refine Call.leads_publishSnapshot ⟨⟨four.valid sound, four.settings, by rw [four.snapshot], rfl, ?_⟩, same⟩
    refine ⟨?_, ?_, ?_⟩
    · rw [same]
      exact config.symm
    · rw [same, ← one.contents, phases_eq]
    · rw [same, ← two.contents, ← rules_eq, four.settings, ← three.settings]
      exact built

theorem refresh_leads (sound : valid p.store) :
    (refresh : Call σ Nat).Leads moment p (Rebuilt valid contents p) :=
  (refresh_rebuilds h sound).mono fun _ _ => And.left

/-- When publishing succeeds, a snapshot of the contents is published, and they stay as they are. -/
theorem publish_leads (sound : valid p.store) :
    (publish : Call σ Nat).Leads moment p fun answer q => ∀ version, answer = .ok version →
      Refreshed valid contents p q ∧ contents q.store = contents p.store := by
  refine (refresh_rebuilds h sound).tryCatch (fun _ _ rebuilt _ _ => rebuilt) fun fault q reached => ?_
  exact (degrade_leads (reached.1.valid sound) fault).bind (fun _ _ _ => Call.leads_throw nofun) fun _ _ _ => nofun

theorem publish_publishes (sound : valid p.store) (reaches : publish.Reaches moment p q) :
    Degraded valid p q ∨ Refreshed valid contents p q :=
  let ⟨_, published⟩ := (orDegrade_publishes sound (refresh_leads h sound)).reached reaches
  published

theorem reseed_leads (sound : valid p.store) :
    (do let _ ← loadOrSeed; refresh : Call σ Nat).Leads moment p (Rebuilt valid contents p) :=
  (Call.loadOrSeed_keeps (asks_stays h) p).bind (fun _ _ stays =>
    (refresh_leads h (stays.valid sound)).mono fun _ _ => stays.rebuilt) fun _ _ => id

theorem reload_publishes (sound : valid p.store) (reaches : reload.Reaches moment p q) :
    Degraded valid p q ∨ Refreshed valid contents p q :=
  let ⟨_, published⟩ := (orDegrade_publishes sound (reseed_leads h sound)).reached reaches
  published

/-- Loading publishes the first snapshot, or degrades the one before any. -/
theorem load_publishes (sound : valid p.store) (reaches : load.Reaches moment p q) :
    Degraded valid p q ∨ Refreshed valid contents p q := by
  have leads : (load : Call σ Unit).Leads moment p fun _ q =>
      Degraded valid p q ∨ Refreshed valid contents p q := by
    refine Call.Leads.tryCatch (Q := Rebuilt valid contents p) ?_ (fun _ _ => Or.inr) fun fault q stays =>
      (degrade_leads (stays.valid sound) fault).mono fun _ _ degraded => Or.inl (stays.degraded degraded)
    refine (Call.loadOrSeed_keeps (asks_stays h) p).bind (fun _ q one => ?_) fun _ _ => id
    refine (Call.ask_keeps (asks_stays h) .loadCounters trivial q).bind (fun buckets r reached => ?_) fun _ _ =>
      one.trans
    refine Call.leads_wallNow_bind (Call.leads_setPlane_bind ?_)
    have two : Stays valid p { r with counters := r.counters.restore buckets moment.wall } :=
      (one.trans reached).trans ⟨id, rfl, rfl⟩
    exact (refresh_leads h (two.valid sound)).bind (fun _ _ refreshed =>
      Call.leads_pure (two.refreshed refreshed)) fun _ _ => two.trans
  obtain ⟨_, published⟩ := leads.reached reaches
  exact published

/-! ### What commands do -/

/-- A store that the snapshot shows is not seeded. -/
theorem loadOrSeed_quiet (coherent : Coherent valid contents p) (reaches : loadOrSeed.Reaches moment p q) :
    Quiet valid contents p q := by
  have stays := (Call.loadOrSeed_keeps (asks_stays h)).reached reaches
  refine ⟨stays, fun sound => ?_⟩
  have config := (coherent.shows sound).config
  have leads : (loadOrSeed : Call σ WarmupConfig).Leads moment p fun _ q =>
      contents q.store = contents p.store := by
    refine (leads_read h (s := .loadConfig) rfl coherent.valid).bind (fun found q reached => ?_)
      fun _ _ reached => reached.1.contents
    have stored := (reached.2 found rfl).1
    rw [config] at stored
    subst stored
    exact ((Call.idle_orInvalid _).bind fun _ => Call.idle_pure _) moment q |>.mono fun _ _ same =>
      same ▸ reached.1.contents
  obtain ⟨_, same⟩ := leads.reached reaches
  exact same

theorem Reads.quiet (coherent : Coherent valid contents p) (reads : Reads moment p q) :
    Quiet valid contents p q := by
  induction reads with
  | none => exact ⟨⟨id, rfl, rfl⟩, fun _ => rfl⟩
  | asked s read _ ih =>
    exact ih.trans (asked_unwritten h (ih.valid coherent.valid) fun _ _ => Or.inl read).quiet
  | seeded _ reaches ih => exact ih.trans (loadOrSeed_quiet h (ih.coherent coherent) reaches)

theorem Performs.publication (coherent : Coherent valid contents p) (performs : Performs moment p q) :
    Publication valid contents p q := by
  cases performs with
  | read reads => exact .kept (reads.quiet h coherent)
  | refused s _ vain reads =>
    have quiet := reads.quiet h coherent
    exact .kept (quiet.trans (asked_unwritten h (quiet.valid coherent.valid) fun a ok =>
      Or.inr (Or.inl (vain a ok))).quiet)
  | published s _ reads reaches =>
    have stays := (reads.quiet h coherent).toStays.trans (asked_stays h _ s)
    rcases publish_publishes h (stays.valid coherent.valid) reaches with degraded | refreshed
    · exact .degraded (stays.degraded degraded)
    · exact .refreshed (stays.refreshed refreshed)

/-- Counters that cannot be written degrade the snapshot, unless it is degraded already. -/
theorem persistCounters_publication (coherent : Coherent valid contents p)
    (reaches : persistCounters.Reaches moment p q) : Publication valid contents p q := by
  have leads : (persistCounters : Call σ Unit).Leads moment p fun _ q => Publication valid contents p q := by
    refine Call.leads_wallNow_bind (Call.leads_setPlane_bind (Call.leads_plane_bind ?_))
    generalize rolled : ({ p with counters := p.counters.rolled moment.wall } : Plane σ) = p'
    have one : Unwritten valid contents p p' := rolled ▸ ⟨⟨id, rfl, rfl⟩, rfl⟩
    -- Whether the call fails or not, the store holds what it held.
    have two := one.trans (asked_unwritten h (s := .saveCounters p'.counters.buckets) (one.valid coherent.valid)
      fun _ _ => Or.inr (Or.inr rfl))
    refine Call.Leads.tryCatch (Q := fun _ q => Unwritten valid contents p q) (Call.leads_ask two)
      (fun _ _ unwritten => .kept unwritten.quiet) fun fault q unwritten => ?_
    refine Call.leads_affect_bind (Call.leads_plane_bind ?_)
    dsimp only
    split
    · refine (degrade_leads (unwritten.valid coherent.valid) fault).bind (fun _ _ degraded => ?_)
        fun _ _ degraded => .degraded (unwritten.degraded degraded)
      exact Call.leads_throw (.degraded (unwritten.degraded degraded))
    · exact Call.leads_throw (.kept unwritten.quiet)
  obtain ⟨_, published⟩ := leads.reached reaches
  exact published

/-- Each command leaves the snapshot as it is, or publishes exactly one. -/
theorem Command.publication (coherent : Coherent valid contents p) (moment : Moment) (command : Command) :
    Publication valid contents p (command.perform moment p) := by
  rcases command.perform_cases moment p with performs | ⟨-, reaches⟩ | ⟨-, reaches⟩ |
    ⟨_, _, -, released⟩ | ⟨-, reclaimed⟩
  · exact performs.publication h coherent
  · rcases reload_publishes h coherent.valid reaches with degraded | refreshed
    · exact .degraded degraded
    · exact .refreshed refreshed
  · exact persistCounters_publication h coherent reaches
  · rw [released]
    exact .kept ⟨⟨id, rfl, rfl⟩, fun _ => rfl⟩
  · rw [reclaimed]
    exact .kept ⟨⟨id, rfl, rfl⟩, fun _ => rfl⟩

/-! ### Runs -/

theorem afterAll_coherent {initial : Snapshot} (coherent : Coherent valid contents p)
    (carries : p.snapshot.Carries (lastRefreshed initial [p.snapshot])) (commands : List (Moment × Command)) :
    Coherent valid contents (p.afterAll commands) ∧ (p.afterAll commands).settings = p.settings ∧
      (p.afterAll commands).snapshot.Carries (lastRefreshed initial (p.trail commands)) := by
  induction commands using List.reverseRecOn with
  | nil => exact ⟨coherent, rfl, carries⟩
  | append_singleton commands last ih =>
    obtain ⟨moment, command⟩ := last
    obtain ⟨coherent, settings, carries⟩ := ih
    have publication := command.publication h coherent moment
    rw [afterAll_append, trail_append]
    exact ⟨publication.coherent coherent, publication.settings.trans settings, publication.carries carries⟩

omit h in
/-- A plane is opened by loading the store into a blank one. -/
theorem of_launch {store : σ} {settings : EngineSettings} {effects : Lease.Effects}
    (launched : Plane.launch store settings moment = .ok (p, effects)) :
    ∃ blank, Plane.unloaded store settings moment.wall = .ok blank ∧ p = load.after moment blank := by
  obtain ⟨blank, unloaded, same⟩ := ok_of_bind launched
  cases same
  exact ⟨blank, unloaded, rfl⟩

omit [ThrottleStore σ] h in
theorem of_unloaded {store : σ} {settings : EngineSettings} {blank : Plane σ} {now : Time.Instant}
    (unloaded : Plane.unloaded store settings now = .ok blank) :
    blank.store = store ∧ blank.settings = settings ∧ blank.snapshot.degraded = true := by
  obtain ⟨matcher, -, same⟩ := ok_of_bind unloaded
  cases same
  exact ⟨rfl, rfl, rfl⟩

/-- The published snapshot is coherent with the store. From the opening of a plane over a store that answers with
what it holds, which nobody else writes and which may fail at any call, any commands lead to a snapshot that shows
what is stored unless it is degraded; a degraded one has the data of the last that was refreshed, or of the initial
one before any. Opening publishes one snapshot, and so does a command, or none; each has the next version. -/
theorem snapshot_coherent {store : σ} (sound : valid store) {settings : EngineSettings} {opened : Moment}
    {effects : Lease.Effects} (launched : Plane.launch store settings opened = .ok (p, effects))
    (commands : List (Moment × Command)) :
    ∃ blank, Plane.unloaded store settings opened.wall = .ok blank ∧
      let q := p.afterAll commands
      (q.snapshot.degraded = false → q.snapshot.Shows (contents q.store) settings.defaultTransport) ∧
      (q.snapshot.degraded = true →
        q.snapshot.Carries (lastRefreshed blank.snapshot (p.trail commands))) ∧
      p.snapshot.version = blank.snapshot.version + 1 ∧
      ∀ moment (command : Command), let r := command.perform moment q
        r.snapshot = q.snapshot ∨ r.snapshot.version = q.snapshot.version + 1 := by
  obtain ⟨blank, unloaded, rfl⟩ := of_launch launched
  obtain ⟨rfl, rfl, degraded⟩ := of_unloaded unloaded
  have nothing : Coherent valid contents blank :=
    ⟨sound, fun refreshed => by rw [degraded] at refreshed; cases refreshed⟩
  have published := load_publishes h sound (load.reaches_after opened blank)
  have publication : Publication valid contents blank (load.after opened blank) :=
    published.elim .degraded .refreshed
  have version : (load.after opened blank).snapshot.version = blank.snapshot.version + 1 :=
    published.elim (fun degraded => by rw [degraded.snapshot]) (·.version)
  have initial : blank.snapshot.Carries (lastRefreshed blank.snapshot []) := ⟨rfl, rfl, rfl⟩
  have carries := publication.carries initial
  obtain ⟨coherent, settings, carries⟩ := afterAll_coherent h (publication.coherent nothing) carries commands
  refine ⟨blank, unloaded, fun refreshed => ?_, fun _ => carries, version, fun moment command => ?_⟩
  · rw [← publication.settings, ← settings]
    exact coherent.shows refreshed
  · exact (command.publication h coherent moment).version

omit h [ThrottleStore σ] in
/-- An empty store fails after an operator has switched throttling on, before the snapshot is rebuilt, and once more
when counters are written; in between it is reloaded. -/
theorem snapshot_coherent_failures :
    let fault : StoreFault := ⟨.io, "offline"⟩
    let store : PlannedStore MemoryStore :=
      ⟨.empty, List.replicate 8 none ++ some fault :: List.replicate 4 none ++ [some fault]⟩
    let settings : EngineSettings := { EngineSettings.standard with seedPhases := false, seedRules := false }
    let commands : List (Moment × Command) :=
      [(⟨⟨1⟩, 1⟩, .updateConfig ⟨some true, none⟩), (⟨⟨2⟩, 2⟩, .reload), (⟨⟨3⟩, 3⟩, .persistCounters)]
    ∃ p effects, Plane.launch store settings ⟨⟨0⟩, 0⟩ = .ok (p, effects) ∧
      (p.trail commands).map (fun s => (s.version, s.config.enabled, s.degraded)) =
        [(1, false, false), (2, false, true), (3, true, false), (4, true, true)] ∧
      (p.afterAll (commands.take 2)).snapshot.Shows
        (p.afterAll (commands.take 2)).store.inner.contents settings.defaultTransport := by
  intro fault store settings commands
  have opens : ((Plane.launch store settings ⟨⟨0⟩, 0⟩).toOption.map fun opened =>
      ((opened.1.trail commands).map (fun s => (s.version, s.config.enabled, s.degraded)),
        (opened.1.afterAll (commands.take 2)).snapshot.degraded)) =
      some ([(1, false, false), (2, false, true), (3, true, false), (4, true, true)], false) := by
    decide +kernel
  cases launched : Plane.launch store settings ⟨⟨0⟩, 0⟩ with
  | error fault =>
    rw [launched] at opens
    cases opens
  | ok opened =>
    obtain ⟨p, effects⟩ := opened
    rw [launched] at opens
    obtain ⟨trail, refreshed⟩ := Prod.mk.inj (Option.some.inj opens)
    obtain ⟨_, -, shows, -⟩ := snapshot_coherent (PlannedStore.faithful MemoryStore.faithful) trivial launched
      (commands.take 2)
    exact ⟨p, effects, rfl, trail, shows refreshed⟩

end RelayRamp.Plane
