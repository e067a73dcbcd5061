import Mathlib.Logic.Relation
import RelayRamp.Proofs.Plane.Calls
import RelayRamp.Proofs.Store.Contents

/-!
# What a command does

The calls of operators and of maintenance as data. Most of them read the store, perhaps write to it once, and then
publish; a write that failed, or that found nothing to write to, ends the command. So there are only a few things
that a command can do to the plane.
-/
namespace RelayRamp.Plane

open RelayRamp.Lease RelayRamp.Routing RelayRamp.Store RelayRamp.Time RelayRamp.Warmup

/-- The calls of operators and of maintenance. -/
inductive Command where
  | getConfig
  | updateConfig (update : ConfigUpdate)
  | warmupStatus
  | setPhase (number : Nat)
  | resetWarmup
  | listPhases
  | replacePhases (phases : List WarmupPhase)
  | updatePhase (number : Nat) (patch : PhasePatch)
  | listRules
  | createRule (draft : RuleDraft)
  | updateRule (id : Nat) (patch : RulePatch)
  | deleteRule (id : Nat)
  | transportMap
  | serviceBlock
  | releaseLease (transport : TransportName) (lease : Nat)
  | reclaimLeases
  | persistCounters
  | reload

variable {σ α β : Type} [ThrottleStore σ] {moment : Moment} {p q : Plane σ}

/-- A command as a call. -/
def Command.call : Command → (α : Type) × Call σ α
  | getConfig => ⟨_, Plane.getConfig⟩
  | updateConfig update => ⟨_, Plane.updateConfig update⟩
  | warmupStatus => ⟨_, Plane.warmupStatus⟩
  | setPhase number => ⟨_, Plane.setPhase number⟩
  | resetWarmup => ⟨_, Plane.resetWarmup⟩
  | listPhases => ⟨_, Plane.listPhases⟩
  | replacePhases phases => ⟨_, Plane.replacePhases phases⟩
  | updatePhase number patch => ⟨_, Plane.updatePhase number patch⟩
  | listRules => ⟨_, Plane.listRules⟩
  | createRule draft => ⟨_, Plane.createRule draft⟩
  | updateRule id patch => ⟨_, Plane.updateRule id patch⟩
  | deleteRule id => ⟨_, Plane.deleteRule id⟩
  | transportMap => ⟨_, Plane.transportMap⟩
  | serviceBlock => ⟨_, Plane.serviceBlock⟩
  | releaseLease transport lease => ⟨_, Plane.releaseLease transport lease⟩
  | reclaimLeases => ⟨_, Plane.reclaimLeases⟩
  | persistCounters => ⟨_, Plane.persistCounters⟩
  | reload => ⟨_, Plane.reload⟩

/-- The plane after a command. -/
def Command.perform (moment : Moment) (p : Plane σ) (command : Command) : Plane σ := command.call.2.after moment p

/-! ### Reading, then writing, then publishing -/

/-- The plane with the store as the call leaves it. -/
protected def asked (p : Plane σ) (s : StoreCall α) : Plane σ :=
  { p with store := (ThrottleStore.call s p.store).2 }

/-- What a command does before it writes: it reads the store and, for the configuration, fills an empty one. -/
inductive Reads (moment : Moment) (p : Plane σ) : Plane σ → Prop
  | none : Reads moment p p
  | asked {q : Plane σ} {α : Type} (s : StoreCall α) (read : s.isRead = true) :
      Reads moment p q → Reads moment p (q.asked s)
  | seeded {q r : Plane σ} : Reads moment p q → loadOrSeed.Reaches moment q r → Reads moment p r

theorem Reads.trans {r : Plane σ} (first : Reads moment p q) (rest : Reads moment q r) : Reads moment p r := by
  induction rest with
  | none => exact first
  | asked s read _ ih => exact ih.asked s read
  | seeded _ reaches ih => exact ih.seeded reaches

instance : IsPreorder (Plane σ) (Reads moment) where
  refl _ := .none
  trans _ _ _ := Reads.trans

/-- What a command does to the plane. -/
inductive Performs (moment : Moment) (p : Plane σ) : Plane σ → Prop
  | read {q : Plane σ} : Reads moment p q → Performs moment p q
  /-- A write failed or found nothing to write to. -/
  | refused {q : Plane σ} {α : Type} (s : StoreCall α) (vetted : s.Vetted)
      (vain : ∀ a, (ThrottleStore.call s q.store).1 = .ok a → s.missed a = true) :
      Reads moment p q → Performs moment p (q.asked s)
  /-- After a write the snapshot is published. -/
  | published {q r : Plane σ} {α : Type} (s : StoreCall α) (vetted : s.Vetted) :
      Reads moment p q → publish.Reaches moment (q.asked s) r → Performs moment p r

theorem Reads.performs {r : Plane σ} (first : Reads moment p q) (rest : Performs moment q r) :
    Performs moment p r := by
  cases rest with
  | read reads => exact .read (first.trans reads)
  | refused s vetted vain reads => exact .refused s vetted vain (first.trans reads)
  | published s vetted reads reaches => exact .published s vetted (first.trans reads) reaches

namespace Call

theorem ask_reads {s : StoreCall α} (read : s.isRead = true) :
    (ask s : Call σ α).Keeps moment (Reads moment) :=
  fun _ => leads_ask (.asked s read .none)

theorem loadOrSeed_reads : (loadOrSeed : Call σ WarmupConfig).Keeps moment (Reads moment) :=
  fun _ effects => .seeded .none ⟨effects, rfl⟩

theorem storedTable_reads : (storedTable : Call σ PhaseTable).Keeps moment (Reads moment) := by
  refine (ask_reads rfl).bind fun phases => ?_
  split
  · exact (idle_pure _).keeps moment
  · exact (idle_throw _).keeps moment

theorem listPhases_reads : (listPhases : Call σ (List WarmupPhase)).Keeps moment (Reads moment) :=
  (ask_reads rfl).bind fun _ => (idle_pure _).keeps moment

theorem transportMap_reads : (transportMap : Call σ String).Keeps moment (Reads moment) :=
  (ask_reads rfl).bind fun _ => (idle_pure _).keeps moment

theorem serviceBlock_reads : (serviceBlock : Call σ String).Keeps moment (Reads moment) :=
  (ask_reads rfl).bind fun _ => (idle_pure _).keeps moment

theorem warmupStatus_reads : (warmupStatus : Call σ WarmupStatus).Keeps moment (Reads moment) :=
  (idle_plane.bind fun _ => (idle_orMisconfigured _).bind fun _ => idle_wallNow.bind fun _ =>
    idle_pure _).keeps moment

variable {c : Call σ α} {f : α → Call σ β}

theorem Keeps.performs (reads : c.Keeps moment (Reads moment)) : c.Keeps moment (Performs moment) :=
  reads.mono fun _ _ => .read

theorem Keeps.then_performs (first : c.Keeps moment (Reads moment))
    (rest : ∀ a, (f a).Keeps moment (Performs moment)) : (c >>= f).Keeps moment (Performs moment) :=
  first.seq rest (fun _ _ _ => Reads.performs) fun _ _ => .read

theorem Idle.then_performs (first : c.Idle) (rest : ∀ a, (f a).Keeps moment (Performs moment)) :
    (c >>= f).Keeps moment (Performs moment) :=
  (first.keeps moment).then_performs rest

theorem Keeps.orInvalid_performs {r : Except ValidationFault α}
    (rest : ∀ a, r = .ok a → (f a).Keeps moment (Performs moment)) :
    (orInvalid r >>= f).Keeps moment (Performs moment) := fun p =>
  leads_orInvalid_bind (fun a ok => rest a ok p) fun _ _ => .read .none

/-- The call writes: it asks the store, does nothing else and succeeds when the store does. -/
def Writes (c : Call σ α) (moment : Moment) (s : StoreCall α) : Prop :=
  ∀ session, c.Ends moment session fun r t => t = { session with plane := session.plane.asked s } ∧
    ∀ a, r = .ok a ↔ (ThrottleStore.call s session.plane.store).1 = .ok a

theorem ask_writes (s : StoreCall α) : (ask s : Call σ α).Writes moment s :=
  fun session => ends_ask ⟨rfl, fun _ => ask_ok s session.plane⟩

theorem askUnique_writes (pattern : String) (s : StoreCall α) :
    (askUnique pattern s : Call σ α).Writes moment s := by
  refine fun session => (ask_writes s session).tryCatch (fun _ _ => id) fun fault t reached => ?_
  split
  · exact ends_throw ⟨reached.1, fun a => by simpa using reached.2 a⟩
  · exact ends_throw reached

/-- The call publishes, and then changes nothing more. -/
theorem publish_reaches {g : Nat → Call σ β} (rest : ∀ version, (g version).Idle) :
    (publish >>= g).Keeps moment (publish.Reaches moment) :=
  Keeps.seq (R := publish.Reaches moment) (fun _ effects => ⟨effects, rfl⟩) (fun version => rest version moment)
    (fun _ _ _ reaches same => same ▸ reaches) fun _ _ => id

/-- After a write that took place the snapshot is published. -/
theorem Writes.then_performs {s : StoreCall α} (writes : c.Writes moment s) (vetted : s.Vetted)
    (found : ∀ a, s.missed a = false → (f a).Keeps moment (publish.Reaches moment))
    (missed : ∀ a, s.missed a = true → (f a).Idle) : (c >>= f).Keeps moment (Performs moment) := by
  refine fun p effects => (writes ⟨p, effects⟩).bind (R := fun _ t => Performs moment p t.plane)
    (fun a t reached => ?_) fun fault t reached => ?_
  · obtain ⟨rfl, answered⟩ := reached
    cases missing : s.missed a with
    | false => exact ((found a missing _).mono fun _ _ => .published s vetted .none).ends effects
    | true =>
      refine ((missed a missing moment _).mono fun _ _ same => same ▸ ?_).ends effects
      refine .refused s vetted (fun b other => ?_) .none
      cases (answered b).mpr other
      exact missing
  · obtain ⟨rfl, answered⟩ := reached
    exact .refused s vetted (fun b other => nomatch (answered b).mpr other) .none

/-! ### The calls of operators -/

theorem updateConfig_performs (update : ConfigUpdate) :
    (updateConfig update : Call σ WarmupConfig).Keeps moment (Performs moment) := by
  refine loadOrSeed_reads.then_performs fun before => (idle_orInvalid _).then_performs fun config => ?_
  refine (ask_writes (.saveConfig config)).then_performs trivial (fun _ _ => publish_reaches fun _ => ?_)
    fun _ => nofun
  refine (idle_report _).bind fun _ => ?_
  dsimp only
  split
  · exact (idle_report _).bind fun _ => idle_pure _
  · exact idle_pure _

theorem restart_performs (config : WarmupConfig) (table : PhaseTable) (event : AuditEvent) :
    (restart config table event : Call σ WarmupStatus).Keeps moment (Performs moment) :=
  (ask_writes (.saveConfig config)).then_performs trivial (fun _ _ => publish_reaches fun _ =>
    (idle_report _).bind fun _ => idle_wallNow.bind fun _ => idle_pure _) fun _ => nofun

theorem setPhase_performs (number : Nat) :
    (setPhase number : Call σ WarmupStatus).Keeps moment (Performs moment) :=
  loadOrSeed_reads.then_performs fun _ => storedTable_reads.then_performs fun _ =>
    idle_wallNow.then_performs fun _ => (idle_orInvalid _).then_performs fun _ => restart_performs _ _ _

theorem resetWarmup_performs : (resetWarmup : Call σ WarmupStatus).Keeps moment (Performs moment) :=
  loadOrSeed_reads.then_performs fun _ => storedTable_reads.then_performs fun _ =>
    idle_wallNow.then_performs fun _ => restart_performs _ _ _

theorem replacePhases_performs (phases : List WarmupPhase) :
    (replacePhases phases : Call σ (List WarmupPhase)).Keeps moment (Performs moment) :=
  (idle_orInvalid _).then_performs fun table =>
    (ask_writes (.replacePhases table.phases)).then_performs trivial (fun _ _ =>
      publish_reaches fun _ => (idle_report _).bind fun _ => idle_pure _) fun _ => nofun

theorem updatePhase_performs (number : Nat) (patch : PhasePatch) :
    (updatePhase number patch : Call σ WarmupPhase).Keeps moment (Performs moment) := by
  refine storedTable_reads.then_performs fun stored => (idle_orInvalid _).then_performs fun table => ?_
  refine (ask_writes (.replacePhases table.phases)).then_performs trivial
    (fun _ _ => publish_reaches fun _ => ?_) fun _ => nofun
  refine (idle_report _).bind fun _ => ?_
  split
  · exact idle_pure _
  · exact idle_throw _

theorem createRule_performs (draft : RuleDraft) :
    (createRule draft : Call σ TransportRule).Keeps moment (Performs moment) :=
  Keeps.orInvalid_performs fun validated valid => (ask_reads rfl).then_performs fun _ =>
    (idle_requireUnused _ _ _).then_performs fun _ =>
      (askUnique_writes _ (.insertRule validated.2)).then_performs ⟨draft, validated.1, valid⟩ (fun _ _ =>
        publish_reaches fun _ => (idle_report _).bind fun _ => idle_pure _) fun _ => nofun

theorem updateRule_performs (id : Nat) (patch : RulePatch) :
    (updateRule id patch : Call σ TransportRule).Keeps moment (Performs moment) := by
  refine (ask_reads rfl).then_performs fun rules => ?_
  split
  · refine Keeps.orInvalid_performs fun validated valid => (idle_requireUnused _ _ _).then_performs fun _ => ?_
    refine (askUnique_writes _ (.updateRule (validated.2.withId id))).then_performs
      ⟨_, validated.1, valid⟩ (fun found taken => ?_) fun found missed => ?_
    · rw [StoreCall.missed] at taken
      simp only [taken]
      exact publish_reaches fun _ => (idle_report _).bind fun _ => idle_pure _
    · rw [StoreCall.missed] at missed
      simp only [missed]
      exact idle_throw_bind _ _
  · exact (idle_throw _).keeps moment |>.performs

theorem deleteRule_performs (id : Nat) : (deleteRule id : Call σ Unit).Keeps moment (Performs moment) := by
  refine (ask_writes (.deleteRule id)).then_performs trivial (fun found taken => ?_) fun found missed => ?_
  · rw [StoreCall.missed] at taken
    simp only [taken]
    exact publish_reaches fun _ => idle_report _
  · rw [StoreCall.missed] at missed
    simp only [missed]
    exact idle_throw_bind _ _

end Call

/-- What the commands do: all but four read, write and publish. -/
theorem Command.perform_cases (moment : Moment) (p : Plane σ) (command : Command) :
    Performs moment p (command.perform moment p) ∨
    (command = .reload ∧ Plane.reload.Reaches moment p (command.perform moment p)) ∨
    (command = .persistCounters ∧ Plane.persistCounters.Reaches moment p (command.perform moment p)) ∨
    (∃ transport lease, command = .releaseLease transport lease ∧
      command.perform moment p = { p with pool := (p.pool.release transport lease moment.tick).1 }) ∨
    (command = .reclaimLeases ∧
      command.perform moment p =
        { p with pool := (p.pool.reclaim p.settings.maxDelivery moment.tick).1 }) := by
  cases command with
  | getConfig => exact Or.inl (Call.loadOrSeed_reads.performs.after p)
  | updateConfig update => exact Or.inl ((Call.updateConfig_performs update).after p)
  | warmupStatus => exact Or.inl (Call.warmupStatus_reads.performs.after p)
  | setPhase number => exact Or.inl ((Call.setPhase_performs number).after p)
  | resetWarmup => exact Or.inl (Call.resetWarmup_performs.after p)
  | listPhases => exact Or.inl (Call.listPhases_reads.performs.after p)
  | replacePhases phases => exact Or.inl ((Call.replacePhases_performs phases).after p)
  | updatePhase number patch => exact Or.inl ((Call.updatePhase_performs number patch).after p)
  | listRules => exact Or.inl ((Call.ask_reads rfl).performs.after p)
  | createRule draft => exact Or.inl ((Call.createRule_performs draft).after p)
  | updateRule id patch => exact Or.inl ((Call.updateRule_performs id patch).after p)
  | deleteRule id => exact Or.inl ((Call.deleteRule_performs id).after p)
  | transportMap => exact Or.inl (Call.transportMap_reads.performs.after p)
  | serviceBlock => exact Or.inl (Call.serviceBlock_reads.performs.after p)
  | releaseLease transport lease => exact Or.inr (Or.inr (Or.inr (Or.inl ⟨transport, lease, rfl, rfl⟩)))
  | reclaimLeases => exact Or.inr (Or.inr (Or.inr (Or.inr ⟨rfl, rfl⟩)))
  | persistCounters => exact Or.inr (Or.inr (Or.inl ⟨rfl, Call.reaches_after _ moment p⟩))
  | reload => exact Or.inr (Or.inl ⟨rfl, Call.reaches_after _ moment p⟩)

/-! ### The changes that commands make -/

/-- One change that calls make other than releasing leases. -/
inductive Change (moment : Moment) (p : Plane σ) : Plane σ → Prop
  | asked {α : Type} (s : StoreCall α) (vetted : s.Vetted) : Change moment p (p.asked s)
  | saved : Change moment p (p.asked (.saveCounters p.counters.buckets))
  | published (next : Snapshot) :
      Change moment p { p with snapshot := { next with version := p.snapshot.version + 1 } }
  | rolled : Change moment p { p with counters := p.counters.rolled moment.wall }
  | configured (name : TransportName) (limits : TransportLimits) :
      Change moment p { p with pool := (p.pool.configure name limits moment.tick).1 }
  | retained (keep : List TransportName) : Change moment p { p with pool := p.pool.retain keep }

/-- Any number of changes, one after another. -/
abbrev Changes (moment : Moment) : Plane σ → Plane σ → Prop := Relation.ReflTransGen (Change moment)

theorem changes_permits : Call.Permits moment (Changes moment : Plane σ → Plane σ → Prop) where
  asks _ _ s vetted := .single (.asked s vetted)
  configured _ name limits := .single (.configured name limits)
  retained _ keep := .single (.retained keep)
  published _ next := .single (.published next)

theorem vetted_of_read {s : StoreCall α} (read : s.isRead = true) : s.Vetted := by
  cases s with
  | loadConfig | loadPhases | listRules | loadCounters => trivial
  | _ => cases read

theorem Reads.changes (reads : Reads moment p q) : Changes moment p q := by
  induction reads with
  | none => exact .refl
  | asked s read _ ih => exact ih.tail (.asked s (vetted_of_read read))
  | seeded _ reaches ih => exact ih.trans ((Call.loadOrSeed_keeps changes_permits.asks).reached reaches)

theorem Performs.changes (performs : Performs moment p q) : Changes moment p q := by
  cases performs with
  | read reads => exact reads.changes
  | refused s vetted _ reads => exact reads.changes.tail (.asked s vetted)
  | published s vetted reads reaches =>
    exact (reads.changes.tail (.asked s vetted)).trans ((Call.publish_keeps changes_permits).reached reaches)

/-- Apart from the release of leases, a command makes changes of the kinds above. -/
theorem Command.changes (moment : Moment) (p : Plane σ) (command : Command) :
    Changes moment p (command.perform moment p) ∨
    (∃ transport lease, command = .releaseLease transport lease ∧
      command.perform moment p = { p with pool := (p.pool.release transport lease moment.tick).1 }) ∨
    (command = .reclaimLeases ∧
      command.perform moment p =
        { p with pool := (p.pool.reclaim p.settings.maxDelivery moment.tick).1 }) := by
  rcases command.perform_cases moment p with performs | ⟨-, reaches⟩ | ⟨-, reaches⟩ | other
  · exact Or.inl performs.changes
  · exact Or.inl ((Call.reload_keeps changes_permits).reached reaches)
  · exact Or.inl ((Call.persistCounters_keeps changes_permits (fun _ => .single .rolled) fun _ =>
      .single .saved).reached reaches)
  · exact Or.inr other

/-! ### Runs of commands -/

/-- The plane after commands. -/
protected def afterAll (p : Plane σ) (commands : List (Moment × Command)) : Plane σ :=
  commands.foldl (fun p entry => entry.2.perform entry.1 p) p

/-- The snapshots of the plane, before the commands and after each. -/
protected def trail (p : Plane σ) : List (Moment × Command) → List Snapshot
  | [] => [p.snapshot]
  | (moment, command) :: rest => p.snapshot :: (command.perform moment p).trail rest

theorem afterAll_append (p : Plane σ) (commands : List (Moment × Command)) (moment : Moment) (command : Command) :
    p.afterAll (commands ++ [(moment, command)]) = command.perform moment (p.afterAll commands) :=
  List.foldl_append

theorem trail_append (p : Plane σ) (commands : List (Moment × Command)) (moment : Moment) (command : Command) :
    p.trail (commands ++ [(moment, command)]) =
      p.trail commands ++ [(command.perform moment (p.afterAll commands)).snapshot] := by
  induction commands generalizing p with
  | nil => rfl
  | cons entry rest ih => exact congrArg _ (ih _)

end RelayRamp.Plane
