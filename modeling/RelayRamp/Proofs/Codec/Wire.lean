import RelayRamp.Codec.Admission
import RelayRamp.Proofs.Json.Records

/-!
# Verdicts and patches on the wire

A verdict is read back from its JSON, and so is a patch. Each kind of record is read back for itself; the kinds that
carry a tag then differ by it.
-/
namespace RelayRamp

open RelayRamp.Json RelayRamp.Routing RelayRamp.Time

/-! ### Verdicts -/

theorem ConfigurationFault.readsBack (fault : ConfigurationFault) : ReadsBack toJson ofJson? fault := by
  constructor
  · cases fault with
    | emptyBatch => rfl
    | malformedDomain text | unknownTransport text | inconsistentPhaseTable text =>
      have cells (tag : String) : (Json.obj [("kind", .str tag), ("detail", .str text)]).cells ["kind", "detail"] =
          some [.given (.str tag), .given (.str text)] := cells_obj rfl (by decide)
      apply read_then (cells _)
      apply read_then (readsBack_str _).required
      rfl
  · cases fault <;> nofun

theorem Routing.TransportName.readsBack (name : TransportName) : ReadsBack toJson ofJson? name := ⟨rfl, nofun⟩

namespace Time

theorem WindowKind.readsBack (kind : WindowKind) : ReadsBack toJson ofJson? kind := by
  constructor
  · cases kind <;> rfl
  · nofun

/-- The counts are long numbers. -/
def CounterReading.Fits (r : CounterReading) : Prop := r.hour < Width.long ∧ r.day < Width.long

theorem CounterReading.readsBack {r : CounterReading} (fits : r.Fits) : ReadsBack toJson ofJson? r := by
  obtain ⟨hour, day⟩ := fits
  constructor
  · have cells : r.toJson.cells ["hour", "day"] = some [.given (.nat r.hour), .given (.nat r.day)] :=
      cells_obj rfl (by decide)
    apply read_then cells
    apply read_then (readsBack_nat hour).required
    exact read_then (readsBack_nat day).required rfl
  · nofun

end Time

namespace Admission

/-- The number of the lease is a long number. -/
def LeaseTicket.Fits (t : LeaseTicket) : Prop := t.leaseId < Width.long

theorem LeaseTicket.readsBack {t : LeaseTicket} (fits : t.Fits) : ReadsBack toJson ofJson? t := by
  constructor
  · have cells : t.toJson.cells ["transport", "lease_id"] =
        some [.given t.transport.toJson, .given (.nat t.leaseId)] := cells_obj rfl (by decide)
    apply read_then cells
    apply read_then t.transport.readsBack.required
    exact read_then (readsBack_nat fits).required rfl
  · nofun

/-- Every number in the reason is a long number. -/
def HoldReason.Fits : HoldReason → Prop
  | capacityExceeded _ current requested limit =>
    current < Width.long ∧ requested < Width.long ∧ limit < Width.long
  | burstExceeded requested limit => requested < Width.long ∧ limit < Width.long
  | leaseTimeout _ | failSafe => True

theorem HoldReason.readsBack {reason : HoldReason} (fits : reason.Fits) : ReadsBack toJson ofJson? reason := by
  constructor
  · cases reason with
    | capacityExceeded window current requested limit =>
      obtain ⟨currentFits, requestedFits, limitFits⟩ := fits
      let members := [("window", window.toJson), ("current", Json.nat current), ("requested", .nat requested),
        ("limit", .nat limit)]
      have listed : members.map (·.1) = ["window", "current", "requested", "limit"] := rfl
      have tagged : (capacityExceeded window current requested limit).toJson.tagged "kind" =
          some ("capacity_exceeded", .obj members) := tagged_obj listed (by decide)
      apply read_then tagged
      apply read_then (cells_obj listed (by decide))
      apply read_then window.readsBack.required
      apply read_then (readsBack_nat currentFits).required
      apply read_then (readsBack_nat requestedFits).required
      exact read_then (readsBack_nat limitFits).required rfl
    | burstExceeded requested limit =>
      obtain ⟨requestedFits, limitFits⟩ := fits
      let members := [("requested", Json.nat requested), ("burst_limit", .nat limit)]
      have listed : members.map (·.1) = ["requested", "burst_limit"] := rfl
      have tagged : (burstExceeded requested limit).toJson.tagged "kind" = some ("burst_exceeded", .obj members) :=
        tagged_obj listed (by decide)
      apply read_then tagged
      apply read_then (cells_obj listed (by decide))
      apply read_then (readsBack_nat requestedFits).required
      exact read_then (readsBack_nat limitFits).required rfl
    | leaseTimeout transport =>
      let members := [("transport", transport.toJson)]
      have listed : members.map (·.1) = ["transport"] := rfl
      have tagged : (leaseTimeout transport).toJson.tagged "kind" = some ("lease_timeout", .obj members) :=
        tagged_obj listed (by decide)
      apply read_then tagged
      apply read_then (cells_obj listed (by decide))
      exact read_then transport.readsBack.required rfl
    | failSafe => rfl
  · nofun

/-- Every number in the verdict is a long number. -/
def Verdict.Fits : Verdict → Prop
  | admitted _ ruleId lease counters =>
    (∀ id ∈ ruleId, id < Width.long) ∧ (∀ ticket ∈ lease, ticket.Fits) ∧ counters.Fits
  | held reason => reason.Fits
  | rejected _ => True

theorem Verdict.readsBack {v : Verdict} (fits : v.Fits) : ReadsBack toJson ofJson? v := by
  constructor
  · cases v with
    | admitted transport ruleId lease counters =>
      obtain ⟨ruleFits, leaseFits, countersFit⟩ := fits
      let members := [("transport", Json.option TransportName.toJson transport), ("rule_id", .option .nat ruleId),
        ("lease", .option LeaseTicket.toJson lease), ("counters", counters.toJson)]
      have listed : members.map (·.1) = ["transport", "rule_id", "lease", "counters"] := rfl
      have tagged : (admitted transport ruleId lease counters).toJson.tagged "state" =
          some ("admitted", .obj members) := tagged_obj listed (by decide)
      apply read_then tagged
      apply read_then (cells_obj listed (by decide))
      apply read_then (readsBack_optional fun name _ => name.readsBack)
      apply read_then (readsBack_optional fun id given => readsBack_nat (ruleFits id given))
      apply read_then (readsBack_optional fun ticket given => LeaseTicket.readsBack (leaseFits ticket given))
      exact read_then (CounterReading.readsBack countersFit).required rfl
    | held reason =>
      have listed : [("reason", reason.toJson)].map (·.1) = ["reason"] := rfl
      have tagged : (held reason).toJson.tagged "state" = some ("held", .obj [("reason", reason.toJson)]) :=
        tagged_obj listed (by decide)
      apply read_then tagged
      apply read_then (cells_obj listed (by decide))
      exact read_then (HoldReason.readsBack fits).required rfl
    | rejected reason =>
      have listed : [("reason", reason.toJson)].map (·.1) = ["reason"] := rfl
      have tagged : (rejected reason).toJson.tagged "state" = some ("rejected", .obj [("reason", reason.toJson)]) :=
        tagged_obj listed (by decide)
      apply read_then tagged
      apply read_then (cells_obj listed (by decide))
      exact read_then reason.readsBack.required rfl
  · nofun

end Admission

/-! ### Patches -/

namespace Routing.RulePatch

variable {p q : RulePatch}

/-- The limits in the patch are words. -/
def Fits (p : RulePatch) : Prop := (∀ n ∈ p.concurrency, n < Width.word) ∧ ∀ n ∈ p.rateDelaySeconds, n < Width.word

/-- The fields of a patch on the wire: of them all, only the description is ever left out. -/
def wireFields (p : RulePatch) : List (String × Option Json) :=
  [ ("domain_pattern", some (.option .str p.pattern)),
    ("transport_name", some (.option TransportName.toJson p.transport)),
    ("concurrency_limit", some (.option .nat p.concurrency)),
    ("rate_delay_seconds", some (.option .nat p.rateDelaySeconds)),
    ("is_active", some (.option .bool p.isActive)),
    ("description", p.description.map (.option .str)) ]

theorem cells_toJson (p : RulePatch) :
    p.toJson.cells RuleDraft.fieldNames = some (p.wireFields.map fun field => .ofField field.2) :=
  cells_object rfl (by decide)

theorem ofJson?_toJson (fits : p.Fits) : ofJson? p.toJson = some p := by
  obtain ⟨concurrency, delay⟩ := fits
  apply read_then p.cells_toJson
  apply read_then (readsBack_defaulted fun text _ => readsBack_str text)
  apply read_then (readsBack_defaulted fun name _ => name.readsBack)
  apply read_then (readsBack_defaulted fun n given => readsBack_nat (concurrency n given))
  apply read_then (readsBack_defaulted fun n given => readsBack_nat (delay n given))
  apply read_then (readsBack_defaulted fun b _ => readsBack_bool b)
  exact read_then (readsBack_nullable fun text _ => readsBack_str text) rfl

theorem member_description (p : RulePatch) :
    member "description" (written p.wireFields) = some (.ofField (p.description.map (.option .str))) := by
  apply member_written
  · exact (by decide : RuleDraft.fieldNames.Nodup)
  · simp [wireFields]

/-- Patches are alike on the wire only if their descriptions are. -/
theorem description_of_toJson (same : p.toJson = q.toJson) : p.description = q.description := by
  have members : written p.wireFields = written q.wireFields := Json.obj.inj same
  have found := p.member_description
  rw [members, q.member_description] at found
  have read (p : RulePatch) := readsBack_nullable (o := p.description) fun text _ => readsBack_str text
  have both := read p
  rw [← Option.some.inj found, read q] at both
  exact (Option.some.inj both).symm

end Routing.RulePatch

open Admission

/-- Verdicts and patches whose numbers have the widths of their fields are read back from their JSON. The member for the
description of a patch is absent, null or a text, as the description is kept, cleared or set, so patches that differ in
it differ on the wire; and a patch that was read changes every rule as the one that was written. -/
theorem wire_round_trip :
    (∀ v : Verdict, v.Fits → Verdict.ofJson? v.toJson = some v) ∧
    (∀ p : RulePatch, p.Fits → RulePatch.ofJson? p.toJson = some p ∧
      ∀ q, RulePatch.ofJson? p.toJson = some q → ∀ rule : TransportRule, rule.patched q = rule.patched p) ∧
    (∀ p : RulePatch, ∃ members, p.toJson = .obj members ∧
      match p.description with
      | none => member "description" members = some .omitted
      | some none => member "description" members = some (.given .null)
      | some (some text) => member "description" members = some (.given (.str text))) ∧
    ∀ p q : RulePatch, p.description ≠ q.description → p.toJson ≠ q.toJson := by
  refine ⟨fun v fits => (Verdict.readsBack fits).read, ?_, ?_, fun p q => mt RulePatch.description_of_toJson⟩
  · intro p fits
    have read := RulePatch.ofJson?_toJson fits
    refine ⟨read, fun q decoded rule => ?_⟩
    rw [Option.some.inj (decoded.symm.trans read)]
  · intro p
    refine ⟨written p.wireFields, rfl, ?_⟩
    have found := p.member_description
    rcases description : p.description with - | - | text
    · rwa [description] at found
    · rwa [description] at found
    · rwa [description] at found

/-- A verdict and a patch with the largest numbers there are. -/
theorem wire_round_trip_largest :
    let verdict := Verdict.admitted (some ⟨"bulk"⟩) (some 18446744073709551615) (some ⟨⟨"bulk"⟩, 18446744073709551615⟩)
      ⟨18446744073709551615, 0⟩
    let patch : RulePatch :=
      { pattern := some "*", transport := none, concurrency := some 4294967295, rateDelaySeconds := none,
        isActive := some false, description := some none }
    verdict.Fits ∧ Verdict.ofJson? verdict.toJson = some verdict ∧ patch.Fits ∧
      RulePatch.ofJson? patch.toJson = some patch ∧ patch.toJson ≠ { patch with description := none }.toJson := by
  intro verdict patch
  have fits : verdict.Fits := by
    refine ⟨?_, ?_, by decide, by decide⟩
    · rintro id ⟨⟩
      decide
    · rintro ticket ⟨⟩
      exact (by decide : 18446744073709551615 < Width.long)
  have patchFits : patch.Fits := by
    refine ⟨?_, nofun⟩
    rintro n ⟨⟩
    decide
  obtain ⟨verdicts, patches, -, differ⟩ := wire_round_trip
  exact ⟨fits, verdicts verdict fits, patchFits, (patches patch patchFits).1, differ patch _ nofun⟩

end RelayRamp
