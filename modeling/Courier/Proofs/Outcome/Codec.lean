import Courier.Worker.Process
import Courier.Proofs.Job.Codec

/-! What becomes of an outcome that the log of attempts has as a document. All of it is read back as
it was if every cost is finite. A cost that is not has no written form: then the document is none of
an outcome, and a bare success stands in for it. -/

namespace Courier

open Json Reading

theorem Status.read_toJson (s : Status) : Status.read s.toJson = ok s := by
  cases s <;> rfl

theorem FailureKind.read_toJson (k : FailureKind) : FailureKind.read k.toJson = ok k := by
  cases k <;> rfl

namespace Outcome

/-- What the types of the fields promise: values for the effects and the observations, and the costs
in the order of their keys. -/
structure IsRecord (o : Outcome) : Prop where
  effects : ∀ v ∈ o.effects, v.IsValue
  costs : Ascending o.costs
  observations : o.observations.IsValue

/-- Every cost has a written form. -/
def FiniteCosts (o : Outcome) : Prop := ∀ c ∈ o.costs, c.2.isFinite = true

instance (o : Outcome) : Decidable o.FiniteCosts := inferInstanceAs (Decidable (∀ c ∈ o.costs, _))

/-- What an outcome is written with; costs are written as reserved quantities are. -/
def members (o : Outcome) : List (String × Json) :=
  [("status", o.status.toJson), ("effects", .arr o.effects),
    ("costs", Reservation.toJson o.costs), ("failure_type", o.failure.toJson),
    ("reason", ofOption .str o.reason)]
  ++ (if o.observations.isNull then [] else [("observations", o.observations)])

theorem toJson_eq (o : Outcome) : o.toJson = sorted o.members := rfl

theorem known_members (o : Outcome) : ∀ k ∈ o.members.map Prod.fst, k ∈ fieldNames := by
  unfold members
  split_ifs <;> simp [fieldNames]

theorem nodup_members (o : Outcome) : (o.members.map Prod.fst).Nodup := by
  unfold members
  split_ifs <;> simp

theorem lookup_members {o : Outcome} {v : Json} (key : String) (h : (key, v) ∈ o.members) :
    (Fields.ofMembers o.members).members.lookup key = some v :=
  Fields.lookup_ofMembers_of_mem o.nodup_members h

theorem read_effects {o : Outcome} (h : ∀ v ∈ o.effects, v.IsValue) :
    (Fields.ofMembers o.members).orElse "effects" [] (readList readAny) = ok o.effects := by
  have written : ("effects", .arr o.effects) ∈ o.members := by simp [members]
  exact (Fields.orElse_eq_ok_iff (lookup_members _ written)).2 (readEach_readAny h)

theorem read_costs_iff {o : Outcome} {costs : List (String × Float)} :
    (Fields.ofMembers o.members).orElse "costs" [] (readMap readFloat) = ok costs ↔
      Reservation.read (Reservation.toJson o.costs) = ok costs :=
  Fields.orElse_eq_ok_iff (lookup_members "costs" (by simp [members]))

theorem read_observations {o : Outcome} (h : o.observations.IsValue) :
    (Fields.ofMembers o.members).orElse "observations" .null readAny = ok o.observations := by
  cases empty : o.observations.isNull with
  | true =>
    have left_out : (Fields.ofMembers o.members).members.lookup "observations" = none := by
      simp [Fields.lookup_ofMembers, members, empty, List.lookup_cons]
    rw [Fields.orElse_of_lookup_eq_none left_out]
    revert empty
    cases o.observations <;> simp [isNull]
  | false =>
    have written : ("observations", o.observations) ∈ o.members := by simp [members, empty]
    exact (Fields.orElse_eq_ok_iff (lookup_members _ written)).2 h.readAny

theorem read_reason (o : Outcome) :
    (Fields.ofMembers o.members).orElse "reason" none (readOption readString?) = ok o.reason :=
  (Fields.orElse_eq_ok_iff (lookup_members "reason" (by simp [members]))).2
    (readOption_ofOption fun s _ => ⟨Json.noConfusion, readString?_str s⟩)

/-- An outcome with finite costs comes back from its document as it was. -/
theorem read_toJson {o : Outcome} (record : o.IsRecord) (finite : o.FiniteCosts) :
    Outcome.read o.toJson = ok o := by
  have status : (Fields.ofMembers o.members).required "status" Status.read = ok o.status :=
    (Fields.required_eq_ok_iff (lookup_members "status" (by simp [members]))).2
      o.status.read_toJson
  have failure : (Fields.ofMembers o.members).required "failure_type" FailureKind.read =
      ok o.failure :=
    (Fields.required_eq_ok_iff (lookup_members "failure_type" (by simp [members]))).2
      o.failure.read_toJson
  rw [toJson_eq, read, readRecord_sorted o.known_members]
  apply inPlace_eq_ok_iff.2
  rw [status, read_effects record.effects,
    read_costs_iff.2 (Reservation.read_toJson record.costs finite),
    read_observations record.observations, failure, read_reason o]
  rfl

/-- No outcome comes back without its costs. -/
theorem finiteCosts_of_read_toJson {o o' : Outcome} (h : Outcome.read o.toJson = ok o') :
    o.FiniteCosts := by
  rw [toJson_eq, read, readRecord_sorted o.known_members, inPlace_eq_ok_iff] at h
  -- the costs are the third field of six
  iterate 3 obtain ⟨_, _, h, -, -⟩ := seq_eq_ok_iff.1 h
  obtain ⟨_, costs, -, written, -⟩ := seq_eq_ok_iff.1 h
  exact Reservation.finite_of_read (read_costs_iff.1 written)

/-- What the log of attempts gives back of an outcome. -/
def kept (o : Outcome) : Outcome := if o.FiniteCosts then o else .success

/-- An outcome is given back as it was exactly when its costs are all finite. -/
theorem kept_eq_iff (o : Outcome) : o.kept = o ↔ o.FiniteCosts := by
  unfold kept
  split_ifs with finite
  · exact iff_of_true rfl finite
  · refine iff_of_false (fun same => ?_) finite
    rw [← same] at finite
    exact finite nofun

end Outcome

theorem Worker.recordedOutcome_eq {r : AttemptRecord} {o : Outcome} (record : o.IsRecord)
    (h : r.metadata = o.toJson) : recordedOutcome r = o.kept := by
  rw [recordedOutcome, h, Outcome.kept]
  split_ifs with finite
  · rw [Outcome.read_toJson record finite]
  · cases back : Outcome.read o.toJson with
    | ok o' => exact absurd (Outcome.finiteCosts_of_read_toJson back) finite
    | failed => rfl

end Courier
