import Courier.Job.Codec
import Courier.Proofs.Json.Record
import Courier.Proofs.Key
import Courier.Proofs.Time.Rfc3339

/-! What becomes of a job that is written as a document and read back. Every field comes back as it
was, but for two. A fallback that is `null` is written as `null`, and that is read as no fallback;
and a reserved quantity that is not finite has no written form, so that a document without it is not
the document of a job. -/

namespace Courier

open Json Reading

theorem JobId.read_toJson (id : JobId) : JobId.read id.toJson = ok id := by
  rw [JobId.toJson, JobId.read, Uuid.read, JobId.toText, Uuid.ofText?_toText]
  rfl

theorem Timestamp.read_toJson (t : Timestamp) : Timestamp.read t.toJson = ok t := by
  rw [Timestamp.toJson, Timestamp.read, ofText?_toText]
  rfl

theorem JobState.read_toJson (s : JobState) : JobState.read s.toJson = ok s := by
  cases s <;> rfl

theorem DlqState.read_toJson (s : DlqState) : DlqState.read s.toJson = ok s := by
  cases s <;> rfl

namespace Intent

/-- What an intent is written with. -/
def members (i : Intent) : List (String × Json) :=
  [("intent_id", .str i.intentId), ("platform", .str i.platform), ("target", .str i.target),
    ("action", .str i.action)]
  ++ (if i.payload.isNull then [] else [("payload", i.payload)])
  ++ (match i.fallbackPayload with
    | some p => [("fallback_payload", p)]
    | none => [])

theorem toJson_eq (i : Intent) : i.toJson = sorted i.members := rfl

theorem known_members (i : Intent) : ∀ k ∈ i.members.map Prod.fst, k ∈ fieldNames := by
  unfold members
  cases i.fallbackPayload <;> split_ifs <;> simp [fieldNames]

theorem lookup_members (i : Intent) :
    (Fields.ofMembers i.members).members.lookup "intent_id" = some (.str i.intentId) ∧
    (Fields.ofMembers i.members).members.lookup "platform" = some (.str i.platform) ∧
    (Fields.ofMembers i.members).members.lookup "target" = some (.str i.target) ∧
    (Fields.ofMembers i.members).members.lookup "action" = some (.str i.action) ∧
    (Fields.ofMembers i.members).members.lookup "payload" =
      (if i.payload.isNull then none else some i.payload) ∧
    (Fields.ofMembers i.members).members.lookup "fallback_payload" = i.fallbackPayload := by
  simp only [Fields.lookup_ofMembers, members]
  cases i.fallbackPayload <;> split_ifs <;> simp [List.lookup_cons]

theorem read_payload {i : Intent} (h : i.payload.IsValue) :
    (Fields.ofMembers i.members).orElse "payload" .null readAny = ok i.payload := by
  obtain ⟨-, -, -, -, payload, -⟩ := lookup_members i
  cases empty : i.payload.isNull with
  | true =>
    rw [Fields.orElse_of_lookup_eq_none (by rw [payload, if_pos empty])]
    revert empty
    cases i.payload <;> simp [isNull]
  | false =>
    have written : (Fields.ofMembers i.members).members.lookup "payload" = some i.payload := by
      rw [payload, empty, if_neg Bool.false_ne_true]
    rw [Fields.orElse_eq_ok_iff written, h.readAny]

theorem read_fallback {i : Intent} (h : ∀ p ∈ i.fallbackPayload, p.IsValue) :
    (Fields.ofMembers i.members).orElse "fallback_payload" none (readOption readAny) =
      ok (i.fallbackPayload.filter fun p => !p.isNull) := by
  obtain ⟨-, -, -, -, -, fallback⟩ := lookup_members i
  cases same : i.fallbackPayload with
  | none => rw [Fields.orElse_of_lookup_eq_none (fallback.trans same), Option.filter_none]
  | some p =>
    rw [Fields.orElse_eq_ok_iff (fallback.trans same), readOption_readAny (h p same),
      Option.filter_some]
    cases p.isNull <;> rfl

/-- All of an intent comes back but a fallback that is `null`. -/
theorem read_toJson {i : Intent} (payload : i.payload.IsValue)
    (fallback : ∀ p ∈ i.fallbackPayload, p.IsValue) :
    Intent.read i.toJson =
      ok { i with fallbackPayload := i.fallbackPayload.filter fun p => !p.isNull } := by
  obtain ⟨id, platform, target, action, -, -⟩ := lookup_members i
  rw [toJson_eq, read, readRecord_sorted i.known_members]
  apply inPlace_eq_ok_iff.2
  have text : ∀ {name s}, (Fields.ofMembers i.members).members.lookup name = some (.str s) →
      (Fields.ofMembers i.members).required name readString? = ok s :=
    fun h => (Fields.required_eq_ok_iff h).2 (readString?_str _)
  rw [text id, text platform, text target, text action, read_payload payload,
    read_fallback fallback]
  rfl

end Intent

namespace Reservation

theorem read_toJson {r : Reservation} (order : Ascending r) (finite : ∀ e ∈ r, e.2.isFinite) :
    Reservation.read (toJson r) = ok r := by
  have each : readMembers readFloat (r.map fun e => (e.1, ofFloat e.2)) = ok r :=
    readMembers_map fun e he => readFloat_ofFloat (finite e he)
  have same : setKeys <$> readMembers readFloat (r.map fun e => (e.1, ofFloat e.2)) = ok r := by
    rw [each, map_ok, order.setKeys_eq]
  exact same

theorem finite_of_read {r r' : Reservation} (h : Reservation.read (toJson r) = ok r') :
    ∀ e ∈ r, e.2.isFinite := by
  intro e he
  obtain ⟨kept, each, -⟩ := map_eq_ok_iff.1 h
  obtain ⟨x, hx⟩ := exists_of_readMembers_map each e he
  exact isFinite_of_readFloat_ofFloat hx

end Reservation

namespace Job

/-- What the types of the fields promise: counters of 32 bits, values for the payloads, and the
reserved quantities in the order of their keys. -/
structure IsRecord (j : Job) : Prop where
  attemptCount : j.attemptCount < 2 ^ 32
  maxAttempts : j.maxAttempts < 2 ^ 32
  version : j.version < 2 ^ 32
  payload : j.intent.payload.IsValue
  fallback : ∀ p ∈ j.intent.fallbackPayload, p.IsValue
  reservation : Ascending j.reservation

/-- What a job is written with. -/
def members (j : Job) : List (String × Json) :=
  [("id", j.id.toJson), ("intent", j.intent.toJson), ("context_key", .str j.contextKey),
    ("reservation_delta", Reservation.toJson j.reservation), ("state", j.state.toJson),
    ("priority", ofFloat j.priority), ("available_at", j.availableAt.toJson),
    ("created_at", j.createdAt.toJson), ("updated_at", j.updatedAt.toJson),
    ("leased_by", ofOption .str j.leasedBy),
    ("lease_until", ofOption Timestamp.toJson j.leaseUntil),
    ("attempt_count", ofNat j.attemptCount), ("max_attempts", ofNat j.maxAttempts),
    ("last_error", ofOption .str j.lastError), ("job_version", ofNat j.version),
    ("parent_job_id", ofOption JobId.toJson j.parent),
    ("dlq_state", ofOption DlqState.toJson j.dlqState)]

theorem toJson_eq (j : Job) : j.toJson = sorted j.members := rfl

theorem keys_members (j : Job) : j.members.map Prod.fst = fieldNames := rfl

section

variable {α : Type} {j : Job} {v : Json} {read : Json → Reading α}

theorem lookup_members (key : String) (h : (key, v) ∈ j.members) :
    (Fields.ofMembers j.members).members.lookup key = some v :=
  Fields.lookup_ofMembers_of_mem (by rw [keys_members]; decide) h

theorem required_eq_ok {a : α} (key : String) (h : (key, v) ∈ j.members) (back : read v = ok a) :
    (Fields.ofMembers j.members).required key read = ok a :=
  (Fields.required_eq_ok_iff (lookup_members key h)).2 back

theorem optional_eq_ok {write : α → Json} (key : String) (o : Option α)
    (h : (key, ofOption write o) ∈ j.members)
    (back : ∀ a ∈ o, write a ≠ null ∧ read (write a) = ok a) :
    (Fields.ofMembers j.members).optional key read = ok o :=
  (Fields.optional_eq_ok_iff (lookup_members key h)).2 (readOption_ofOption back)

end

theorem known_members (j : Job) : ∀ k ∈ j.members.map Prod.fst, k ∈ fieldNames := fun _ h => h

theorem read_reservation_iff {j : Job} {r : Reservation} :
    (Fields.ofMembers j.members).orElse "reservation_delta" [] Reservation.read = ok r ↔
      Reservation.read (Reservation.toJson j.reservation) = ok r :=
  Fields.orElse_eq_ok_iff (lookup_members _ (by simp [members]))

/-- All of a job comes back but a fallback that is `null`. -/
theorem read_toJson {j : Job} (record : j.IsRecord) (priority : j.priority.isFinite)
    (reservation : ∀ e ∈ j.reservation, e.2.isFinite) :
    Job.read j.toJson =
      ok { j with
        intent.fallbackPayload := j.intent.fallbackPayload.filter fun p => !p.isNull } := by
  have texts : ∀ s : String, Json.str s ≠ .null ∧ readString? (.str s) = ok s :=
    fun s => ⟨Json.noConfusion, readString?_str s⟩
  rw [toJson_eq, read, readRecord_sorted j.known_members]
  apply inPlace_eq_ok_iff.2
  rw [required_eq_ok "id" (by simp [members]) j.id.read_toJson,
    required_eq_ok "intent" (by simp [members]) (Intent.read_toJson record.payload record.fallback),
    required_eq_ok "context_key" (by simp [members]) (readString?_str j.contextKey),
    read_reservation_iff.2 (Reservation.read_toJson record.reservation reservation),
    required_eq_ok "state" (by simp [members]) j.state.read_toJson,
    required_eq_ok "priority" (by simp [members]) (readFloat_ofFloat priority),
    required_eq_ok "available_at" (by simp [members]) j.availableAt.read_toJson,
    required_eq_ok "created_at" (by simp [members]) j.createdAt.read_toJson,
    required_eq_ok "updated_at" (by simp [members]) j.updatedAt.read_toJson,
    optional_eq_ok "leased_by" j.leasedBy (by simp [members]) fun s _ => texts s,
    optional_eq_ok "lease_until" j.leaseUntil (by simp [members]) fun t _ =>
      ⟨Json.noConfusion, t.read_toJson⟩,
    required_eq_ok "attempt_count" (by simp [members]) (readU32_ofNat record.attemptCount),
    required_eq_ok "max_attempts" (by simp [members]) (readU32_ofNat record.maxAttempts),
    optional_eq_ok "last_error" j.lastError (by simp [members]) fun s _ => texts s,
    required_eq_ok "job_version" (by simp [members]) (readU32_ofNat record.version),
    optional_eq_ok "parent_job_id" j.parent (by simp [members]) fun id _ =>
      ⟨Json.noConfusion, id.read_toJson⟩,
    optional_eq_ok "dlq_state" j.dlqState (by simp [members]) fun s _ =>
      ⟨Json.noConfusion, s.read_toJson⟩]
  rfl

/-- No job comes back without its reserved quantities. -/
theorem finite_of_read_toJson {j k : Job} (h : Job.read j.toJson = ok k) :
    ∀ e ∈ j.reservation, e.2.isFinite := by
  rw [toJson_eq, read, readRecord_sorted j.known_members, inPlace_eq_ok_iff] at h
  -- the reserved quantities are the fourth field of seventeen
  iterate 13 obtain ⟨_, _, h, -, -⟩ := seq_eq_ok_iff.1 h
  obtain ⟨_, r, -, reservation, -⟩ := seq_eq_ok_iff.1 h
  exact Reservation.finite_of_read (read_reservation_iff.1 reservation)

/-- A job that passes the check comes back from its document as it was exactly when its fallback,
if it has one, is not `null`, and the quantities it reserves are all finite. -/
theorem read_toJson_eq_iff {j : Job} (record : j.IsRecord) (valid : j.check = .ok ()) :
    Job.read j.toJson = ok j ↔
      j.intent.fallbackPayload ≠ some .null ∧ ∀ e ∈ j.reservation, e.2.isFinite := by
  obtain ⟨priority, -, -⟩ := (check_ok_iff j).1 valid
  constructor
  · intro back
    have finite := finite_of_read_toJson back
    refine ⟨fun null => ?_, finite⟩
    rw [read_toJson record priority finite, ok.injEq] at back
    have kept : j.intent.fallbackPayload.filter (fun p => !p.isNull) = j.intent.fallbackPayload :=
      congrArg (fun k : Job => k.intent.fallbackPayload) back
    rw [null] at kept
    cases kept
  · rintro ⟨fallback, finite⟩
    have kept : j.intent.fallbackPayload.filter (fun p => !p.isNull) =
        j.intent.fallbackPayload := by
      cases same : j.intent.fallbackPayload with
      | none => rfl
      | some p =>
        cases p with
        | null => exact absurd same fallback
        | _ => rfl
    rw [read_toJson record priority finite, kept]

/-- A job with something in every field, dead-lettered and replayed since. -/
def sampleRecord : Job where
  id := ⟨.ofNat 2⟩
  intent := ⟨"post-1", "x", "acct", "post", .obj [("media", .arr [.int 7]), ("text", .str "hello")],
    some (.obj [("text", .str "later")])⟩
  contextKey := "account-7"
  reservation := [("budget", 2.5), ("slots", 1)]
  state := .dlq
  priority := 0.5
  availableAt := .epoch
  createdAt := .epoch
  updatedAt := .epoch
  leasedBy := none
  leaseUntil := some .epoch
  attemptCount := 5
  maxAttempts := 5
  lastError := some "boom"
  version := 9
  parent := some ⟨.ofNat 1⟩
  dlqState := some .replayed

theorem read_toJson_sampleRecord : sampleRecord.IsRecord ∧ sampleRecord.check = .ok () ∧
    Job.read sampleRecord.toJson = ok sampleRecord := by
  have valid : sampleRecord.check = .ok () := (check_ok_iff _).2 ⟨by decide, by decide, by decide⟩
  have post : sampleRecord.intent.payload.IsValue := by
    refine .obj ?_ ?_
    · exact List.pairwise_pair.2 (String.lt_iff_toList_lt.2 (by decide))
    · rintro _ (_ | ⟨_, _ | ⟨_, ⟨⟩⟩⟩)
      · exact .arr (by rintro _ (_ | ⟨_, ⟨⟩⟩); exact .int 7)
      · exact .str "hello"
  have later : IsValue (.obj [("text", .str "later")]) := by
    refine .obj (by simp [Ascending]) ?_
    rintro _ (_ | ⟨_, ⟨⟩⟩)
    exact .str "later"
  have record : sampleRecord.IsRecord :=
    { attemptCount := by decide
      maxAttempts := by decide
      version := by decide
      payload := post
      fallback := by rintro _ ⟨⟩; exact later
      reservation := List.pairwise_pair.2 (String.lt_iff_toList_lt.2 (by decide)) }
  refine ⟨record, valid, (read_toJson_eq_iff record valid).2 ⟨by rintro ⟨⟩, ?_⟩⟩
  decide

/-- A job whose fallback is `null` passes the check, and comes back without a fallback. -/
theorem exists_read_toJson_ne : ∃ j : Job, j.IsRecord ∧ j.check = .ok () ∧
    j.intent.fallbackPayload = some .null ∧
    Job.read j.toJson = ok { j with intent.fallbackPayload := none } ∧
    Job.read j.toJson ≠ ok j := by
  let j : Job := .create ⟨.ofNat 1⟩ ⟨"post-1", "x", "acct", "post", .null, some .null⟩ .epoch
  have record : j.IsRecord :=
    { attemptCount := by decide
      maxAttempts := by decide
      version := by decide
      payload := .null
      fallback := by rintro _ ⟨⟩; exact .null
      reservation := .nil }
  have valid : j.check = .ok () := (check_ok_iff j).2 ⟨by decide, by decide, by decide⟩
  have back : Job.read j.toJson = ok { j with intent.fallbackPayload := none } :=
    read_toJson record (by decide) nofun
  refine ⟨j, record, valid, rfl, back, fun same => ?_⟩
  have kept := congrArg (fun k : Job => k.intent.fallbackPayload) (ok.inj (back.symm.trans same))
  cases kept

end Job

end Courier
