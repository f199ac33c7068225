import Courier.Job.Basic
import Courier.Json.Reading
import Courier.Time.Rfc3339

/-!
Jobs and intents as JSON documents.
-/

namespace Courier

open Json

namespace Uuid

def read : Json → Reading Uuid
  | .str s => Reading.ofOption (ofText? s)
  | j => unfit j

end Uuid

namespace JobId

def toJson (id : JobId) : Json := .str id.toText

def read (j : Json) : Reading JobId := JobId.mk <$> Uuid.read j

end JobId

namespace EnvelopeId

def toJson (id : EnvelopeId) : Json := .str id.toText

def read (j : Json) : Reading EnvelopeId := EnvelopeId.mk <$> Uuid.read j

end EnvelopeId

namespace Timestamp

def toJson (t : Timestamp) : Json := .str t.toText

def read : Json → Reading Timestamp
  | .str s => Reading.ofOption (ofText? s)
  | j => unfit j

end Timestamp

namespace JobState

def toJson (s : JobState) : Json := .str s.name

def read : Json → Reading JobState := readName (all.map fun s => (s.name, s))

end JobState

namespace DlqState

def toJson (s : DlqState) : Json := .str s.name

def read : Json → Reading DlqState := readName (all.map fun s => (s.name, s))

end DlqState

namespace Intent

def fieldNames : List String :=
  ["intent_id", "platform", "target", "action", "payload", "fallback_payload"]

/-- A `null` payload and a missing fallback are left out. -/
def toJson (i : Intent) : Json :=
  sorted <|
    [("intent_id", .str i.intentId), ("platform", .str i.platform), ("target", .str i.target),
      ("action", .str i.action)]
    ++ (if i.payload.isNull then [] else [("payload", i.payload)])
    ++ (match i.fallbackPayload with
      | some p => [("fallback_payload", p)]
      | none => [])

def read : Json → Reading Intent :=
  readRecord fieldNames fun f =>
    Intent.mk <$> f.required "intent_id" readString? <*> f.required "platform" readString?
      <*> f.required "target" readString? <*> f.required "action" readString?
      <*> f.orElse "payload" .null readAny
      <*> f.orElse "fallback_payload" none (readOption readAny)

end Intent

namespace Reservation

def toJson (r : Reservation) : Json := .obj (r.map fun (k, x) => (k, ofFloat x))

def read : Json → Reading Reservation := readMap readFloat

end Reservation

namespace Job

def fieldNames : List String :=
  ["id", "intent", "context_key", "reservation_delta", "state", "priority", "available_at",
    "created_at", "updated_at", "leased_by", "lease_until", "attempt_count", "max_attempts",
    "last_error", "job_version", "parent_job_id", "dlq_state"]

def toJson (j : Job) : Json :=
  sorted
    [("id", j.id.toJson), ("intent", j.intent.toJson), ("context_key", .str j.contextKey),
      ("reservation_delta", Reservation.toJson j.reservation), ("state", j.state.toJson),
      ("priority", ofFloat j.priority), ("available_at", j.availableAt.toJson),
      ("created_at", j.createdAt.toJson), ("updated_at", j.updatedAt.toJson),
      ("leased_by", ofOption .str j.leasedBy),
      ("lease_until", ofOption Timestamp.toJson j.leaseUntil),
      ("attempt_count", ofNat j.attemptCount), ("max_attempts", ofNat j.maxAttempts),
      ("last_error", ofOption .str j.lastError), ("job_version", ofNat j.version),
      ("parent_job_id", ofOption JobId.toJson j.parent),
      ("dlq_state", ofOption DlqState.toJson j.dlqState)]

def read : Json → Reading Job :=
  readRecord fieldNames fun f =>
    Job.mk <$> f.required "id" JobId.read <*> f.required "intent" Intent.read
      <*> f.required "context_key" readString?
      <*> f.orElse "reservation_delta" [] Reservation.read
      <*> f.required "state" JobState.read <*> f.required "priority" readFloat
      <*> f.required "available_at" Timestamp.read <*> f.required "created_at" Timestamp.read
      <*> f.required "updated_at" Timestamp.read <*> f.optional "leased_by" readString?
      <*> f.optional "lease_until" Timestamp.read <*> f.required "attempt_count" readU32
      <*> f.required "max_attempts" readU32 <*> f.optional "last_error" readString?
      <*> f.required "job_version" readU32 <*> f.optional "parent_job_id" JobId.read
      <*> f.optional "dlq_state" DlqState.read

end Job

namespace Handle

def toJson (h : Handle) : Json :=
  sorted
    [("job_id", h.jobId.toJson), ("intent_id", .str h.intentId), ("accepted", .bool h.accepted),
      ("merged_into", ofOption JobId.toJson h.mergedInto)]

def read : Json → Reading Handle :=
  readRecord ["job_id", "intent_id", "accepted", "merged_into"] fun f =>
    Handle.mk <$> f.required "job_id" JobId.read <*> f.required "intent_id" readString?
      <*> f.required "accepted" readBool <*> f.optional "merged_into" JobId.read

end Handle

end Courier
