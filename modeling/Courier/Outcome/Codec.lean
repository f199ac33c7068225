import Courier.Outcome.Basic
import Courier.Job.Codec

/-!
Outcomes and envelopes as JSON documents.
-/

namespace Courier

open Json

namespace Status

def toJson (s : Status) : Json := .str s.tag

def read : Json → Reading Status := readName (all.map fun s => (s.tag, s))

end Status

namespace FailureKind

def toJson (k : FailureKind) : Json := .str k.tag

def read : Json → Reading FailureKind := readName (all.map fun k => (k.tag, k))

end FailureKind

namespace Outcome

def fieldNames : List String :=
  ["status", "effects", "costs", "observations", "failure_type", "reason"]

/-- Observations that are `null` are left out. -/
def toJson (o : Outcome) : Json :=
  sorted <|
    [("status", o.status.toJson), ("effects", .arr o.effects),
      ("costs", .obj (o.costs.map fun (k, x) => (k, ofFloat x))),
      ("failure_type", o.failure.toJson), ("reason", ofOption .str o.reason)]
    ++ (if o.observations.isNull then [] else [("observations", o.observations)])

def read : Json → Reading Outcome :=
  readRecord fieldNames fun f =>
    Outcome.mk <$> f.required "status" Status.read
      <*> f.orElse "effects" [] (readList readAny)
      <*> f.orElse "costs" [] (readMap readFloat)
      <*> f.orElse "observations" .null readAny
      <*> f.required "failure_type" FailureKind.read
      <*> f.orElse "reason" none (readOption readString?)

end Outcome

namespace Envelope

def toJson (e : Envelope) : Json :=
  sorted
    [("job_id", e.jobId.toJson), ("intent_id", .str e.intentId),
      ("context_key", .str e.contextKey),
      ("reservation_delta", Reservation.toJson e.reservation),
      ("result", e.outcome.toJson), ("received_at", e.receivedAt.toJson)]

def read : Json → Reading Envelope :=
  readRecord ["job_id", "intent_id", "context_key", "reservation_delta", "result", "received_at"]
    fun f =>
      Envelope.mk <$> f.required "job_id" JobId.read <*> f.required "intent_id" readString?
        <*> f.required "context_key" readString?
        <*> f.orElse "reservation_delta" [] Reservation.read
        <*> f.required "result" Outcome.read <*> f.required "received_at" Timestamp.read

end Envelope

end Courier
