import Courier.Config
import Courier.Job.Codec
import Courier.Table

/-!
Signs of life from workers: the last status of each and when it was given.
-/

namespace Courier

structure Beat where
  workerId : String
  updatedAt : Timestamp
  status : String
deriving DecidableEq

namespace Beat

/-- The status of a worker that has ended on purpose. -/
def stopped : String := "stopped"

def toJson (b : Beat) : Json :=
  Json.sorted
    [("worker_id", .str b.workerId), ("updated_at", b.updatedAt.toJson), ("status", .str b.status)]

def read : Json → Reading Beat :=
  Json.readRecord ["worker_id", "updated_at", "status"] fun f =>
    Beat.mk <$> f.required "worker_id" Json.readString? <*> f.required "updated_at" Timestamp.read
      <*> f.required "status" Json.readString?

/-- Whether a worker has been silent for longer than `visibility` without having stopped. -/
def isStale (visibility : Span) (now : Timestamp) (b : Beat) : Bool :=
  b.status ≠ stopped && visibility < now.since b.updatedAt

end Beat

abbrev Liveness := Table String Beat

namespace Liveness

def beat (worker status : String) (now : Timestamp) (s : Liveness) : Liveness :=
  s.insert worker ⟨worker, now, status⟩

/-- All beats in the order of the workers' names. -/
def list (s : Liveness) : List Beat := s.values.mergeSort fun a b => !(b.workerId < a.workerId)

def describe (s : Liveness) : String :=
  Diagnostic.record "InMemoryHeartbeatStore" [("workers", natText s.size)]

end Liveness

end Courier
