import Courier.Config
import Courier.Job.Codec
import Courier.Table

/-!
The log of attempts, one entry per key. It lets one attempt per key go ahead, remembers those that
are done together with their outcome, and tells how long one has been under way.
-/

namespace Courier

inductive AttemptState where
  | inProgress
  | done
deriving DecidableEq, Inhabited

namespace AttemptState

def name : AttemptState → String
  | inProgress => "in_progress"
  | done => "done"

def all : List AttemptState := [inProgress, done]

def ofName? (s : String) : Option AttemptState := all.find? fun x => x.name = s

def toJson (s : AttemptState) : Json := .str s.name

def read : Json → Reading AttemptState := Json.readName (all.map fun s => (s.name, s))

end AttemptState

structure AttemptRecord where
  key : String
  state : AttemptState
  updatedAt : Timestamp
  /-- The outcome of an attempt that is done. -/
  metadata : Json

namespace AttemptRecord

def toJson (r : AttemptRecord) : Json :=
  Json.sorted
    [("key", .str r.key), ("state", r.state.toJson), ("updated_at", r.updatedAt.toJson),
      ("metadata", r.metadata)]

def read : Json → Reading AttemptRecord :=
  Json.readRecord ["key", "state", "updated_at", "metadata"] fun f =>
    AttemptRecord.mk <$> f.required "key" Json.readString? <*> f.required "state" AttemptState.read
      <*> f.required "updated_at" Timestamp.read <*> f.orElse "metadata" .null Json.readAny

end AttemptRecord

/-- The answer to a caller that wants to begin. -/
inductive Beginning where
  /-- The caller may go ahead. -/
  | first
  /-- Another attempt is under way; when `stale`, its outcome is unknown. -/
  | underWay (stale : Bool) (since : Timestamp)
  | done (record : AttemptRecord)

abbrev AttemptLog := Table String AttemptRecord

namespace AttemptLog

def begin (staleAfter : Span) (key : String) (now : Timestamp) (log : AttemptLog) :
    Beginning × AttemptLog :=
  match log.get? key with
  | none => (.first, log.insert key ⟨key, .inProgress, now, .null⟩)
  | some r =>
    match r.state with
    | .done => (.done r, log)
    | .inProgress => (.underWay (decide (staleAfter ≤ now.since r.updatedAt)) r.updatedAt, log)

def complete (key : String) (metadata : Json) (now : Timestamp) (log : AttemptLog) : AttemptLog :=
  log.insert key ⟨key, .done, now, metadata⟩

/-- Forgets an attempt under way; one that is done stays. -/
def clear (key : String) (log : AttemptLog) : AttemptLog :=
  match log.get? key with
  | some r => if r.state = .inProgress then log.erase key else log
  | none => log

/-- A span as diagnostic text, by its seconds and the nanoseconds above them. -/
def spanText (d : Span) : String :=
  Diagnostic.record "TimeDelta"
    [("secs", intText (d.nanos / 1000000000)), ("nanos", intText (d.nanos % 1000000000))]

def describe (staleAfter : Span) (log : AttemptLog) : String :=
  Diagnostic.record "InMemoryIdempotencyStore"
    [("records", natText log.size), ("stale_after", spanText staleAfter)]

end AttemptLog

end Courier
