import Courier.Breaker
import Courier.Outcome.Codec

/-!
What the runtime tells its observers, and the bus that carries it. The bus keeps the last events
in a ring; an observer that falls behind learns how many it missed.
-/

namespace Courier

open Json

/-- Why a leased job went back without an attempt. -/
inductive Deferral where
  | pacing
  | circuitOpen
  | rateLimited
  | inProgress
deriving DecidableEq, Inhabited

namespace Deferral

/-- The name in documents. -/
def tag : Deferral → String
  | pacing => "adaptive_throttle"
  | circuitOpen => "circuit_open"
  | rateLimited => "rate_limited"
  | inProgress => "in_progress"

/-- The name in messages. -/
def text : Deferral → String
  | pacing => "adaptive throttle"
  | circuitOpen => "circuit open"
  | rateLimited => "rate limited"
  | inProgress => "idempotency in progress"

/-- The name in diagnostic text. -/
def name : Deferral → String
  | pacing => "AdaptiveThrottle"
  | circuitOpen => "CircuitOpen"
  | rateLimited => "RateLimited"
  | inProgress => "InProgress"

def all : List Deferral := [pacing, circuitOpen, rateLimited, inProgress]

def toJson (d : Deferral) : Json := .str d.tag

def read : Json → Reading Deferral := readName (all.map fun d => (d.tag, d))

end Deferral

inductive Notice where
  | enqueued (job : JobId) (intentId : String)
  | merged (existing : JobId) (intentId : String)
  | leased (job : JobId) (worker : String) (attempt : Nat)
  | deferred (job : JobId) (reason : Deferral) (availableAt : Timestamp)
  | completed (job : JobId) (failure : FailureKind)
  | retried (job : JobId) (attempt : Nat) (availableAt : Timestamp)
  | deadLettered (job : JobId) (entry : DlqState) (reason : String)
  | replayed (job : JobId) (child : JobId) (actor : String)
  | resolved (job : JobId) (entry : DlqState) (actor : String)
  | circuitMoved (event : CircuitEvent)
  | slaViolated (job : JobId) (latencyMs : Int) (slaMs : Int)

namespace Notice

/-- The members of a notice, under its type. -/
def toMembers : Notice → List (String × Json)
  | enqueued job intentId =>
    [("type", .str "enqueued"), ("job_id", job.toJson), ("intent_id", .str intentId)]
  | merged existing intentId =>
    [("type", .str "merged"), ("existing_job_id", existing.toJson), ("intent_id", .str intentId)]
  | leased job worker attempt =>
    [("type", .str "leased"), ("job_id", job.toJson), ("worker_id", .str worker),
      ("attempt", ofNat attempt)]
  | deferred job reason availableAt =>
    [("type", .str "deferred"), ("job_id", job.toJson), ("reason", reason.toJson),
      ("available_at", availableAt.toJson)]
  | completed job failure =>
    [("type", .str "completed"), ("job_id", job.toJson), ("failure_type", failure.toJson)]
  | retried job attempt availableAt =>
    [("type", .str "retried"), ("job_id", job.toJson), ("attempt", ofNat attempt),
      ("available_at", availableAt.toJson)]
  | deadLettered job entry reason =>
    [("type", .str "dead_lettered"), ("job_id", job.toJson), ("dlq_state", entry.toJson),
      ("reason", .str reason)]
  | replayed job child actor =>
    [("type", .str "replayed"), ("job_id", job.toJson), ("child_job_id", child.toJson),
      ("actor", .str actor)]
  | resolved job entry actor =>
    [("type", .str "resolved"), ("job_id", job.toJson), ("dlq_state", entry.toJson),
      ("actor", .str actor)]
  | circuitMoved event => ("type", .str "circuit_transition") :: event.toMembers
  | slaViolated job latencyMs slaMs =>
    [("type", .str "sla_violation"), ("job_id", job.toJson), ("latency_ms", .int latencyMs),
      ("sla_ms", .int slaMs)]

def toJson (n : Notice) : Json := sorted n.toMembers

/-- For each type, the names of its fields and how they are read. -/
def readers : List (String × List String × (Fields → Reading Notice)) :=
  [("enqueued", ["job_id", "intent_id"], fun f =>
      enqueued <$> f.required "job_id" JobId.read <*> f.required "intent_id" readString?),
    ("merged", ["existing_job_id", "intent_id"], fun f =>
      merged <$> f.required "existing_job_id" JobId.read <*> f.required "intent_id" readString?),
    ("leased", ["job_id", "worker_id", "attempt"], fun f =>
      leased <$> f.required "job_id" JobId.read <*> f.required "worker_id" readString?
        <*> f.required "attempt" readU32),
    ("deferred", ["job_id", "reason", "available_at"], fun f =>
      deferred <$> f.required "job_id" JobId.read <*> f.required "reason" Deferral.read
        <*> f.required "available_at" Timestamp.read),
    ("completed", ["job_id", "failure_type"], fun f =>
      completed <$> f.required "job_id" JobId.read
        <*> f.required "failure_type" FailureKind.read),
    ("retried", ["job_id", "attempt", "available_at"], fun f =>
      retried <$> f.required "job_id" JobId.read <*> f.required "attempt" readU32
        <*> f.required "available_at" Timestamp.read),
    ("dead_lettered", ["job_id", "dlq_state", "reason"], fun f =>
      deadLettered <$> f.required "job_id" JobId.read <*> f.required "dlq_state" DlqState.read
        <*> f.required "reason" readString?),
    ("replayed", ["job_id", "child_job_id", "actor"], fun f =>
      replayed <$> f.required "job_id" JobId.read <*> f.required "child_job_id" JobId.read
        <*> f.required "actor" readString?),
    ("resolved", ["job_id", "dlq_state", "actor"], fun f =>
      resolved <$> f.required "job_id" JobId.read <*> f.required "dlq_state" DlqState.read
        <*> f.required "actor" readString?),
    ("circuit_transition", CircuitEvent.fieldNames, fun f =>
      circuitMoved <$> CircuitEvent.readFields f),
    ("sla_violation", ["job_id", "latency_ms", "sla_ms"], fun f =>
      slaViolated <$> f.required "job_id" JobId.read <*> f.required "latency_ms" readI64
        <*> f.required "sla_ms" readI64)]

/-- Reads a notice by its type, which stands among the members or first in the list. -/
def read : Json → Reading Notice
  | .obj ms =>
    match ms.lookup "type" with
    | some (.str t) =>
      match readers.lookup t with
      | some (names, fields) => readRecord names fields (.obj (ms.filter fun (k, _) => k ≠ "type"))
      | none => .mismatch
    | some j => unfit j
    | none => if allMembersRead true ms then .mismatch else .malformed
  | .arr (.str t :: xs) =>
    match readers.lookup t with
    | some (names, fields) => readRecord names fields (.arr xs)
    | none => .mismatch
  | .arr _ => .mismatch
  | j => unfit j

end Notice

/-- A notice and when it was given. -/
structure Event where
  at_ : Timestamp
  notice : Notice

namespace Event

def toJson (e : Event) : Json := sorted [("at", e.at_.toJson), ("payload", e.notice.toJson)]

def read : Json → Reading Event :=
  readRecord ["at", "payload"] fun f =>
    Event.mk <$> f.required "at" Timestamp.read <*> f.required "payload" Notice.read

end Event

/-- A ring of the last values sent, for one observer. -/
structure Bus (α : Type) where
  /-- The capacity asked for. -/
  capacity : Nat
  /-- Values in the ring, oldest first. -/
  kept : List α
  /-- How many values were sent so far. -/
  sent : Nat
  /-- How many of them the observer has read or missed; `none` before it subscribes. -/
  position : Option Nat

namespace Bus

variable {α : Type}

def usualCapacity : Nat := 1024

def create (capacity : Nat) : Bus α := ⟨capacity, [], 0, none⟩

/-- The least power of two that is at least `n`. -/
def ringSizeFrom (size n : Nat) : Nat → Nat
  | 0 => size
  | fuel + 1 => if n ≤ size then size else ringSizeFrom (2 * size) n fuel

def ringSize (b : Bus α) : Nat := ringSizeFrom 1 (max b.capacity 1) 64

def publish (a : α) (b : Bus α) : Bus α :=
  let kept := b.kept ++ [a]
  { b with kept := kept.drop (kept.length - b.ringSize), sent := b.sent + 1 }

def subscribe (b : Bus α) : Bus α := { b with position := some b.sent }

/-- What the observer receives: how many values it missed, then those still in the ring. -/
def drain (b : Bus α) : Nat × List α × Bus α :=
  match b.position with
  | none => (0, [], b)
  | some p =>
    let oldest := b.sent - b.kept.length
    (oldest - p, b.kept.drop (p - oldest), { b with position := some b.sent })

def describe (b : Bus α) : String :=
  Diagnostic.record "InProcExecutionEventBus"
    [("capacity", natText b.capacity),
      ("subscribers", natText (if b.position.isSome then 1 else 0))]

end Bus

end Courier
