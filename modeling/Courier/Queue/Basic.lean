import Courier.Job.Basic
import Courier.Table

/-!
The queue of jobs. A job waits, is leased to one worker at a time, and ends completed or
dead-lettered; at most one job per intent waits or is leased, and `active` names it. An operation
that fails has no successor state.
-/

namespace Courier

structure Queue where
  jobs : Table JobId Job
  /-- The waiting or leased job of each intent. -/
  active : Table String JobId

namespace Queue

def empty : Queue := ⟨.empty, .empty⟩

def get? (q : Queue) (id : JobId) : Option Job := q.jobs.get? id

/-- Puts a job in the place of its id. -/
def put (j : Job) (q : Queue) : Queue := { q with jobs := q.jobs.insert j.id j }

/-- The intent of a job that has ended has no active job, unless that is another one. -/
def settle (id : JobId) (intentId : String) (q : Queue) : Queue :=
  if q.active.get? intentId = some id then { q with active := q.active.erase intentId } else q

/-- Takes in a job, or points to the active job of the same intent. -/
def enqueue (j : Job) (now : Timestamp) (q : Queue) : Except Error (Handle × Queue) := do
  j.check
  if j.state ≠ .queued then throw (.enqueuedInState j.id j.state)
  match q.active.get? j.intentId with
  | some existing => pure (.ofMerged existing j.intentId, q)
  | none =>
    let j := { j with leasedBy := none, leaseUntil := none, updatedAt := now }
    pure (.ofAccepted j, { q.put j with active := q.active.insert j.intentId j.id })

/-- Whether a job may be leased at `now`. -/
def isEligible (now : Timestamp) (j : Job) : Bool := j.state = .queued && j.availableAt ≤ now

/-- A float's place in the order of all floats: negative ones in reverse, then positive ones. -/
def priorityRank (x : Float) : Int :=
  let bits : Nat := x.toBits.toNat
  if bits < Nat.pow 2 63 then bits else Nat.pow 2 63 - 1 - bits

/-- Whether `a` goes before `b`: the more urgent first, then the older, then by id. -/
def goesBefore (a b : Job) : Bool :=
  let ra := priorityRank a.priority
  let rb := priorityRank b.priority
  if ra ≠ rb then rb < ra
  else if a.createdAt ≠ b.createdAt then a.createdAt < b.createdAt
  else a.id ≤ b.id

/-- The jobs that may be leased at `now`, in the order in which they are. -/
def eligible (now : Timestamp) (q : Queue) : List Job :=
  (q.jobs.values.filter (isEligible now)).mergeSort goesBefore

/-- A job in the hands of a worker until `until_`; this counts as an attempt. -/
def leaseTo (worker : String) (until_ now : Timestamp) (j : Job) : Job :=
  { j with
    state := .leased
    leasedBy := some worker
    leaseUntil := some until_
    attemptCount := successor32 j.attemptCount
    updatedAt := now }

/-- Leases up to `batch` jobs to a worker. -/
def lease (worker : String) (batch : Nat) (visibility : Span) (now : Timestamp) (q : Queue) :
    List Job × Queue :=
  let leased := ((q.eligible now).take batch).map (leaseTo worker (now.add visibility) now)
  (leased, leased.foldl (fun q j => q.put j) q)

/-- A job that the caller holds. -/
def held (id : JobId) (worker : String) (q : Queue) : Except Error Job :=
  match q.get? id with
  | none => .error (.unknownJob id)
  | some j =>
    if j.isLeasedBy worker then .ok j else .error (.notLeasedBy id j.state j.leasedBy worker)

/-- Renews a lease and tells how long it now runs. -/
def heartbeat (id : JobId) (worker : String) (visibility : Span) (now : Timestamp) (q : Queue) :
    Except Error (Timestamp × Queue) := do
  let j ← q.held id worker
  let until_ := now.add visibility
  pure (until_, q.put { j with leaseUntil := some until_, updatedAt := now })

/-- Ends a held job as completed. -/
def complete (id : JobId) (worker : String) (now : Timestamp) (q : Queue) :
    Except Error Queue := do
  let j ← q.held id worker
  let j := { j with state := .completed, leasedBy := none, leaseUntil := none, updatedAt := now }
  pure ((q.put j).settle id j.intentId)

/-- Hands a held job back, to wait until `availableAt`; `refund` takes the attempt back. -/
def release (id : JobId) (worker : String) (availableAt : Timestamp) (reason : String)
    (refund : Bool) (now : Timestamp) (q : Queue) : Except Error Queue := do
  let j ← q.held id worker
  pure <| q.put
    { j with
      state := .queued
      leasedBy := none
      leaseUntil := none
      availableAt := availableAt
      lastError := some reason
      attemptCount := if refund then j.attemptCount - 1 else j.attemptCount
      updatedAt := now }

/-- Ends a held job as dead-lettered. -/
def moveToDlq (id : JobId) (worker : String) (entry : DlqState) (reason : String)
    (now : Timestamp) (q : Queue) : Except Error Queue := do
  let j ← q.held id worker
  let j :=
    { j with
      state := .dlq
      dlqState := some entry
      leasedBy := none
      leaseUntil := none
      lastError := some reason
      updatedAt := now }
  pure ((q.put j).settle id j.intentId)

/-- Whether a lease has run out by `now`. -/
def isExpired (now : Timestamp) (j : Job) : Bool :=
  j.state = .leased && j.leaseUntil.any fun t => t ≤ now

/-- A job whose holder has fallen silent, waiting again. -/
def requeue (now : Timestamp) (j : Job) : Job :=
  { j with
    state := .queued
    leasedBy := none
    leaseUntil := none
    availableAt := now
    updatedAt := now }

/-- Takes back every job whose lease has run out, and counts them. -/
def reclaim (now : Timestamp) (q : Queue) : Nat × Queue :=
  ((q.jobs.values.filter (isExpired now)).length,
    { q with jobs := q.jobs.mapValues fun _ j => if isExpired now j then requeue now j else j })

/-- Whether a completed job is older than `cutoff`. -/
def isPrunable (cutoff : Timestamp) (j : Job) : Bool := j.state = .completed && j.updatedAt < cutoff

/-- Forgets completed jobs older than `cutoff`, and counts them. -/
def prune (cutoff : Timestamp) (q : Queue) : Nat × Queue :=
  ((q.jobs.values.filter (isPrunable cutoff)).length,
    { q with jobs := q.jobs.filter fun _ j => !isPrunable cutoff j })

/-- How many jobs are in each state. -/
structure Depth where
  queued : Nat
  leased : Nat
  completed : Nat
  dlq : Nat
deriving DecidableEq

namespace Depth

def active (d : Depth) : Nat := d.queued + d.leased

end Depth

def countIn (s : JobState) (q : Queue) : Nat :=
  (q.jobs.values.filter fun j => j.state = s).length

def depth (q : Queue) : Depth :=
  ⟨q.countIn .queued, q.countIn .leased, q.countIn .completed, q.countIn .dlq⟩

/-- Counts one more under a key of a sorted list. -/
def countKey (k : String) : List (String × Nat) → List (String × Nat)
  | [] => [(k, 1)]
  | (k', n) :: rest =>
    if k = k' then (k', n + 1) :: rest
    else if k < k' then (k, 1) :: (k', n) :: rest
    else (k', n) :: countKey k rest

/-- Active jobs per context, in the order of the contexts. -/
def depthByContext (q : Queue) : List (String × Nat) :=
  (q.jobs.values.filter Job.isActive).foldl (fun acc j => countKey j.contextKey acc) []

def describe (q : Queue) : String :=
  Diagnostic.record "InMemoryExecutionQueue"
    [("jobs", toString q.jobs.size), ("active", toString q.active.size)]

end Queue

end Courier
