import Courier.Error
import Courier.Json.Basic
import Courier.Time.Basic

/-!
Intents and the jobs that carry them out. A job is the queue's record of one piece of work: what
to do, how urgent it is, who holds it, and how often it was tried.
-/

namespace Courier

/-- A decision, already taken, to act on an external platform. -/
structure Intent where
  intentId : String
  platform : String
  target : String
  action : String
  payload : Json
  /-- Stands in for the payload when the content cannot be produced. -/
  fallbackPayload : Option Json

/-- The route that an intent takes; gates and pacing work per route. -/
def Intent.routeKey (i : Intent) : String := i.platform ++ ":" ++ i.target

/-- Changes to reserved resources, in the order of their keys. -/
abbrev Reservation := List (String × Float)

structure Job where
  id : JobId
  intent : Intent
  contextKey : String
  reservation : Reservation
  state : JobState
  priority : Float
  availableAt : Timestamp
  createdAt : Timestamp
  updatedAt : Timestamp
  leasedBy : Option String
  leaseUntil : Option Timestamp
  attemptCount : Nat
  maxAttempts : Nat
  lastError : Option String
  version : Nat
  parent : Option JobId
  dlqState : Option DlqState

/-- The next value of a 32-bit counter. -/
def successor32 (n : Nat) : Nat := (n + 1) % Nat.pow 2 32

namespace Job

def defaultMaxAttempts : Nat := 5

/-- A queued job for an intent, not tried yet. -/
def create (id : JobId) (intent : Intent) (now : Timestamp) : Job where
  id := id
  intent := intent
  contextKey := ""
  reservation := []
  state := .queued
  priority := 0.0
  availableAt := now
  createdAt := now
  updatedAt := now
  leasedBy := none
  leaseUntil := none
  attemptCount := 0
  maxAttempts := defaultMaxAttempts
  lastError := none
  version := 1
  parent := none
  dlqState := none

def intentId (j : Job) : String := j.intent.intentId

def routeKey (j : Job) : String := j.intent.routeKey

/-- Guards the side effect of this job: the same for every delivery of it, different for every
other job. -/
def attemptKey (j : Job) : String := j.intent.intentId ++ ":" ++ j.id.toText

def isActive (j : Job) : Bool := j.state.isActive

def isLeasedBy (j : Job) (worker : String) : Bool :=
  j.state = .leased && j.leasedBy = some worker

/-- Refuses jobs that would upset the order of the queue or could never be tried. -/
def check (j : Job) : Except Error Unit :=
  if !j.priority.isFinite then .error (.nonFinitePriority j.id)
  else if j.maxAttempts = 0 then .error (.noAttemptAllowed j.id)
  else if j.intent.intentId.isEmpty then .error .emptyIntentId
  else .ok ()

theorem check_ok_iff (j : Job) : j.check = .ok () ↔
    j.priority.isFinite = true ∧ j.maxAttempts ≠ 0 ∧ j.intent.intentId.isEmpty = false := by
  unfold check
  by_cases hp : j.priority.isFinite = true <;> by_cases hm : j.maxAttempts = 0 <;>
    by_cases hi : j.intent.intentId.isEmpty = true <;> simp [hp, hm, hi]

/-- The job that a replay of a dead-lettered job starts: the same work, not tried yet. -/
def replayChild (j : Job) (id : JobId) (now : Timestamp) : Job :=
  { j with
    id := id
    state := .queued
    availableAt := now
    createdAt := now
    updatedAt := now
    leasedBy := none
    leaseUntil := none
    attemptCount := 0
    lastError := none
    version := successor32 j.version
    parent := some j.id
    dlqState := none }

end Job

/-- What a caller learns when it enqueues or replays. -/
structure Handle where
  jobId : JobId
  intentId : String
  accepted : Bool
  mergedInto : Option JobId

namespace Handle

def ofAccepted (j : Job) : Handle := ⟨j.id, j.intentId, true, none⟩

/-- The work is already under way as job `id`. -/
def ofMerged (id : JobId) (intentId : String) : Handle := ⟨id, intentId, false, some id⟩

end Handle

end Courier
