import Courier.Queue.Basic

/-!
What an operator may do with a dead-lettered job: have its work done again under a new id, or
close it. Either may happen once.
-/

namespace Courier.Queue

/-- A job in the dead-letter queue. -/
def deadLettered (id : JobId) (q : Queue) : Except Error Job :=
  match q.get? id with
  | none => .error (.unknownJob id)
  | some j => if j.state = .dlq then .ok j else .error (.notDeadLettered id j.state)

/-- Whether `a` is listed before `b`: the one changed later first, then by id. -/
def listedBefore (a b : Job) : Bool :=
  if a.updatedAt ≠ b.updatedAt then b.updatedAt < a.updatedAt else a.id ≤ b.id

/-- Dead-lettered jobs, the last changed first, at most `limit`. -/
def listDlq (limit : Nat) (q : Queue) : List Job :=
  ((q.jobs.values.filter fun j => j.state = .dlq).mergeSort listedBefore).take limit

/-- Only an entry that awaits a decision may be replayed. -/
def checkReplayable (id : JobId) : Option DlqState → Except Error Unit
  | some .awaitingManualAction => .ok ()
  | entry => .error (.notReplayable id entry)

/-- The active job that an earlier replay of `j` started, if it is still under way. -/
def activeChild (j : Job) (q : Queue) : Option JobId :=
  match q.active.get? j.intentId with
  | some active =>
    if (q.get? active).any fun c => c.parent = some j.id then some active else none
  | none => none

/-- A dead-lettered job with its decision taken. -/
def close (entry : DlqState) (now : Timestamp) (j : Job) : Job :=
  { j with dlqState := some entry, updatedAt := now }

/-- Starts the work of a dead-lettered job again, as job `child` unless the intent has an active
job already. -/
def replay (id : JobId) (child : JobId) (now : Timestamp) (q : Queue) :
    Except Error (Handle × Queue) := do
  let j ← q.deadLettered id
  match (if j.dlqState = some .replayed then q.activeChild j else none) with
  | some active => pure (.ofMerged active j.intentId, q)
  | none =>
    checkReplayable id j.dlqState
    let q := q.put (close .replayed now j)
    match q.active.get? j.intentId with
    | some active => pure (.ofMerged active j.intentId, q)
    | none =>
      let c := j.replayChild child now
      pure (.ofAccepted c, { q.put c with active := q.active.insert j.intentId c.id })

/-- Only these two decisions close an entry without a replay. -/
def checkResolution : DlqState → Except Error Unit
  | .terminal | .resolved => .ok ()
  | s => .error (.noResolution s)

/-- Closes a dead-lettered job. -/
def resolve (id : JobId) (entry : DlqState) (now : Timestamp) (q : Queue) :
    Except Error (Job × Queue) := do
  checkResolution entry
  let j ← q.deadLettered id
  match j.dlqState with
  | some s => if s.isClosed then throw (.alreadyClosed id s)
  | none => pure ()
  let j := close entry now j
  pure (j, q.put j)

end Courier.Queue
