import Courier.Ident

/-!
What can go wrong, by cause. Every cause is of one kind, which decides how callers treat it, and
has one wording.
-/

namespace Courier

/-- Where a job stands. -/
inductive JobState where
  | queued
  | leased
  | completed
  | dlq
deriving DecidableEq, Inhabited

namespace JobState

def name : JobState → String
  | queued => "queued"
  | leased => "leased"
  | completed => "completed"
  | dlq => "dlq"

def isActive : JobState → Bool
  | queued | leased => true
  | _ => false

def all : List JobState := [queued, leased, completed, dlq]

def ofName? (s : String) : Option JobState := all.find? fun x => x.name = s

end JobState

/-- What has been decided about a dead-lettered job. -/
inductive DlqState where
  | awaitingManualAction
  | terminal
  | replayed
  | resolved
deriving DecidableEq, Inhabited

namespace DlqState

def name : DlqState → String
  | awaitingManualAction => "awaiting_manual_action"
  | terminal => "terminal"
  | replayed => "replayed"
  | resolved => "resolved"

/-- Only an entry that awaits a decision is open to one. -/
def isClosed : DlqState → Bool
  | awaitingManualAction => false
  | _ => true

def all : List DlqState := [awaitingManualAction, terminal, replayed, resolved]

def ofName? (s : String) : Option DlqState := all.find? fun x => x.name = s

end DlqState

inductive ErrorKind where
  | notFound
  | validation
  | conflict
  | leaseMismatch
  | invalidTransition
  | internal
  | database
deriving DecidableEq

namespace ErrorKind

/-- The name by which callers tell kinds apart. -/
def name : ErrorKind → String
  | notFound => "NotFound"
  | validation => "Validation"
  | conflict => "Conflict"
  | leaseMismatch => "LeaseMismatch"
  | invalidTransition => "InvalidTransition"
  | internal => "Internal"
  | database => "Database"

def all : List ErrorKind :=
  [notFound, validation, conflict, leaseMismatch, invalidTransition, internal, database]

def ofName? (s : String) : Option ErrorKind := all.find? fun k => k.name = s

/-- The words before the detail of an error. -/
def label : ErrorKind → String
  | notFound => "Not found"
  | validation => "Invalid input"
  | conflict => "Conflict"
  | leaseMismatch => "Lease mismatch"
  | invalidTransition => "Invalid transition"
  | internal => "Internal error"
  | database => "Database error"

def message (k : ErrorKind) (detail : String) : String := k.label ++ ": " ++ detail

/-- Kinds that are expected when several workers contend for a job. -/
def isLeaseConflict : ErrorKind → Bool
  | leaseMismatch | invalidTransition | notFound => true
  | _ => false

end ErrorKind

inductive Error where
  | unknownJob (id : JobId)
  | unknownEnvelope (id : EnvelopeId)
  | nonFinitePriority (id : JobId)
  | noAttemptAllowed (id : JobId)
  | emptyIntentId
  | enqueuedInState (id : JobId) (state : JobState)
  | malformedJobId (text : String)
  | notLeasedBy (id : JobId) (state : JobState) (holder : Option String) (caller : String)
  | envelopeNotLeasedBy (id : EnvelopeId) (consumer : String)
  | notDeadLettered (id : JobId) (state : JobState)
  | notReplayable (id : JobId) (entry : Option DlqState)
  | alreadyClosed (id : JobId) (entry : DlqState)
  | noResolution (state : DlqState)
  | unknownJobState (text : String)
  | unknownDlqState (text : String)
  | unknownInboxState (text : String)
  | unknownAttemptState (text : String)
  | applierMissing
  | alreadyShutDown
  | producerUnavailable
  /-- A store refuses a call for a reason of its own. -/
  | storeOffline (call : String)
  | storeLost (call : String)
  /-- The database's own words are left out. -/
  | databaseUnreachable
  /-- The database's own words, which would follow, are left out. -/
  | healthCheckFailed

namespace Error

def kind : Error → ErrorKind
  | unknownJob _ | unknownEnvelope _ => .notFound
  | nonFinitePriority _ | noAttemptAllowed _ | emptyIntentId | enqueuedInState _ _
  | malformedJobId _ => .validation
  | notLeasedBy _ _ _ _ | envelopeNotLeasedBy _ _ | storeLost _ => .leaseMismatch
  | notDeadLettered _ _ | notReplayable _ _ | alreadyClosed _ _ | noResolution _
  | unknownDlqState _ => .invalidTransition
  | unknownJobState _ | unknownInboxState _ | unknownAttemptState _ | applierMissing
  | alreadyShutDown | producerUnavailable | storeOffline _ | healthCheckFailed => .internal
  | databaseUnreachable => .database

def entryName : Option DlqState → String
  | some s => s.name
  | none => "unset"

def detail : Error → String
  | unknownJob id => "job " ++ id.toText
  | unknownEnvelope id => "envelope " ++ id.toText
  | nonFinitePriority id => "job " ++ id.toText ++ " has non-finite priority"
  | noAttemptAllowed id => "job " ++ id.toText ++ " must allow at least one attempt"
  | emptyIntentId => "intent id must not be empty"
  | enqueuedInState id state =>
    "job " ++ id.toText ++ " must be enqueued in the queued state, found " ++ state.name
  | malformedJobId text => "invalid job id " ++ text ++ ": "
  | notLeasedBy id state holder caller =>
    "job " ++ id.toText ++ " is " ++ state.name ++ " and leased by "
      ++ Diagnostic.option (holder.map Diagnostic.quoted) ++ ", not " ++ caller
  | envelopeNotLeasedBy id consumer =>
    "envelope " ++ id.toText ++ " is not leased by " ++ consumer
  | notDeadLettered id state => "job " ++ id.toText ++ " is " ++ state.name ++ ", not in the dlq"
  | notReplayable id entry =>
    "job " ++ id.toText ++ " dlq entry is " ++ entryName entry ++ ", replay not permitted"
  | alreadyClosed id entry =>
    "job " ++ id.toText ++ " dlq entry already closed as " ++ entry.name
  | noResolution state =>
    "dlq entries can only be resolved as terminal or resolved, not " ++ state.name
  | unknownJobState text => "unknown job state " ++ text
  | unknownDlqState text => "unknown dlq state " ++ text
  | unknownInboxState text => "unknown inbox state " ++ text
  | unknownAttemptState text => "unknown idempotency state " ++ text
  | applierMissing => "result applier dependency missing"
  | alreadyShutDown => "runtime already shut down"
  | producerUnavailable => "producer unavailable"
  | storeOffline call => call ++ " offline"
  | storeLost call => call ++ " lost"
  | databaseUnreachable => "no connection"
  | healthCheckFailed => "postgres health check"

def message (e : Error) : String := e.kind.message e.detail

def isLeaseConflict (e : Error) : Bool := e.kind.isLeaseConflict

end Error

/-- Why a step did not finish: it reported an error, or it crashed and ends its task. -/
inductive Failure where
  | error (e : Error)
  | crash

end Courier
