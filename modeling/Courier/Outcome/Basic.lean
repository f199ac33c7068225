import Courier.Job.Basic

/-!
What an adapter reports of one attempt, and the envelope that takes a job's final outcome back to
the producer of its intent.
-/

namespace Courier

inductive Status where
  | success
  | failed
  | partly
  | rejected
deriving DecidableEq, Inhabited

namespace Status

/-- The name in documents. -/
def tag : Status → String
  | success => "SUCCESS"
  | failed => "FAILED"
  | partly => "PARTIAL"
  | rejected => "REJECTED"

/-- The name in messages. -/
def name : Status → String
  | success => "Success"
  | failed => "Failed"
  | partly => "Partial"
  | rejected => "Rejected"

def all : List Status := [success, failed, partly, rejected]

end Status

/-- Who is to blame for a failure. Only the environment's failures are worth another attempt. -/
inductive FailureKind where
  | policy
  | environment
  | fault
  | nothing
deriving DecidableEq, Inhabited

namespace FailureKind

def tag : FailureKind → String
  | policy => "POLICY"
  | environment => "ENVIRONMENT"
  | fault => "INTERNAL"
  | nothing => "NONE"

def name : FailureKind → String
  | policy => "policy"
  | environment => "environment"
  | fault => "internal"
  | nothing => "none"

def all : List FailureKind := [policy, environment, fault, nothing]

end FailureKind

structure Outcome where
  status : Status
  effects : List Json
  /-- Amounts spent, in the order of their keys. -/
  costs : List (String × Float)
  observations : Json
  failure : FailureKind
  reason : Option String

namespace Outcome

def success : Outcome := ⟨.success, [], [], .null, .nothing, none⟩

def ofFailure (status : Status) (failure : FailureKind) (reason : String) : Outcome :=
  ⟨status, [], [], .null, failure, some reason⟩

/-- A failure of the infrastructure, worth another attempt. -/
def environment (reason : String) : Outcome := ofFailure .failed .environment reason

/-- A failure on this side. -/
def fault (reason : String) : Outcome := ofFailure .failed .fault reason

def rejected (reason : String) : Outcome := ofFailure .rejected .policy reason

def isSuccess (o : Outcome) : Bool := o.status = .success

def isEnvironmentFailure (o : Outcome) : Bool := !o.isSuccess && o.failure = .environment

/-- The reason, or the status and the kind of failure when none was given. -/
def reasonText (o : Outcome) : String :=
  match o.reason with
  | some r => r
  | none => o.status.name ++ "/" ++ o.failure.name

end Outcome

/-- The final outcome of a job on its way back to the producer. -/
structure Envelope where
  jobId : JobId
  intentId : String
  contextKey : String
  reservation : Reservation
  outcome : Outcome
  receivedAt : Timestamp

def Envelope.ofJob (j : Job) (o : Outcome) (receivedAt : Timestamp) : Envelope :=
  ⟨j.id, j.intentId, j.contextKey, j.reservation, o, receivedAt⟩

end Courier
