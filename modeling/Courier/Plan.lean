import Courier.Adapter
import Courier.AttemptLog
import Courier.Event
import Courier.Inbox
import Courier.Limiter
import Courier.Liveness
import Courier.Queue.Basic

/-!
Plans: what a task of the runtime does, one atomic action at a time. A plan names its next action
and goes on with the answer, so that a task can be stopped, failed or interleaved with others
between any two actions.
-/

namespace Courier

/-- What ended a wait. -/
inductive Waking where
  | elapsed
  | noticed
  | shutDown
deriving DecidableEq

/-- The atomic actions of a task. -/
inductive Action where
  | readClock
  | beat (worker status : String)
  | lastBeat (worker : String)
  | leaseJobs (worker : String) (batch : Nat) (visibility : Span)
  | renewLease (job : JobId) (worker : String) (visibility : Span)
  | completeJob (job : JobId) (worker : String)
  | releaseJob (job : JobId) (worker : String) (availableAt : Timestamp) (reason : String)
      (refund : Bool)
  | deadLetterJob (job : JobId) (worker : String) (entry : DlqState) (reason : String)
  | reclaimJobs
  | pruneJobs (cutoff : Timestamp)
  | beginAttempt (key : String)
  | completeAttempt (key : String) (metadata : Json)
  | clearAttempt (key : String)
  | appendEnvelope (e : Envelope)
  | leaseEnvelopes (consumer : String) (batch : Nat) (visibility : Span)
  | ackEnvelope (id : EnvelopeId) (consumer : String)
  | reclaimEnvelopes
  | pruneEnvelopes (cutoff : Timestamp)
  | requestPassage (route : String)
  | cancelTrial (route : String)
  | circuitSuccess (route : String)
  | circuitFailure (route : String)
  | requestRoom (route : String) (now : Timestamp)
  | refundRoom (route : String) (taken : Timestamp)
  | pacingWait (route : String) (lag : Span) (now : Timestamp)
  | pacingSend (route : String) (now : Timestamp)
  | pacingSuccess (route : String)
  | pacingFailure (route : String) (o : Outcome)
  | drawUnit
  | materialize (i : Intent)
  | callAdapter (i : Intent)
  | applyEnvelope (e : Envelope)
  | noteDelivery (latencyMs : Int) (violated : Bool)
  | noteApplyFailure
  | wakeDispatcher
  | emit (n : Notice)
  | workerIds
  | restartDead
  | isShutDown
  /-- Waits for so many milliseconds, or for the shutdown. -/
  | pause (ms : Nat)
  /-- Waits likewise, or for the next envelope. -/
  | pauseForEnvelope (ms : Nat)
  /-- Waits until a task has ended, for so many milliseconds at most. -/
  | join (task : Nat) (ms : Nat)
  /-- Waits for so many milliseconds, whatever happens. -/
  | sleep (ms : Nat)

/-- The answer to an action. -/
abbrev Action.Reply : Action → Type
  | .readClock => Timestamp
  | .beat _ _ => Except Failure Unit
  | .lastBeat _ => Except Failure (Option Beat)
  | .leaseJobs _ _ _ => Except Failure (List Job)
  | .renewLease _ _ _ => Except Failure Timestamp
  | .completeJob _ _ => Except Failure Unit
  | .releaseJob _ _ _ _ _ => Except Failure Unit
  | .deadLetterJob _ _ _ _ => Except Failure Unit
  | .reclaimJobs => Except Failure Nat
  | .pruneJobs _ => Except Failure Nat
  | .beginAttempt _ => Except Failure Beginning
  | .completeAttempt _ _ => Except Failure Unit
  | .clearAttempt _ => Except Failure Unit
  | .appendEnvelope _ => Except Failure Bool
  | .leaseEnvelopes _ _ _ => Except Failure (List InboxRecord)
  | .ackEnvelope _ _ => Except Failure Unit
  | .reclaimEnvelopes => Except Failure Nat
  | .pruneEnvelopes _ => Except Failure Nat
  | .requestPassage _ => Passage
  | .cancelTrial _ => Unit
  | .circuitSuccess _ => Unit
  | .circuitFailure _ => Unit
  | .requestRoom _ _ => RateDecision
  | .refundRoom _ _ => Unit
  | .pacingWait _ _ _ => Span
  | .pacingSend _ _ => Unit
  | .pacingSuccess _ => Unit
  | .pacingFailure _ _ => Unit
  | .drawUnit => Float
  | .materialize _ => ContentReply
  | .callAdapter _ => AdapterReply
  | .applyEnvelope _ => Except Failure Unit
  | .noteDelivery _ _ => Unit
  | .noteApplyFailure => Unit
  | .wakeDispatcher => Unit
  | .emit _ => Unit
  | .workerIds => List String
  | .restartDead => List String
  | .isShutDown => Bool
  | .pause _ => Waking
  | .pauseForEnvelope _ => Waking
  | .join _ _ => Waking
  | .sleep _ => Waking

/-- What a task does until it has a result. -/
inductive Plan (α : Type) where
  | done (a : α)
  | step (a : Action) (next : a.Reply → Plan α)

namespace Plan

variable {α β : Type}

/-- Goes on with the result of a plan. -/
def bind : Plan α → (α → Plan β) → Plan β
  | done a, f => f a
  | step a next, f => step a fun r => (next r).bind f

instance : Monad Plan where
  pure := done
  bind := bind

/-- A plan that may fail. -/
abbrev Attempt (α : Type) := Plan (Except Failure α)

def fail (e : Failure) : Attempt α := done (.error e)

def give (a : α) : Attempt α := done (.ok a)

/-- Goes on with the result unless the plan failed. -/
def andThen (p : Attempt α) (f : α → Attempt β) : Attempt β :=
  p.bind fun
    | .ok a => f a
    | .error e => fail e

/-- Goes on whatever the plan reports; a crash remains one. -/
def regardless (p : Attempt α) (k : Attempt β) : Attempt β :=
  p.bind fun
    | .error .crash => fail .crash
    | _ => k

end Plan

end Courier
