import Courier.Plan
import Courier.Retry

/-!
What a worker does with one leased job. Four gates come first, in a fixed order: pacing, the
circuit, the rate limit and the log of attempts. A gate that refuses hands the job back without an
attempt. Only then the adapter is called, and its outcome decides where the job goes. Every way
out of the queue takes an envelope to the inbox.
-/

namespace Courier

/-- What became of one leased job. -/
inductive Disposition where
  | completed
  | retried
  | deadLettered
  | deferred (reason : Deferral)
  /-- The attempt was done before; nothing was carried out again. -/
  | duplicate
  /-- The lease could not be renewed before the call. -/
  | leaseLost
deriving DecidableEq

def Disposition.name : Disposition → String
  | completed => "Completed"
  | retried => "Retried"
  | deadLettered => "DeadLettered"
  | deferred d => "Deferred(" ++ d.name ++ ")"
  | duplicate => "Duplicate"
  | leaseLost => "LeaseLost"

namespace Worker

open Plan

variable {α : Type}

/-- What a worker holds while a job is between the gates and the call: passage through the
circuit, and room under the rate limit taken at `taken`. -/
structure Holdings where
  route : String
  passage : Passage
  taken : Timestamp

/-- Gives back a trial that was not used. -/
def returnPassage (route : String) (p : Passage) (k : Plan α) : Plan α :=
  if p = .onTrial then .step (.cancelTrial route) fun _ => k else k

/-- Gives back all that is held, what was taken last first, as a failed call leaves it. -/
def returnAll (h : Holdings) (k : Plan α) : Plan α :=
  .step (.refundRoom h.route h.taken) fun _ => returnPassage h.route h.passage k

/-- Gives back all that is held, what was taken first first, as a refusal does on its way out. -/
def handBack (h : Holdings) (k : Plan α) : Plan α :=
  returnPassage h.route h.passage <| .step (.refundRoom h.route h.taken) fun _ => k

/-- Hands a job back without an attempt. -/
def defer (worker : String) (job : Job) (reason : Deferral) (availableAt : Timestamp) :
    Attempt Disposition :=
  .step (.releaseJob job.id worker availableAt reason.text true) fun
    | .error e => fail e
    | .ok _ => .step (.emit (.deferred job.id reason availableAt)) fun _ => give (.deferred reason)

/-- Takes the outcome of a job to the inbox. -/
def publish (job : Job) (o : Outcome) (d : Disposition) : Attempt Disposition :=
  .step .readClock fun now =>
    .step (.appendEnvelope (.ofJob job o now)) fun
      | .error e => fail e
      | .ok isNew =>
        let last : Attempt Disposition :=
          .step (.emit (.completed job.id o.failure)) fun _ => give d
        if isNew then .step .wakeDispatcher fun _ => last else last

/-- Ends a job that was dead-lettered for `reason`. -/
def deadLetter (worker : String) (job : Job) (reason : String) (o : Outcome) :
    Attempt Disposition :=
  .step (.deadLetterJob job.id worker .awaitingManualAction reason) fun
    | .error e => fail e
    | .ok _ =>
      .step (.emit (.deadLettered job.id .awaitingManualAction reason)) fun _ =>
        publish job o .deadLettered

/-- After a success: the attempt is done, and the envelope goes out even when the lease is lost. -/
def onSuccess (worker : String) (job : Job) (route : String) (o : Outcome) : Attempt Disposition :=
  .step (.circuitSuccess route) fun _ =>
    .step (.pacingSuccess route) fun _ =>
      .step (.completeAttempt job.attemptKey o.toJson) fun
        | .error e => fail e
        | .ok _ =>
          .step (.completeJob job.id worker) fun
            | .error .crash => fail .crash
            | _ => publish job o .completed

/-- After a failure of the environment: another attempt later, or the dead-letter queue. -/
def onEnvironmentFailure (cfg : Config) (worker : String) (job : Job) (route : String)
    (o : Outcome) : Attempt Disposition :=
  .step (.circuitFailure route) fun _ =>
    .step (.pacingFailure route o) fun _ =>
      .step (.clearAttempt job.attemptKey) fun
        | .error e => fail e
        | .ok _ =>
          if RetryConfig.allowsAnother job.attemptCount job.maxAttempts then
            .step .readClock fun now =>
              .step .drawUnit fun unit =>
                let again := now.add (cfg.retry.delay job.attemptCount unit)
                .step (.releaseJob job.id worker again o.reasonText false) fun
                  | .error e => fail e
                  | .ok _ =>
                    .step (.emit (.retried job.id job.attemptCount again)) fun _ => give .retried
          else deadLetter worker job o.reasonText o

/-- After any other failure: no attempt will do better. -/
def onFinalFailure (worker : String) (job : Job) (route : String) (p : Passage) (o : Outcome) :
    Attempt Disposition :=
  returnPassage route p <|
    .step (.clearAttempt job.attemptKey) fun
      | .error e => fail e
      | .ok _ =>
        .step (.completeJob job.id worker) fun
          | .error e => fail e
          | .ok _ => publish job o .completed

def settle (cfg : Config) (worker : String) (job : Job) (route : String) (p : Passage)
    (o : Outcome) : Attempt Disposition :=
  if o.isSuccess then onSuccess worker job route o
  else if o.isEnvironmentFailure then onEnvironmentFailure cfg worker job route o
  else onFinalFailure worker job route p o

/-- Carries out a job that has passed every gate. -/
def carryOut (cfg : Config) (worker : String) (job : Job) (h : Holdings) : Attempt Disposition :=
  .step (.materialize job.intent) fun content =>
    match content.apply job.intent with
    | none => returnAll h (fail .crash)
    | some intent =>
      .step (.renewLease job.id worker cfg.lease.visibilityTimeout) fun
        | .error .crash => returnAll h (fail .crash)
        | .error (.error _) =>
          handBack h <|
            .step (.clearAttempt job.attemptKey) fun
              | .error e => fail e
              | .ok _ => give .leaseLost
        | .ok _ =>
          .step .readClock fun sent =>
            .step (.pacingSend h.route sent) fun _ =>
              .step (.callAdapter intent) fun reply =>
                .step (.renewLease job.id worker cfg.lease.visibilityTimeout) fun
                  | .error .crash => returnPassage h.route h.passage (fail .crash)
                  | _ => settle cfg worker job h.route h.passage (reply.toOutcome intent.platform)

/-- The outcome of an attempt as the log of attempts has it. -/
def recordedOutcome (r : AttemptRecord) : Outcome :=
  match Outcome.read r.metadata with
  | .ok o => o
  | _ => .success

def unknownOutcome (since : Timestamp) : String :=
  "unknown outcome: attempt in progress since " ++ since.toMessageText

/-- The last gate: only the first attempt for a key goes ahead. -/
def beginAttempt (cfg : Config) (worker : String) (job : Job) (h : Holdings) :
    Attempt Disposition :=
  .step (.beginAttempt job.attemptKey) fun
    | .error e => returnAll h (fail e)
    | .ok .first => carryOut cfg worker job h
    | .ok (.done record) =>
      handBack h <|
        .step (.completeJob job.id worker) fun
          | .error e => fail e
          | .ok _ => publish job (recordedOutcome record) .duplicate
    | .ok (.underWay false _) =>
      handBack h <|
        defer worker job .inProgress (h.taken.add (.ofMillis cfg.attempts.inProgressDeferralMs))
    | .ok (.underWay true since) =>
      handBack h <|
        deadLetter worker job (unknownOutcome since) (.fault (unknownOutcome since))

/-- How long a job has been waiting beyond the time it was due. -/
def lag (job : Job) (now : Timestamp) : Span := (now.since job.availableAt).orLonger .zero

/-- Takes a leased job through the gates. -/
def process (cfg : Config) (worker : String) (job : Job) : Attempt Disposition :=
  let route := job.routeKey
  .step .readClock fun now =>
    .step (.pacingWait route (lag job now) now) fun wait =>
      if Span.zero < wait then defer worker job .pacing (now.add wait)
      else
        .step (.requestPassage route) fun passage =>
          if passage = .denied then
            defer worker job .circuitOpen (now.add (.ofMillis cfg.circuit.deferralMs))
          else
            .step (.requestRoom route now) fun room =>
              if !room.allowed then
                returnPassage route passage <|
                  defer worker job .rateLimited (now.add (.ofMillis room.waitMillis))
              else beginAttempt cfg worker job ⟨route, passage, now⟩

end Worker

end Courier
