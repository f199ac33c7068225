import Courier.Engine.Basic

/-!
What each action of a plan does to the engine. Most are answered at once; a wait is answered when
one of the things it waits for has come.
-/

namespace Courier

/-- What a task waits for. -/
structure Wait where
  /-- The time, in milliseconds slept, at which the wait ends in any case. -/
  deadline : Nat
  onShutDown : Bool
  onEnvelope : Bool
  onTask : Option Nat

namespace Wait

/-- Whether a wait is over, what ended it, and the engine without the notice it took. -/
def over? (w : Wait) (e : Engine) : Option (Waking × Engine) :=
  if w.onShutDown && e.isShutDown then some (.shutDown, e)
  else if w.onEnvelope && e.noticed then some (.noticed, { e with noticed := false })
  else if w.onTask.any e.tasks.hasEnded then some (.noticed, e)
  else if w.deadline ≤ e.sleptMs then some (.elapsed, e)
  else none

end Wait

/-- The result of an action: a reply, or a wait and how to go on after it. -/
inductive Performed (α : Type) where
  | reply (a : α) (e : Engine)
  | wait (w : Wait) (resume : Waking → Engine → α × Engine) (e : Engine)

namespace Engine

/-- A result and its engine as a reply. -/
def replied {α : Type} (r : α × Engine) : Performed α := .reply r.1 r.2

/-- Waits for `ms` milliseconds and on. -/
def waitFor (ms : Nat) (onShutDown onEnvelope : Bool) (onTask : Option Nat) (e : Engine) :
    Performed Waking :=
  .wait ⟨e.sleptMs + ms, onShutDown, onEnvelope, onTask⟩ (fun w e => (w, e)) e

/-- Takes back jobs whose lease has run out, past any fault. -/
def reclaimQuietly (e : Engine) : Engine :=
  if e.unreachable.contains .queue then e else { e with queue := (e.queue.reclaim e.now).2 }

/-- What a caller sees whose call would move the clock past the end of time. -/
def clockOverrun : String := "`DateTime + TimeDelta` overflowed"

/-- The end of a scripted call, after its sleep. -/
def endTurn {α : Type} (t : Turn α) (e : Engine) : α × Engine :=
  (t.reply, if t.reclaims then e.reclaimQuietly else e)

/-- Plays one entry of a script. -/
def play {α : Type} (t : Turn α) (overrun : α) (e : Engine) : Performed α :=
  match (match t.advance with | some d => e.advance? d | none => some e) with
  | none => .reply overrun e
  | some e =>
    match t.sleepMs with
    | some ms => .wait ⟨e.sleptMs + ms, false, false, none⟩ (fun _ e => endTurn t e) e
    | none => replied (endTurn t e)

/-- Calls the adapter for an intent. -/
def callAdapter (i : Intent) (e : Engine) : Performed AdapterReply :=
  let e := if e.surroundings.isScripted i then { e with calls := e.calls ++ [i] } else e
  let (t, s) := e.surroundings.takeAdapter i
  play t (.crashed clockOverrun) { e with surroundings := s }

def materialize (i : Intent) (e : Engine) : Performed ContentReply :=
  let (t, s) := e.surroundings.takeMaterializer i
  play t .crashed { e with surroundings := s }

/-- Hands an envelope to the producer. -/
def applyEnvelope (x : Envelope) (e : Engine) : Except Failure Unit × Engine :=
  let (takes, s) := e.surroundings.takeProducer
  let e := { e with surroundings := s }
  if takes then (.ok (), { e with taken := e.taken ++ [x] })
  else (.error (.error .producerUnavailable), e)

def leaseJobs (worker : String) (batch : Nat) (visibility : Span) :
    Engine → Except Failure (List Job) × Engine :=
  call .leaseJobs (if batch = 0 then .ok [] else offline) fun e =>
    let (jobs, q) := e.queue.lease worker batch visibility e.now
    (.ok jobs, { e with queue := q })

def renewLease (job : JobId) (worker : String) (visibility : Span) :
    Engine → Except Failure Timestamp × Engine :=
  call .renewLease offline fun e => e.onQueue (Queue.heartbeat job worker visibility e.now)

def completeJob (job : JobId) (worker : String) : Engine → Except Failure Unit × Engine :=
  call .completeJob offline fun e => e.updateQueue (Queue.complete job worker e.now)

def releaseJob (job : JobId) (worker : String) (availableAt : Timestamp) (reason : String)
    (refund : Bool) : Engine → Except Failure Unit × Engine :=
  call .releaseJob offline fun e =>
    e.updateQueue (Queue.release job worker availableAt reason refund e.now)

def deadLetterJob (job : JobId) (worker : String) (entry : DlqState) (reason : String) :
    Engine → Except Failure Unit × Engine :=
  call .deadLetterJob offline fun e =>
    e.updateQueue (Queue.moveToDlq job worker entry reason e.now)

def reclaimJobs : Engine → Except Failure Nat × Engine :=
  call .reclaimJobs offline fun e =>
    let (n, q) := e.queue.reclaim e.now
    (.ok n, { e with queue := q })

def pruneJobs (cutoff : Timestamp) : Engine → Except Failure Nat × Engine :=
  call .pruneJobs offline fun e =>
    let (n, q) := e.queue.prune cutoff
    (.ok n, { e with queue := q })

def beginAttempt (key : String) : Engine → Except Failure Beginning × Engine :=
  call .beginAttempt offline fun e =>
    let (b, log) := AttemptLog.begin e.config.attempts.staleAfter key e.now e.attempts
    (.ok b, { e with attempts := log })

def completeAttempt (key : String) (metadata : Json) : Engine → Except Failure Unit × Engine :=
  call .completeAttempt offline fun e =>
    (.ok (), { e with attempts := AttemptLog.complete key metadata e.now e.attempts })

def clearAttempt (key : String) : Engine → Except Failure Unit × Engine :=
  call .clearAttempt offline fun e =>
    (.ok (), { e with attempts := AttemptLog.clear key e.attempts })

/-- Stores an envelope under a new id. -/
def appendEnvelope (x : Envelope) : Engine → Except Failure Bool × Engine :=
  call .appendEnvelope offline fun e =>
    let (id, e) := e.drawId
    let (isNew, inbox) := e.inbox.append ⟨id⟩ x
    (.ok isNew, { e with inbox := inbox })

def leaseEnvelopes (consumer : String) (batch : Nat) (visibility : Span) :
    Engine → Except Failure (List InboxRecord) × Engine :=
  call .leaseEnvelopes offline fun e =>
    let (records, inbox) := e.inbox.lease consumer batch visibility e.now
    (.ok records, { e with inbox := inbox })

def ackEnvelope (id : EnvelopeId) (consumer : String) : Engine → Except Failure Unit × Engine :=
  call .ackEnvelope offline fun e =>
    match e.inbox.ack id consumer with
    | .ok inbox => (.ok (), { e with inbox := inbox })
    | .error x => (.error x, e)

def reclaimEnvelopes : Engine → Except Failure Nat × Engine :=
  call .reclaimEnvelopes offline fun e =>
    let (n, inbox) := e.inbox.reclaim e.now
    (.ok n, { e with inbox := inbox })

def pruneEnvelopes (cutoff : Timestamp) : Engine → Except Failure Nat × Engine :=
  call .pruneEnvelopes offline fun e =>
    let (n, inbox) := e.inbox.prune cutoff
    (.ok n, { e with inbox := inbox })

def beat (worker status : String) : Engine → Except Failure Unit × Engine :=
  call .beat offline fun e =>
    (.ok (), { e with liveness := Liveness.beat worker status e.now e.liveness })

def lastBeat (worker : String) : Engine → Except Failure (Option Beat) × Engine :=
  call .lastBeat offline fun e => (.ok (Table.get? e.liveness worker), e)

def requestPassage (route : String) (e : Engine) : Passage × Engine :=
  let (p, b) := e.breaker.request e.config.circuit route e.now
  (p, { e with breaker := b })

def requestRoom (route : String) (now : Timestamp) (e : Engine) : RateDecision × Engine :=
  let (d, l) := e.limiter.request e.config.rateLimit route now
  (d, { e with limiter := l })

/-- The middle of the band, from which delays before another attempt are taken. -/
def middleUnit : Float := 0.5

/-- Performs one action. -/
def perform : (a : Action) → Engine → Performed a.Reply
  | .readClock, e => .reply e.now e
  | .beat worker status, e => replied (e.beat worker status)
  | .lastBeat worker, e => replied (e.lastBeat worker)
  | .leaseJobs worker batch visibility, e => replied (e.leaseJobs worker batch visibility)
  | .renewLease job worker visibility, e => replied (e.renewLease job worker visibility)
  | .completeJob job worker, e => replied (e.completeJob job worker)
  | .releaseJob job worker availableAt reason refund, e =>
    replied (e.releaseJob job worker availableAt reason refund)
  | .deadLetterJob job worker entry reason, e => replied (e.deadLetterJob job worker entry reason)
  | .reclaimJobs, e => replied e.reclaimJobs
  | .pruneJobs cutoff, e => replied (e.pruneJobs cutoff)
  | .beginAttempt key, e => replied (e.beginAttempt key)
  | .completeAttempt key metadata, e => replied (e.completeAttempt key metadata)
  | .clearAttempt key, e => replied (e.clearAttempt key)
  | .appendEnvelope x, e => replied (e.appendEnvelope x)
  | .leaseEnvelopes consumer batch visibility, e =>
    replied (e.leaseEnvelopes consumer batch visibility)
  | .ackEnvelope id consumer, e => replied (e.ackEnvelope id consumer)
  | .reclaimEnvelopes, e => replied e.reclaimEnvelopes
  | .pruneEnvelopes cutoff, e => replied (e.pruneEnvelopes cutoff)
  | .requestPassage route, e => replied (e.requestPassage route)
  | .cancelTrial route, e => .reply () { e with breaker := e.breaker.cancelTrial route }
  | .circuitSuccess route, e =>
    .reply () { e with breaker := e.breaker.success e.config.circuit route e.now }
  | .circuitFailure route, e =>
    .reply () { e with breaker := e.breaker.failure e.config.circuit route e.now }
  | .requestRoom route now, e => replied (e.requestRoom route now)
  | .refundRoom route taken, e =>
    .reply () { e with limiter := e.limiter.refund e.config.rateLimit route taken }
  | .pacingWait route lag now, e =>
    .reply (Pacing.wait e.config.pacing route lag now e.pacing) e
  | .pacingSend route now, e => .reply () { e with pacing := Pacing.recordSend route now e.pacing }
  | .pacingSuccess route, e =>
    .reply () { e with pacing := Pacing.recordSuccess e.config.pacing route e.pacing }
  | .pacingFailure route o, e =>
    .reply () { e with pacing := Pacing.recordFailure e.config.pacing route o e.pacing }
  | .drawUnit, e => .reply middleUnit e
  | .materialize i, e => e.materialize i
  | .callAdapter i, e => e.callAdapter i
  | .applyEnvelope x, e => replied (e.applyEnvelope x)
  | .noteDelivery latencyMs violated, e =>
    .reply () { e with stats := e.stats.noteDelivery latencyMs violated }
  | .noteApplyFailure, e => .reply () { e with stats := e.stats.noteFailure }
  | .wakeDispatcher, e => .reply () { e with noticed := true }
  | .emit n, e => .reply () (e.emit n)
  | .workerIds, e => .reply (e.slots.map Slot.worker) e
  | .restartDead, e => replied e.restartDead
  | .isShutDown, e => .reply e.isShutDown e
  | .pause ms, e => e.waitFor ms true false none
  | .pauseForEnvelope ms, e => e.waitFor ms true true none
  | .join task ms, e => e.waitFor ms false false (some task)
  | .sleep ms, e => e.waitFor ms false false none

end Engine

end Courier
