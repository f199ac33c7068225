import Courier.Adapter
import Courier.Time.Basic

/-!
The surroundings of an engine, as scripts. A script holds one entry per call and says what the
call meets; when it has run out, calls simply succeed.
-/

namespace Courier

/-- The stores that an engine works on. -/
inductive Store where
  | queue
  | inbox
  | attempts
  | beats
deriving DecidableEq

namespace Store

def name : Store → String
  | queue => "queue"
  | inbox => "inbox"
  | attempts => "idempotency"
  | beats => "heartbeats"

def all : List Store := [queue, inbox, attempts, beats]

def ofName? (s : String) : Option Store := all.find? fun x => x.name = s

end Store

/-- The store calls that can be made to go wrong. -/
inductive StoreCall where
  | enqueue
  | leaseJobs
  | renewLease
  | completeJob
  | releaseJob
  | deadLetterJob
  | reclaimJobs
  | pruneJobs
  | appendEnvelope
  | leaseEnvelopes
  | ackEnvelope
  | reclaimEnvelopes
  | pruneEnvelopes
  | beginAttempt
  | completeAttempt
  | clearAttempt
  | beat
  | lastBeat
deriving DecidableEq

namespace StoreCall

def store : StoreCall → Store
  | enqueue | leaseJobs | renewLease | completeJob | releaseJob | deadLetterJob | reclaimJobs
  | pruneJobs => .queue
  | appendEnvelope | leaseEnvelopes | ackEnvelope | reclaimEnvelopes | pruneEnvelopes => .inbox
  | beginAttempt | completeAttempt | clearAttempt => .attempts
  | beat | lastBeat => .beats

def verb : StoreCall → String
  | enqueue => "enqueue"
  | leaseJobs => "lease"
  | renewLease => "heartbeat"
  | completeJob => "ack_success"
  | releaseJob => "release"
  | deadLetterJob => "move_to_dlq"
  | reclaimJobs => "reclaim_expired"
  | pruneJobs => "prune_completed"
  | appendEnvelope => "append"
  | leaseEnvelopes => "lease"
  | ackEnvelope => "ack"
  | reclaimEnvelopes => "reclaim_expired"
  | pruneEnvelopes => "prune_acked"
  | beginAttempt => "begin"
  | completeAttempt => "complete"
  | clearAttempt => "clear_in_progress"
  | beat => "beat"
  | lastBeat => "get"

def name (c : StoreCall) : String := c.store.name ++ "." ++ c.verb

def all : List StoreCall :=
  [enqueue, leaseJobs, renewLease, completeJob, releaseJob, deadLetterJob, reclaimJobs, pruneJobs,
    appendEnvelope, leaseEnvelopes, ackEnvelope, reclaimEnvelopes, pruneEnvelopes, beginAttempt,
    completeAttempt, clearAttempt, beat, lastBeat]

def ofName? (s : String) : Option StoreCall := all.find? fun x => x.name = s

end StoreCall

/-- What a store call meets before it reaches the store. -/
inductive Fault where
  | none
  | fail
  | lost
  | crash
deriving DecidableEq

namespace Fault

def name : Fault → String
  | none => "ok"
  | fail => "fail"
  | lost => "lost"
  | crash => "panic"

def all : List Fault := [none, fail, lost, crash]

def ofName? (s : String) : Option Fault := all.find? fun x => x.name = s

end Fault

/-- One entry of a script: how long the call takes, whether leases that have run out are taken
back meanwhile, and the answer. -/
structure Turn (α : Type) where
  /-- How far the clock is moved. -/
  advance : Option Span
  /-- How long the caller sleeps, in milliseconds. -/
  sleepMs : Option Nat
  reclaims : Bool
  reply : α

/-- A call that is answered at once. -/
def Turn.atOnce {α : Type} (reply : α) : Turn α := ⟨none, none, false, reply⟩

/-- What answers for a platform. -/
inductive Connection where
  | scripted (turns : List (Turn AdapterReply))
  | dryRun

structure Surroundings where
  /-- By platform, in the order of their names. -/
  connections : List (String × Connection)
  materializer : Option (List (Turn ContentReply))
  /-- For each envelope, whether the producer takes it. -/
  producer : List Bool
  faults : List (StoreCall × List Fault)

namespace Surroundings

def quiet : Surroundings := ⟨[], none, [], []⟩

def platforms (s : Surroundings) : List String := s.connections.map Prod.fst

/-- Connects a platform; an earlier connection is replaced. -/
def connect (platform : String) (c : Connection) (s : Surroundings) : Surroundings :=
  let rec go : List (String × Connection) → List (String × Connection)
    | [] => [(platform, c)]
    | (p, c') :: rest =>
      if platform = p then (p, c) :: rest
      else if platform < p then (platform, c) :: (p, c') :: rest
      else (p, c') :: go rest
  { s with connections := go s.connections }

/-- Surroundings with platforms that are served without effect. -/
def ofPlatforms (platforms : List String) : Surroundings :=
  platforms.foldl (fun s p => s.connect p .dryRun) quiet

/-- The next entry for a store call. -/
def takeFault (c : StoreCall) (s : Surroundings) : Fault × Surroundings :=
  match s.faults.lookup c with
  | some (f :: rest) =>
    (f, { s with faults := s.faults.map fun (c', fs) => if c' = c then (c', rest) else (c', fs) })
  | _ => (.none, s)

/-- Writes a new script for a store call. -/
def setFaults (c : StoreCall) (fs : List Fault) (s : Surroundings) : Surroundings :=
  { s with faults := (c, fs) :: s.faults.filter fun (c', _) => c' ≠ c }

/-- The next entry for an envelope. -/
def takeProducer (s : Surroundings) : Bool × Surroundings :=
  match s.producer with
  | takes :: rest => (takes, { s with producer := rest })
  | [] => (true, s)

/-- The next entry of the adapter for an intent. -/
def takeAdapter (i : Intent) (s : Surroundings) : Turn AdapterReply × Surroundings :=
  match s.connections.lookup i.platform with
  | none => (.atOnce .noAdapter, s)
  | some .dryRun => (.atOnce (.outcome (dryRun i.platform i)), s)
  | some (.scripted []) => (.atOnce (.outcome .success), s)
  | some (.scripted (t :: rest)) =>
    (t, { s with
      connections := s.connections.map fun (p, c) =>
        if p = i.platform then (p, .scripted rest) else (p, c) })

/-- Whether calls for an intent go to a script. -/
def isScripted (i : Intent) (s : Surroundings) : Bool :=
  match s.connections.lookup i.platform with
  | some (.scripted _) => true
  | _ => false

/-- The next entry of the materializer. -/
def takeMaterializer (i : Intent) (s : Surroundings) : Turn ContentReply × Surroundings :=
  match s.materializer with
  | none => (.atOnce .noMaterializer, s)
  | some [] => (.atOnce (.payload i.payload), s)
  | some (t :: rest) => (t, { s with materializer := some rest })

end Surroundings

end Courier
