import Courier.Config
import Courier.Outcome.Codec
import Courier.Table

/-!
The inbox that carries envelopes to the producer. It takes one envelope per job, leases envelopes
oldest first, and forgets them some time after they were acknowledged.
-/

namespace Courier

inductive InboxState where
  | pending
  | leased
  | acked
deriving DecidableEq, Inhabited

namespace InboxState

def name : InboxState → String
  | pending => "pending"
  | leased => "leased"
  | acked => "acked"

def all : List InboxState := [pending, leased, acked]

def ofName? (s : String) : Option InboxState := all.find? fun x => x.name = s

def toJson (s : InboxState) : Json := .str s.name

def read : Json → Reading InboxState := Json.readName (all.map fun s => (s.name, s))

end InboxState

/-- A stored envelope and the state of its delivery. -/
structure InboxRecord where
  id : EnvelopeId
  envelope : Envelope
  state : InboxState
  leasedBy : Option String
  leaseUntil : Option Timestamp
  deliveryCount : Nat

namespace InboxRecord

def toJson (r : InboxRecord) : Json :=
  Json.sorted
    [("id", r.id.toJson), ("envelope", r.envelope.toJson), ("state", r.state.toJson),
      ("leased_by", Json.ofOption .str r.leasedBy),
      ("lease_until", Json.ofOption Timestamp.toJson r.leaseUntil),
      ("delivery_count", Json.ofNat r.deliveryCount)]

def read : Json → Reading InboxRecord :=
  Json.readRecord ["id", "envelope", "state", "leased_by", "lease_until", "delivery_count"]
    fun f =>
      InboxRecord.mk <$> f.required "id" EnvelopeId.read <*> f.required "envelope" Envelope.read
        <*> f.required "state" InboxState.read <*> f.optional "leased_by" Json.readString?
        <*> f.optional "lease_until" Timestamp.read
        <*> f.required "delivery_count" Json.readU32

end InboxRecord

structure Inbox where
  records : Table EnvelopeId InboxRecord
  /-- The jobs that have an envelope here. -/
  seen : List JobId

namespace Inbox

def empty : Inbox := ⟨.empty, []⟩

/-- Stores an envelope under `id`, unless the job already has one; tells whether it did. -/
def append (id : EnvelopeId) (e : Envelope) (s : Inbox) : Bool × Inbox :=
  if e.jobId ∈ s.seen then (false, s)
  else
    (true, ⟨s.records.insert id ⟨id, e, .pending, none, none, 0⟩, s.seen ++ [e.jobId]⟩)

def isPending (r : InboxRecord) : Bool := r.state = .pending

/-- Whether `a` is delivered before `b`. -/
def goesBefore (a b : InboxRecord) : Bool :=
  if a.envelope.receivedAt ≠ b.envelope.receivedAt then
    a.envelope.receivedAt < b.envelope.receivedAt
  else a.id ≤ b.id

/-- Envelopes that wait for delivery, oldest first. -/
def pending (s : Inbox) : List InboxRecord := (s.records.values.filter isPending).mergeSort goesBefore

/-- A record in the hands of a consumer. -/
def leaseTo (consumer : String) (until_ : Timestamp) (r : InboxRecord) : InboxRecord :=
  { r with
    state := .leased
    leasedBy := some consumer
    leaseUntil := some until_
    deliveryCount := successor32 r.deliveryCount }

def put (r : InboxRecord) (s : Inbox) : Inbox := { s with records := s.records.insert r.id r }

def lease (consumer : String) (batch : Nat) (visibility : Span) (now : Timestamp) (s : Inbox) :
    List InboxRecord × Inbox :=
  let leased := (s.pending.take batch).map (leaseTo consumer (now.add visibility))
  (leased, leased.foldl (fun s r => s.put r) s)

/-- Marks a leased envelope as delivered. -/
def ack (id : EnvelopeId) (consumer : String) (s : Inbox) : Except Error Inbox :=
  match s.records.get? id with
  | none => .error (.unknownEnvelope id)
  | some r =>
    if r.state = .leased ∧ r.leasedBy = some consumer then
      .ok (s.put { r with state := .acked, leasedBy := none, leaseUntil := none })
    else .error (.envelopeNotLeasedBy id consumer)

def isExpired (now : Timestamp) (r : InboxRecord) : Bool :=
  r.state = .leased && r.leaseUntil.any fun t => t ≤ now

def requeue (r : InboxRecord) : InboxRecord :=
  { r with state := .pending, leasedBy := none, leaseUntil := none }

/-- Takes back envelopes whose lease has run out, and counts them. -/
def reclaim (now : Timestamp) (s : Inbox) : Nat × Inbox :=
  ((s.records.values.filter (isExpired now)).length,
    { s with
      records := s.records.mapValues fun _ r => if isExpired now r then requeue r else r })

def isPrunable (cutoff : Timestamp) (r : InboxRecord) : Bool :=
  r.state = .acked && r.envelope.receivedAt < cutoff

/-- Forgets acknowledged envelopes received before `cutoff`, and counts them. -/
def prune (cutoff : Timestamp) (s : Inbox) : Nat × Inbox :=
  let gone := s.records.values.filter (isPrunable cutoff)
  (gone.length,
    ⟨s.records.filter fun _ r => !isPrunable cutoff r,
      s.seen.filter fun id => !gone.any fun r => r.envelope.jobId = id⟩)

/-- Envelopes not acknowledged yet. -/
def depth (s : Inbox) : Nat := (s.records.values.filter fun r => r.state ≠ .acked).length

/-- Whether `a` is listed before `b`: the older first, then by job. -/
def listedBefore (a b : Envelope) : Bool :=
  if a.receivedAt ≠ b.receivedAt then a.receivedAt < b.receivedAt else a.jobId ≤ b.jobId

/-- All stored envelopes, oldest first. -/
def envelopes (s : Inbox) : List Envelope :=
  (s.records.values.map InboxRecord.envelope).mergeSort listedBefore

def describe (s : Inbox) : String :=
  Diagnostic.record "InMemoryResultInbox" [("records", natText s.records.size)]

end Inbox

end Courier
