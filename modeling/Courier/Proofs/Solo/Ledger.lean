import Courier.Proofs.Solo.Dispatch
import Courier.Proofs.Solo.Stock

/-! The ledger of a dispatcher's shift: what callers put into the inbox, what the producer took and
failed to take, what was acknowledged, and which loans were made and taken back. -/

namespace Courier

open Plan

/-- The record of a job's envelope. -/
def Inbox.idFor? (job : JobId) (s : Inbox) : Option EnvelopeId :=
  (s.records.values.find? fun r => r.envelope.jobId = job).map InboxRecord.id

theorem Inbox.Sound.idFor?_eq {s : Inbox} (h : s.Sound) {r : InboxRecord}
    (hr : s.records.get? r.id = some r) : s.idFor? r.envelope.jobId = some r.id := by
  cases found : s.records.values.find? fun r' => r'.envelope.jobId = r.envelope.jobId with
  | none =>
    have := List.find?_eq_none.1 found r ((Table.mem_values_iff _ _).2 ⟨_, hr⟩)
    simp at this
  | some r' =>
    obtain ⟨k, hk⟩ := (Table.mem_values_iff _ _).1 (List.mem_of_find?_eq_some found)
    have same : r'.envelope.jobId = r.envelope.jobId := by simpa using List.find?_some found
    rw [idFor?, found, Option.map_some, h.keyed k r' hk, h.single hk hr same]

/-- The account of the envelopes in a history. -/
structure Ledger where
  /-- What the inbox took in, with the ids that were given. -/
  stored : List (EnvelopeId × Envelope)
  /-- The records of the envelopes that the producer took. -/
  taken : List (Option EnvelopeId)
  acked : List EnvelopeId
  /-- How often the producer failed to take an envelope. -/
  failures : Nat
  /-- The clock as the dispatcher read it last. -/
  clock : Timestamp
  /-- How long each envelope that the producer took had been waiting when its turn came. -/
  latencies : List Int

namespace Ledger

def blank : Ledger := ⟨[], [], [], 0, .epoch, []⟩

def note (l : Ledger) (m : Moment) : Ledger :=
  match m.what with
  | .deed ⟨.appendEnvelope x, .ok true⟩ =>
    { l with stored := l.stored ++ [(⟨m.before.ids.next⟩, x)] }
  | .deed ⟨.readClock, now⟩ => { l with clock := now }
  | .deed ⟨.applyEnvelope x, .ok _⟩ =>
    { l with
      taken := l.taken ++ [m.before.inbox.idFor? x.jobId]
      latencies := l.latencies ++ [x.latencyMs l.clock] }
  | .deed ⟨.applyEnvelope _, .error _⟩ => { l with failures := l.failures + 1 }
  | .deed ⟨.ackEnvelope id _, .ok _⟩ => { l with acked := l.acked ++ [id] }
  | _ => l

end Ledger

def ledger (h : List Moment) : Ledger := h.foldl Ledger.note .blank

theorem ledger_snoc (h : List Moment) (m : Moment) : ledger (h ++ [m]) = (ledger h).note m := by
  rw [ledger, List.foldl_append]
  rfl

/-- A lease that gives out the record `id` until `t`. -/
def Moment.Lends (id : EnvelopeId) (t : Timestamp) (m : Moment) : Prop :=
  ∃ consumer batch visibility rs r,
    m.what = .deed ⟨.leaseEnvelopes consumer batch visibility, .ok rs⟩ ∧ r ∈ rs ∧ r.id = id ∧
      r.leaseUntil = some t

/-- Loans that ended at `t` are taken back. -/
def Moment.Reclaims (t : Timestamp) (m : Moment) : Prop :=
  (∃ n, m.what = .deed ⟨.reclaimEnvelopes, .ok n⟩) ∧ t ≤ m.before.now

namespace Dispatcher

/-- One dispatcher has the inbox and the figures to itself; any configuration may be in force in any
cycle. Callers put envelopes in at any time, and each gets a new id; between the cycles loans that
have run out are taken back and acknowledged envelopes forgotten. -/
def shift (consumer : String) : Shift where
  starts e := e.inbox = .empty ∧ e.stats = .zero
  cycle p := ∃ cfg, p = runCycle cfg consumer
  beside h idle e v := e.InMemory ∧
    match v with
    | .deed ⟨.appendEnvelope _, _⟩ => ⟨e.ids.next⟩ ∉ (ledger h).stored.map Prod.fst
    | .deed ⟨.reclaimEnvelopes, _⟩ | .deed ⟨.pruneEnvelopes _, _⟩ => idle = true
    | _ => False
  elsewhere e e' := e'.inbox = e.inbox ∧ e'.stats = e.stats

end Dispatcher

namespace Engine

variable {e e' : Engine}

namespace Answers

theorem appended {x : Envelope} {r : Except Failure Bool}
    (h : e.Answers (.appendEnvelope x) r e') (inMemory : e.InMemory) :
    r = .ok (e.inbox.append ⟨e.ids.next⟩ x).1 ∧
      e'.inbox = (e.inbox.append ⟨e.ids.next⟩ x).2 ∧ e'.stats = e.stats := by
  obtain ⟨rfl, rfl⟩ := inMemory.result (h.performed rfl)
  exact ⟨rfl, rfl, rfl⟩

theorem lent {consumer : String} {batch : Nat} {visibility : Span}
    {r : Except Failure (List InboxRecord)}
    (h : e.Answers (.leaseEnvelopes consumer batch visibility) r e') (inMemory : e.InMemory) :
    r = .ok (e.inbox.lease consumer batch visibility e.now).1 ∧
      e'.inbox = (e.inbox.lease consumer batch visibility e.now).2 ∧ e'.stats = e.stats := by
  obtain ⟨rfl, rfl⟩ := inMemory.result (h.performed rfl)
  exact ⟨rfl, rfl, rfl⟩

theorem acked {id : EnvelopeId} {consumer : String} {r : Except Failure Unit} {s : Inbox}
    (h : e.Answers (.ackEnvelope id consumer) r e') (inMemory : e.InMemory)
    (ok : e.inbox.ack id consumer = .ok s) :
    r = .ok () ∧ e'.inbox = s ∧ e'.stats = e.stats := by
  obtain ⟨rfl, rfl⟩ := inMemory.result (h.performed rfl)
  rw [ok]
  exact ⟨rfl, rfl, rfl⟩

theorem reclaimed {r : Except Failure Nat} (h : e.Answers .reclaimEnvelopes r e')
    (inMemory : e.InMemory) : (∃ n, r = .ok n) ∧ e'.inbox = (e.inbox.reclaim e.now).2 ∧
      e'.stats = e.stats := by
  obtain ⟨rfl, rfl⟩ := inMemory.result (h.performed rfl)
  exact ⟨⟨_, rfl⟩, rfl, rfl⟩

theorem pruned {cutoff : Timestamp} {r : Except Failure Nat}
    (h : e.Answers (.pruneEnvelopes cutoff) r e') (inMemory : e.InMemory) :
    e'.inbox = (e.inbox.prune cutoff).2 ∧ e'.stats = e.stats := by
  obtain ⟨rfl, rfl⟩ := inMemory.result (h.performed rfl)
  exact ⟨rfl, rfl⟩

/-- The producer takes an envelope or it does not; it does not crash. -/
theorem offered {x : Envelope} {r : Except Failure Unit}
    (h : e.Answers (.applyEnvelope x) r e') :
    r ≠ .error .crash ∧ e'.inbox = e.inbox ∧ e'.stats = e.stats := by
  have done := reply_inj (h.performed rfl)
  unfold applyEnvelope at done
  dsimp only at done
  split_ifs at done
  all_goals
    obtain ⟨hr, he⟩ := Prod.mk.inj done
    subst hr he
    exact ⟨nofun, rfl, rfl⟩

end Answers

end Engine

end Courier
