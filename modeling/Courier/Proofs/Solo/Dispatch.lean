import Courier.Proofs.Solo.Basic

/-! What one cycle of a dispatcher does: it takes back what has run out, leases a batch, and hands
the envelopes to the producer one after the other. An envelope that the producer takes is
acknowledged and entered into the figures before the next one has its turn. -/

namespace Courier

open Plan

/-- How long the producer has been waiting for an envelope at `now`. -/
def Envelope.latencyMs (x : Envelope) (now : Timestamp) : Int :=
  (now.since x.receivedAt).toMillis

/-- How far a dispatcher has got with its batch. -/
inductive Dispatch where
  /-- These are still to come. -/
  | batch (rs : List InboxRecord)
  /-- The turn of `r` came at `now`. -/
  | clocked (now : Timestamp) (r : InboxRecord) (rs : List InboxRecord)
  /-- The producer took it. -/
  | applied (now : Timestamp) (r : InboxRecord) (rs : List InboxRecord)
  /-- It is acknowledged. -/
  | settled (now : Timestamp) (r : InboxRecord) (rs : List InboxRecord)
  /-- The producer did not take what it was offered. -/
  | refused (rs : List InboxRecord)
  /-- The producer crashed, or an acknowledgement was refused. -/
  | lost

namespace Dispatch

/-- What comes next. -/
inductive Permits (consumer : String) : Dispatch → Action → Prop where
  | reclaim : Permits consumer (batch []) .reclaimEnvelopes
  | lease {size : Nat} {visibility : Span} :
      Permits consumer (batch []) (.leaseEnvelopes consumer size visibility)
  | readClock {r : InboxRecord} {rs : List InboxRecord} :
      Permits consumer (batch (r :: rs)) .readClock
  | emit {now : Timestamp} {r : InboxRecord} {rs : List InboxRecord} {n : Notice} :
      Permits consumer (clocked now r rs) (.emit n)
  | offer {now : Timestamp} {r : InboxRecord} {rs : List InboxRecord} :
      Permits consumer (clocked now r rs) (.applyEnvelope r.envelope)
  | ack {now : Timestamp} {r : InboxRecord} {rs : List InboxRecord} :
      Permits consumer (applied now r rs) (.ackEnvelope r.id consumer)
  | noteDelivery {now : Timestamp} {r : InboxRecord} {rs : List InboxRecord} {violated : Bool} :
      Permits consumer (settled now r rs) (.noteDelivery (r.envelope.latencyMs now) violated)
  | noteFailure {rs : List InboxRecord} : Permits consumer (refused rs) .noteApplyFailure

def after : Dispatch → Deed → Dispatch
  | batch [], ⟨.leaseEnvelopes _ _ _, .ok rs⟩ => batch rs
  | batch (r :: rs), ⟨.readClock, now⟩ => clocked now r rs
  | clocked now r rs, ⟨.applyEnvelope _, .ok _⟩ => applied now r rs
  | clocked _ _ rs, ⟨.applyEnvelope _, .error (.error _)⟩ => refused rs
  | clocked _ _ _, ⟨.applyEnvelope _, .error .crash⟩ => lost
  | applied now r rs, ⟨.ackEnvelope _ _, .ok _⟩ => settled now r rs
  | applied _ _ _, ⟨.ackEnvelope _ _, .error _⟩ => lost
  | settled _ _ rs, ⟨.noteDelivery _ _, _⟩ => batch rs
  | refused rs, ⟨.noteApplyFailure, _⟩ => batch rs
  | s, _ => s

/-- A cycle ends when the batch is delivered, or at once when something is lost. -/
def Ends {α : Type} (s : Dispatch) (_ : α) : Prop := s = batch [] ∨ s = lost

end Dispatch

/-- What `consumer` may do in a cycle. -/
def dispatch (consumer : String) : Rule Dispatch where
  allows s a := s.Permits consumer a
  after := Dispatch.after
  ends s := s = .batch [] ∨ s = .lost

namespace Dispatcher

variable {consumer : String}

theorem dispatch_deliver (now : Timestamp) (r : InboxRecord) (rs : List InboxRecord)
    (violated : Bool) : (deliver consumer r (r.envelope.latencyMs now) violated).Ensures
      (dispatch consumer)
      (fun s result => match result with
        | .ok _ => s = .batch rs
        | .error _ => s = .lost)
      (.clocked now r rs) := by
  refine ⟨.offer, fun taken => ?_⟩
  rcases taken with (_ | _) | _
  · exact ⟨.noteFailure, fun _ => rfl⟩
  · rfl
  · refine ⟨.ack, fun acked => ?_⟩
    cases acked with
    | error => rfl
    | ok => exact ⟨.noteDelivery, fun _ => rfl⟩

theorem dispatch_deliverEach (cfg : DispatcherConfig) (taken : Nat) (rs : List InboxRecord) :
    (deliverEach cfg consumer taken rs).Ensures (dispatch consumer) Dispatch.Ends (.batch rs) := by
  induction rs generalizing taken with
  | nil => exact Or.inl rfl
  | cons r rs ih =>
    refine ⟨.readClock, fun now => ?_⟩
    have onward : (andThen (deliver consumer r (r.envelope.latencyMs now)
        (cfg.slaMs < r.envelope.latencyMs now)) fun took =>
          deliverEach cfg consumer (if took then taken + 1 else taken) rs).Ensures
        (dispatch consumer) Dispatch.Ends (.clocked now r rs) := by
      refine (dispatch_deliver now r rs _).bind fun s result => ?_
      cases result with
      | error e =>
        rintro rfl
        exact Or.inr rfl
      | ok took =>
        rintro rfl
        exact ih _
    dsimp only
    split_ifs
    · exact ⟨.emit, fun _ => onward⟩
    · exact onward

/-- A cycle keeps to the rule. -/
theorem dispatch_runCycle (cfg : DispatcherConfig) (consumer : String) :
    (runCycle cfg consumer).Ensures (dispatch consumer) Dispatch.Ends (.batch []) := by
  refine ⟨.reclaim, fun reclaimed => ?_⟩
  cases reclaimed with
  | error => exact Or.inl rfl
  | ok =>
    refine ⟨.lease, fun leased => ?_⟩
    cases leased with
    | error => exact Or.inl rfl
    | ok rs => exact dispatch_deliverEach cfg 0 rs

end Dispatcher

end Courier
