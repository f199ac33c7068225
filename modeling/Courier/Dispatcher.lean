import Courier.Worker.Cycle

/-!
The dispatcher takes envelopes from the inbox to the producer, at least once each: an envelope
that could not be applied comes again when its lease has run out.
-/

namespace Courier

/-- Figures on the delivery of envelopes. -/
structure DeliveryStats where
  applied : Nat
  violations : Nat
  applyFailures : Nat
  maxLatencyMs : Int
  lastLatencyMs : Int
deriving DecidableEq, Inhabited

namespace DeliveryStats

def zero : DeliveryStats := ⟨0, 0, 0, 0, 0⟩

/-- After an envelope was applied and acknowledged. -/
def noteDelivery (latencyMs : Int) (violated : Bool) (s : DeliveryStats) : DeliveryStats :=
  { s with
    applied := s.applied + 1
    violations := if violated then s.violations + 1 else s.violations
    maxLatencyMs := max s.maxLatencyMs latencyMs
    lastLatencyMs := latencyMs }

def noteFailure (s : DeliveryStats) : DeliveryStats :=
  { s with applyFailures := s.applyFailures + 1 }

def toJson (s : DeliveryStats) : Json :=
  Json.sorted
    [("applied", Json.ofNat s.applied), ("violations", Json.ofNat s.violations),
      ("apply_failures", Json.ofNat s.applyFailures), ("max_latency_ms", .int s.maxLatencyMs),
      ("last_latency_ms", .int s.lastLatencyMs)]

def read : Json → Reading DeliveryStats :=
  Json.readRecord ["applied", "violations", "apply_failures", "max_latency_ms", "last_latency_ms"]
    fun f =>
      DeliveryStats.mk <$> f.required "applied" Json.readU64
        <*> f.required "violations" Json.readU64 <*> f.required "apply_failures" Json.readU64
        <*> f.required "max_latency_ms" Json.readI64 <*> f.required "last_latency_ms" Json.readI64

def describe (s : DeliveryStats) : String :=
  Diagnostic.record "SlaStats"
    [("applied", natText s.applied), ("violations", natText s.violations),
      ("apply_failures", natText s.applyFailures), ("max_latency_ms", intText s.maxLatencyMs),
      ("last_latency_ms", intText s.lastLatencyMs)]

end DeliveryStats

namespace Dispatcher

open Plan

/-- Applies one envelope and acknowledges it; tells whether the producer took it. -/
def deliver (consumer : String) (record : InboxRecord) (latencyMs : Int) (violated : Bool) :
    Attempt Bool :=
  .step (.applyEnvelope record.envelope) fun
    | .error .crash => fail .crash
    | .error (.error _) => .step .noteApplyFailure fun _ => give false
    | .ok _ =>
      .step (.ackEnvelope record.id consumer) fun
        | .error e => fail e
        | .ok _ => .step (.noteDelivery latencyMs violated) fun _ => give true

/-- Delivers leased envelopes one after the other; gives the number the producer took. -/
def deliverEach (cfg : DispatcherConfig) (consumer : String) (applied : Nat) :
    List InboxRecord → Attempt Nat
  | [] => give applied
  | record :: records =>
    .step .readClock fun now =>
      let latencyMs := (now.since record.envelope.receivedAt).toMillis
      let violated := decide (cfg.slaMs < latencyMs)
      let rest : Attempt Nat :=
        andThen (deliver consumer record latencyMs violated) fun taken =>
          deliverEach cfg consumer (if taken then applied + 1 else applied) records
      if violated then
        .step (.emit (.slaViolated record.envelope.jobId latencyMs cfg.slaMs)) fun _ => rest
      else rest

/-- Takes back envelopes whose lease has run out, then delivers one batch. -/
def runCycle (cfg : DispatcherConfig) (consumer : String) : Attempt Nat :=
  .step .reclaimEnvelopes fun
    | .error e => fail e
    | .ok _ =>
      .step (.leaseEnvelopes consumer cfg.batchSize cfg.visibilityTimeout) fun
        | .error e => fail e
        | .ok records => deliverEach cfg consumer 0 records

def rest (cfg : DispatcherConfig) : Plan Round :=
  .step (.pauseForEnvelope cfg.pollIntervalMs) fun
    | .shutDown => .done .ended
    | _ => .done .again

/-- One round of the dispatcher's loop: a full batch is followed by the next at once. -/
def round (cfg : DispatcherConfig) (consumer : String) : Plan Round :=
  .step .isShutDown fun
    | true => .done .ended
    | false =>
      (runCycle cfg consumer).bind fun
        | .error .crash => .done .crashed
        | .error (.error _) => rest cfg
        | .ok n => if cfg.batchSize ≤ n ∧ 0 < n then .done .again else rest cfg

end Dispatcher

end Courier
