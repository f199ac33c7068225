import Courier.Time.Basic
import Courier.Json.Reading
import Courier.Text.Diagnostic
import Courier.Number.FloatText

/-!
The knobs of the runtime, by section. A document may leave out any section and any field of one;
what it leaves out keeps its usual value.
-/

namespace Courier

open Json

def floatText (x : Float) : String := FloatLayout.diagnostic.text x

def intText (n : Int) : String := String.ofList (Decimal.ofInt n)

def natText (n : Nat) : String := String.ofList (Decimal.ofNat n)

/-- Leases on jobs and the rhythm of the worker loops. -/
structure LeaseConfig where
  visibilityTimeoutSecs : Int := 60
  batchSize : Nat := 8
  idlePollMs : Nat := 250
  errorBackoffMs : Nat := 1000
  housekeeperIntervalMs : Nat := 15000
  retentionSecs : Int := 86400
deriving DecidableEq, Inhabited

namespace LeaseConfig

def visibilityTimeout (c : LeaseConfig) : Span := Span.ofSeconds c.visibilityTimeoutSecs

def retention (c : LeaseConfig) : Span := Span.ofSeconds c.retentionSecs

def read : Json → Reading LeaseConfig :=
  readRecord ["visibility_timeout_secs", "batch_size", "idle_poll_ms", "error_backoff_ms",
      "housekeeper_interval_ms", "retention_secs"] fun f =>
    LeaseConfig.mk <$> f.orElse "visibility_timeout_secs" 60 readI64
      <*> f.orElse "batch_size" 8 readU64 <*> f.orElse "idle_poll_ms" 250 readU64
      <*> f.orElse "error_backoff_ms" 1000 readU64
      <*> f.orElse "housekeeper_interval_ms" 15000 readU64
      <*> f.orElse "retention_secs" 86400 readI64

def toJson (c : LeaseConfig) : Json :=
  sorted
    [("visibility_timeout_secs", .int c.visibilityTimeoutSecs), ("batch_size", ofNat c.batchSize),
      ("idle_poll_ms", ofNat c.idlePollMs), ("error_backoff_ms", ofNat c.errorBackoffMs),
      ("housekeeper_interval_ms", ofNat c.housekeeperIntervalMs),
      ("retention_secs", .int c.retentionSecs)]

def describe (c : LeaseConfig) : String :=
  Diagnostic.record "LeaseConfig"
    [("visibility_timeout_secs", intText c.visibilityTimeoutSecs),
      ("batch_size", natText c.batchSize), ("idle_poll_ms", natText c.idlePollMs),
      ("error_backoff_ms", natText c.errorBackoffMs),
      ("housekeeper_interval_ms", natText c.housekeeperIntervalMs),
      ("retention_secs", intText c.retentionSecs)]

end LeaseConfig

/-- Delays before another attempt: they grow by `factor` up to a cap and are spread by a share of
their length either way. -/
structure RetryConfig (F : Type) where
  maxAttempts : Nat
  baseDelayMs : Nat
  factor : F
  maxDelayMs : Nat
  jitterRatio : F
  minDelayMs : Nat

namespace RetryConfig

def usual : RetryConfig Float := ⟨5, 2000, 2.0, 300000, 0.2, 100⟩

def read : Json → Reading (RetryConfig Float) :=
  readRecord ["max_attempts", "base_delay_ms", "factor", "max_delay_ms", "jitter_ratio",
      "min_delay_ms"] fun f =>
    RetryConfig.mk <$> f.orElse "max_attempts" usual.maxAttempts readU32
      <*> f.orElse "base_delay_ms" usual.baseDelayMs readU64
      <*> f.orElse "factor" usual.factor readFloat
      <*> f.orElse "max_delay_ms" usual.maxDelayMs readU64
      <*> f.orElse "jitter_ratio" usual.jitterRatio readFloat
      <*> f.orElse "min_delay_ms" usual.minDelayMs readU64

def toJson (c : RetryConfig Float) : Json :=
  sorted
    [("max_attempts", ofNat c.maxAttempts), ("base_delay_ms", ofNat c.baseDelayMs),
      ("factor", ofFloat c.factor), ("max_delay_ms", ofNat c.maxDelayMs),
      ("jitter_ratio", ofFloat c.jitterRatio), ("min_delay_ms", ofNat c.minDelayMs)]

def describe (c : RetryConfig Float) : String :=
  Diagnostic.record "RetryConfig"
    [("max_attempts", natText c.maxAttempts), ("base_delay_ms", natText c.baseDelayMs),
      ("factor", floatText c.factor), ("max_delay_ms", natText c.maxDelayMs),
      ("jitter_ratio", floatText c.jitterRatio), ("min_delay_ms", natText c.minDelayMs)]

end RetryConfig

/-- When a route is cut off, and how it comes back. -/
structure CircuitConfig where
  failureThreshold : Nat := 3
  windowSecs : Int := 30
  cooldownSecs : Int := 60
  /-- Trial successes in a row that close the circuit. -/
  halfOpenSuccessThreshold : Nat := 2
  /-- A trial that has not reported for this long is presumed lost. -/
  trialTimeoutSecs : Int := 300
  deferralMs : Nat := 5000
deriving DecidableEq, Inhabited

namespace CircuitConfig

def read : Json → Reading CircuitConfig :=
  readRecord ["failure_threshold", "window_secs", "cooldown_secs", "half_open_success_threshold",
      "trial_timeout_secs", "deferral_ms"] fun f =>
    CircuitConfig.mk <$> f.orElse "failure_threshold" 3 readU64
      <*> f.orElse "window_secs" 30 readI64 <*> f.orElse "cooldown_secs" 60 readI64
      <*> f.orElse "half_open_success_threshold" 2 readU32
      <*> f.orElse "trial_timeout_secs" 300 readI64 <*> f.orElse "deferral_ms" 5000 readU64

def toJson (c : CircuitConfig) : Json :=
  sorted
    [("failure_threshold", ofNat c.failureThreshold), ("window_secs", .int c.windowSecs),
      ("cooldown_secs", .int c.cooldownSecs),
      ("half_open_success_threshold", ofNat c.halfOpenSuccessThreshold),
      ("trial_timeout_secs", .int c.trialTimeoutSecs), ("deferral_ms", ofNat c.deferralMs)]

def describe (c : CircuitConfig) : String :=
  Diagnostic.record "CircuitBreakerConfig"
    [("failure_threshold", natText c.failureThreshold), ("window_secs", intText c.windowSecs),
      ("cooldown_secs", intText c.cooldownSecs),
      ("half_open_success_threshold", natText c.halfOpenSuccessThreshold),
      ("trial_timeout_secs", intText c.trialTimeoutSecs), ("deferral_ms", natText c.deferralMs)]

end CircuitConfig

/-- At most `maxEvents` in any `windowSecs`. -/
structure WindowLimit where
  maxEvents : Nat
  windowSecs : Int
deriving DecidableEq, Inhabited

namespace WindowLimit

def window (l : WindowLimit) : Span := Span.ofSeconds l.windowSecs

def read : Json → Reading WindowLimit :=
  readRecord ["max_events", "window_secs"] fun f =>
    WindowLimit.mk <$> f.required "max_events" readU64 <*> f.required "window_secs" readI64

def toJson (l : WindowLimit) : Json :=
  sorted [("max_events", ofNat l.maxEvents), ("window_secs", .int l.windowSecs)]

def describe (l : WindowLimit) : String :=
  Diagnostic.record "WindowLimit"
    [("max_events", natText l.maxEvents), ("window_secs", intText l.windowSecs)]

end WindowLimit

structure RateLimitConfig where
  /-- Across all routes; no such limit when `none`. -/
  overall : Option WindowLimit := some ⟨600, 60⟩
  /-- For each route without a limit of its own. -/
  perRoute : Option WindowLimit := some ⟨30, 60⟩
  routeOverrides : List (String × WindowLimit) := []
deriving DecidableEq, Inhabited

namespace RateLimitConfig

/-- The limit of one route. -/
def forRoute (c : RateLimitConfig) (route : String) : Option WindowLimit :=
  match c.routeOverrides.lookup route with
  | some l => some l
  | none => c.perRoute

def read : Json → Reading RateLimitConfig :=
  readRecord ["global", "per_route", "route_overrides"] fun f =>
    RateLimitConfig.mk <$> f.orElse "global" (some ⟨600, 60⟩) (readOption WindowLimit.read)
      <*> f.orElse "per_route" (some ⟨30, 60⟩) (readOption WindowLimit.read)
      <*> f.orElse "route_overrides" [] (readMap WindowLimit.read)

def toJson (c : RateLimitConfig) : Json :=
  sorted
    [("global", ofOption WindowLimit.toJson c.overall),
      ("per_route", ofOption WindowLimit.toJson c.perRoute),
      ("route_overrides", .obj (c.routeOverrides.map fun (k, l) => (k, l.toJson)))]

def describe (c : RateLimitConfig) : String :=
  Diagnostic.record "RateLimitConfig"
    [("global", Diagnostic.option (c.overall.map WindowLimit.describe)),
      ("per_route", Diagnostic.option (c.perRoute.map WindowLimit.describe)),
      ("route_overrides",
        Diagnostic.map (c.routeOverrides.map fun (k, l) => (Diagnostic.quoted k, l.describe)))]

end RateLimitConfig

/-- Spacing of sends while the far side shows pressure. -/
structure PacingConfig (F : Type) where
  stepSecs : F
  multiplier : F
  maxDelaySecs : F
  lagPenaltyPerSec : F
  /-- Words in a failure's reason that mark it as pressure, in either case. -/
  pressureSignatures : List String

namespace PacingConfig

def usualSignatures : List String :=
  ["rate limit", "rate-limit", "too many requests", "429", "500", "502", "503", "504",
    "server error", "unavailable"]

def usual : PacingConfig Float := ⟨1.0, 0.5, 120.0, 0.01, usualSignatures⟩

def read : Json → Reading (PacingConfig Float) :=
  readRecord ["step_secs", "multiplier", "max_delay_secs", "lag_penalty_per_sec",
      "pressure_signatures"] fun f =>
    PacingConfig.mk <$> f.orElse "step_secs" usual.stepSecs readFloat
      <*> f.orElse "multiplier" usual.multiplier readFloat
      <*> f.orElse "max_delay_secs" usual.maxDelaySecs readFloat
      <*> f.orElse "lag_penalty_per_sec" usual.lagPenaltyPerSec readFloat
      <*> f.orElse "pressure_signatures" usualSignatures (readList readString?)

def toJson (c : PacingConfig Float) : Json :=
  sorted
    [("step_secs", ofFloat c.stepSecs), ("multiplier", ofFloat c.multiplier),
      ("max_delay_secs", ofFloat c.maxDelaySecs),
      ("lag_penalty_per_sec", ofFloat c.lagPenaltyPerSec),
      ("pressure_signatures", .arr (c.pressureSignatures.map Json.str))]

def describe (c : PacingConfig Float) : String :=
  Diagnostic.record "AdaptiveConfig"
    [("step_secs", floatText c.stepSecs), ("multiplier", floatText c.multiplier),
      ("max_delay_secs", floatText c.maxDelaySecs),
      ("lag_penalty_per_sec", floatText c.lagPenaltyPerSec),
      ("pressure_signatures", Diagnostic.list (c.pressureSignatures.map Diagnostic.quoted))]

end PacingConfig

/-- Attempts whose outcome is not known yet. -/
structure AttemptConfig where
  /-- An attempt under way for longer than this has an unknown outcome. -/
  staleAfterSecs : Int := 900
  inProgressDeferralMs : Nat := 10000
deriving DecidableEq, Inhabited

namespace AttemptConfig

def staleAfter (c : AttemptConfig) : Span := Span.ofSeconds c.staleAfterSecs

def read : Json → Reading AttemptConfig :=
  readRecord ["stale_after_secs", "in_progress_deferral_ms"] fun f =>
    AttemptConfig.mk <$> f.orElse "stale_after_secs" 900 readI64
      <*> f.orElse "in_progress_deferral_ms" 10000 readU64

def toJson (c : AttemptConfig) : Json :=
  sorted
    [("stale_after_secs", .int c.staleAfterSecs),
      ("in_progress_deferral_ms", ofNat c.inProgressDeferralMs)]

def describe (c : AttemptConfig) : String :=
  Diagnostic.record "IdempotencyConfig"
    [("stale_after_secs", intText c.staleAfterSecs),
      ("in_progress_deferral_ms", natText c.inProgressDeferralMs)]

end AttemptConfig

/-- Delivery of results to the producer. -/
structure DispatcherConfig where
  batchSize : Nat := 32
  visibilityTimeoutSecs : Int := 30
  pollIntervalMs : Nat := 2000
  /-- The longest acceptable time from a result to its application. -/
  slaMs : Int := 5000
deriving DecidableEq, Inhabited

namespace DispatcherConfig

def visibilityTimeout (c : DispatcherConfig) : Span := Span.ofSeconds c.visibilityTimeoutSecs

def read : Json → Reading DispatcherConfig :=
  readRecord ["batch_size", "visibility_timeout_secs", "poll_interval_ms", "sla_ms"] fun f =>
    DispatcherConfig.mk <$> f.orElse "batch_size" 32 readU64
      <*> f.orElse "visibility_timeout_secs" 30 readI64
      <*> f.orElse "poll_interval_ms" 2000 readU64 <*> f.orElse "sla_ms" 5000 readI64

def toJson (c : DispatcherConfig) : Json :=
  sorted
    [("batch_size", ofNat c.batchSize), ("visibility_timeout_secs", .int c.visibilityTimeoutSecs),
      ("poll_interval_ms", ofNat c.pollIntervalMs), ("sla_ms", .int c.slaMs)]

def describe (c : DispatcherConfig) : String :=
  Diagnostic.record "DispatcherConfig"
    [("batch_size", natText c.batchSize),
      ("visibility_timeout_secs", intText c.visibilityTimeoutSecs),
      ("poll_interval_ms", natText c.pollIntervalMs), ("sla_ms", intText c.slaMs)]

end DispatcherConfig

/-- The worker pool and its supervision. -/
structure SupervisorConfig where
  workerCount : Nat := 4
  checkIntervalMs : Nat := 5000
  shutdownTimeoutMs : Nat := 30000
deriving DecidableEq, Inhabited

namespace SupervisorConfig

def read : Json → Reading SupervisorConfig :=
  readRecord ["worker_count", "check_interval_ms", "shutdown_timeout_ms"] fun f =>
    SupervisorConfig.mk <$> f.orElse "worker_count" 4 readU64
      <*> f.orElse "check_interval_ms" 5000 readU64
      <*> f.orElse "shutdown_timeout_ms" 30000 readU64

def toJson (c : SupervisorConfig) : Json :=
  sorted
    [("worker_count", ofNat c.workerCount), ("check_interval_ms", ofNat c.checkIntervalMs),
      ("shutdown_timeout_ms", ofNat c.shutdownTimeoutMs)]

def describe (c : SupervisorConfig) : String :=
  Diagnostic.record "SupervisorConfig"
    [("worker_count", natText c.workerCount), ("check_interval_ms", natText c.checkIntervalMs),
      ("shutdown_timeout_ms", natText c.shutdownTimeoutMs)]

end SupervisorConfig

structure Config where
  lease : LeaseConfig
  retry : RetryConfig Float
  circuit : CircuitConfig
  rateLimit : RateLimitConfig
  pacing : PacingConfig Float
  attempts : AttemptConfig
  dispatcher : DispatcherConfig
  supervisor : SupervisorConfig

namespace Config

def usual : Config where
  lease := {}
  retry := RetryConfig.usual
  circuit := {}
  rateLimit := {}
  pacing := PacingConfig.usual
  attempts := {}
  dispatcher := {}
  supervisor := {}

instance : Inhabited Config := ⟨usual⟩

def read : Json → Reading Config :=
  readRecord ["lease", "retry", "circuit", "rate_limit", "adaptive", "idempotency", "dispatcher",
      "supervisor"] fun f =>
    Config.mk <$> f.orElse "lease" {} LeaseConfig.read
      <*> f.orElse "retry" RetryConfig.usual RetryConfig.read
      <*> f.orElse "circuit" {} CircuitConfig.read
      <*> f.orElse "rate_limit" {} RateLimitConfig.read
      <*> f.orElse "adaptive" PacingConfig.usual PacingConfig.read
      <*> f.orElse "idempotency" {} AttemptConfig.read
      <*> f.orElse "dispatcher" {} DispatcherConfig.read
      <*> f.orElse "supervisor" {} SupervisorConfig.read

def toJson (c : Config) : Json :=
  sorted
    [("lease", c.lease.toJson), ("retry", c.retry.toJson), ("circuit", c.circuit.toJson),
      ("rate_limit", c.rateLimit.toJson), ("adaptive", c.pacing.toJson),
      ("idempotency", c.attempts.toJson), ("dispatcher", c.dispatcher.toJson),
      ("supervisor", c.supervisor.toJson)]

def describe (c : Config) : String :=
  Diagnostic.record "ExecutionConfig"
    [("lease", c.lease.describe), ("retry", c.retry.describe), ("circuit", c.circuit.describe),
      ("rate_limit", c.rateLimit.describe), ("adaptive", c.pacing.describe),
      ("idempotency", c.attempts.describe), ("dispatcher", c.dispatcher.describe),
      ("supervisor", c.supervisor.describe)]

end Config

end Courier
