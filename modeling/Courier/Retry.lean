import Courier.Config
import Courier.Number.Quantity
import Courier.Time.Basic

/-!
When a failed job is tried again. The delay grows with the attempts up to a cap and is then spread
over a band around that anchor, so that jobs that failed together do not come back together.
-/

namespace Courier.RetryConfig

open Quantity

variable {F : Type} [Quantity F]

/-- Whether the budget of attempts allows another. -/
def allowsAnother (attempts maxAttempts : Nat) : Bool := attempts < maxAttempts

/-- The middle of the band of delays after so many attempts, in milliseconds. -/
def anchor (c : RetryConfig F) (attempts : Nat) : F :=
  let steps := min (attempts - 1) (Nat.pow 2 31 - 1)
  let grown := mul (ofInt c.baseDelayMs) (pow (atLeast c.factor one) steps)
  atLeast (atMost grown (ofInt c.maxDelayMs)) zero

/-- The delay at `unit` of the way through the band, `unit` from 0 to 1. -/
def delay (c : RetryConfig F) (attempts : Nat) (unit : F) : Span :=
  let anchor := c.anchor attempts
  let span := mul anchor (between zero one c.jitterRatio)
  let spread := add (sub anchor span) (mul (mul (ofInt 2) span) (between zero one unit))
  Span.ofMillis (nearest (atLeast spread (ofInt c.minDelayMs)))

end Courier.RetryConfig
