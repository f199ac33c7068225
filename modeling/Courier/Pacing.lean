import Courier.Config
import Courier.Number.Quantity
import Courier.Outcome.Basic
import Courier.Table

/-!
Soft spacing of the sends on a route. A failure that shows pressure on the far side lengthens the
route's delay, a success shortens it, and the delay is the least time between two sends.
-/

namespace Courier

open Quantity

/-- The state of one route. -/
structure Pace (F : Type) where
  delaySecs : F
  lastSentAt : Option Timestamp

/-- The routes with a state of their own. -/
abbrev Pacing (F : Type) := Table String (Pace F)

/-- Seconds as a span of whole milliseconds; less than none is none. -/
def Span.ofQuantity {F : Type} [Quantity F] (secs : F) : Span :=
  Span.ofMillis (nearest (mul (atLeast secs Quantity.zero) (ofInt 1000)))

namespace Pacing

variable {F : Type} [Quantity F]

/-- ASCII letters in lower case, all else as it is. -/
def lowered (s : String) : List Char :=
  s.toList.map fun c => if 'A' ≤ c && c ≤ 'Z' then Char.ofNat (c.toNat + 32) else c

/-- Whether `needle` occurs in `hay`. -/
def occursIn (needle : List Char) : List Char → Bool
  | [] => needle.isEmpty
  | c :: cs => needle.isPrefixOf (c :: cs) || occursIn needle cs

/-- Whether an outcome shows pressure: a failure of the environment whose reason carries one of
the signatures. -/
def isPressure (c : PacingConfig F) (o : Outcome) : Bool :=
  match o.reason with
  | some reason =>
    o.isEnvironmentFailure &&
      c.pressureSignatures.any fun s => occursIn (lowered s) (lowered reason)
  | none => false

def fresh : Pace F := ⟨zero, none⟩

def pace (p : Pacing F) (route : String) : Pace F := (p.get? route).getD fresh

def delay (p : Pacing F) (route : String) : F := (pace p route).delaySecs

/-- The spacing that a route asks for when its next job has waited for `lag` already. -/
def spacing (c : PacingConfig F) (delaySecs : F) (lag : Span) : F :=
  let lagSecs := div (ofInt (max lag.toMillis 0)) (ofInt 1000)
  atMost (add delaySecs (mul lagSecs c.lagPenaltyPerSec)) c.maxDelaySecs

/-- How much longer a route has to wait before the next send. -/
def Pace.wait (c : PacingConfig F) (lag : Span) (now : Timestamp) (s : Pace F) : Span :=
  if le s.delaySecs zero then .zero
  else
    match s.lastSentAt with
    | none => .zero
    | some last =>
      let readyAt := last.add (Span.ofQuantity (spacing c s.delaySecs lag))
      (readyAt.since now).orLonger .zero

def wait (c : PacingConfig F) (route : String) (lag : Span) (now : Timestamp) (p : Pacing F) :
    Span :=
  match p.get? route with
  | some s => Pace.wait c lag now s
  | none => .zero

/-- Changes the state of a route, which may be new. -/
def update (route : String) (f : Pace F → Pace F) (p : Pacing F) : Pacing F :=
  p.insert route (f (pace p route))

def recordSend (route : String) (now : Timestamp) (p : Pacing F) : Pacing F :=
  update route (fun s => { s with lastSentAt := some now }) p

def recordSuccess (c : PacingConfig F) (route : String) (p : Pacing F) : Pacing F :=
  p.modify route fun s => { s with delaySecs := atLeast (sub s.delaySecs c.stepSecs) zero }

/-- The delay after a failure that shows pressure. -/
def grown (c : PacingConfig F) (delaySecs : F) : F :=
  atLeast (atMost (add (mul delaySecs (atLeast c.multiplier zero)) c.stepSecs) c.maxDelaySecs) zero

def recordFailure (c : PacingConfig F) (route : String) (o : Outcome) (p : Pacing F) : Pacing F :=
  if isPressure c o then update route (fun s => { s with delaySecs := grown c s.delaySecs }) p
  else p

end Pacing

end Courier
