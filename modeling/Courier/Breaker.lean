import Courier.Config
import Courier.Job.Codec
import Courier.Table

/-!
The circuit breaker, one circuit per route. Enough failures in a window open a circuit; after the
cooldown one caller at a time is let through on trial, until trials succeeded often enough to
close it or one failed and opened it again.
-/

namespace Courier

inductive CircuitState where
  | shut
  | tripped
  | halfOpen
deriving DecidableEq, Inhabited

namespace CircuitState

/-- The name in documents. -/
def tag : CircuitState → String
  | shut => "closed"
  | tripped => "open"
  | halfOpen => "half_open"

/-- The name in messages. -/
def name : CircuitState → String
  | shut => "closed"
  | tripped => "open"
  | halfOpen => "half-open"

def all : List CircuitState := [shut, tripped, halfOpen]

def toJson (s : CircuitState) : Json := .str s.tag

def read : Json → Reading CircuitState := Json.readName (all.map fun s => (s.tag, s))

end CircuitState

/-- The answer to a caller. One on trial owes the circuit a report, or the slot back. -/
inductive Passage where
  | denied
  | granted
  | onTrial
deriving DecidableEq, Inhabited

namespace Passage

def name : Passage → String
  | denied => "Denied"
  | granted => "Admitted"
  | onTrial => "Trial"

def isOpen (p : Passage) : Bool := p ≠ .denied

end Passage

/-- One change of state, as it is reported to observers. -/
structure CircuitEvent where
  route : String
  source : CircuitState
  target : CircuitState
  at_ : Timestamp
  reason : String
deriving DecidableEq

namespace CircuitEvent

def toMembers (e : CircuitEvent) : List (String × Json) :=
  [("route", .str e.route), ("from", e.source.toJson), ("to", e.target.toJson),
    ("at", e.at_.toJson), ("reason", .str e.reason)]

def toJson (e : CircuitEvent) : Json := Json.sorted e.toMembers

def fieldNames : List String := ["route", "from", "to", "at", "reason"]

def readFields (f : Json.Fields) : Reading CircuitEvent :=
  CircuitEvent.mk <$> f.required "route" Json.readString?
    <*> f.required "from" CircuitState.read <*> f.required "to" CircuitState.read
    <*> f.required "at" Timestamp.read <*> f.required "reason" Json.readString?

def read : Json → Reading CircuitEvent := Json.readRecord fieldNames readFields

end CircuitEvent

structure Circuit where
  state : CircuitState
  /-- Times of failures that may still count, oldest first. -/
  failures : List Timestamp
  openedAt : Option Timestamp
  trialStartedAt : Option Timestamp
  trialSuccesses : Nat
deriving DecidableEq

namespace Circuit

def fresh : Circuit := ⟨.shut, [], none, none, 0⟩

/-- The circuit after a change of state. -/
def enter (target : CircuitState) (now : Timestamp) (c : Circuit) : Circuit :=
  match target with
  | .tripped => ⟨.tripped, c.failures, some now, none, 0⟩
  | .shut => ⟨.shut, [], none, none, 0⟩
  | .halfOpen => ⟨.halfOpen, c.failures, c.openedAt, none, 0⟩

/-- What a call does to a circuit: the circuit after it, and the reason for a change of state. -/
structure Move where
  circuit : Circuit
  reason : Option String

def Move.stay (c : Circuit) : Move := ⟨c, none⟩

/-- A caller asks to pass. -/
def request (cfg : CircuitConfig) (now : Timestamp) (c : Circuit) : Passage × Move :=
  match c.state with
  | .shut => (.granted, .stay c)
  | .tripped =>
    let cooled := match c.openedAt with
      | some t => decide (Span.ofSeconds cfg.cooldownSecs ≤ now.since t)
      | none => true
    if cooled then
      (.onTrial, ⟨{ c.enter .halfOpen now with trialStartedAt := some now }, some "cooldown elapsed"⟩)
    else (.denied, .stay c)
  | .halfOpen =>
    let taken := match c.trialStartedAt with
      | some t => decide (now.since t < Span.ofSeconds cfg.trialTimeoutSecs)
      | none => false
    if taken then (.denied, .stay c)
    else (.onTrial, .stay { c with trialStartedAt := some now })

/-- A caller on trial gives the slot back unused. -/
def cancelTrial (c : Circuit) : Circuit :=
  match c.state with
  | .halfOpen => { c with trialStartedAt := none }
  | _ => c

def success (cfg : CircuitConfig) (now : Timestamp) (c : Circuit) : Move :=
  match c.state with
  | .shut => .stay { c with failures := [] }
  | .tripped => .stay c
  | .halfOpen =>
    let c := { c with trialStartedAt := none, trialSuccesses := successor32 c.trialSuccesses }
    if cfg.halfOpenSuccessThreshold ≤ c.trialSuccesses then
      ⟨c.enter .shut now, some "trials succeeded"⟩
    else .stay c

def failure (cfg : CircuitConfig) (now : Timestamp) (c : Circuit) : Move :=
  match c.state with
  | .shut =>
    let horizon := now.sub (Span.ofSeconds cfg.windowSecs)
    let c := { c with failures := (c.failures ++ [now]).dropWhile fun t => t ≤ horizon }
    if cfg.failureThreshold ≤ c.failures.length then
      ⟨c.enter .tripped now, some "failure threshold reached"⟩
    else .stay c
  | .halfOpen => ⟨c.enter .tripped now, some "trial failed"⟩
  | .tripped => .stay c

end Circuit

/-- All circuits, and the changes of state not collected yet. -/
structure Breaker where
  routes : Table String Circuit
  pending : List CircuitEvent
  /-- Changes dropped since the last collection for want of room. -/
  dropped : Nat

namespace Breaker

/-- The most changes kept for collection; the oldest go first. -/
def mostPending : Nat := 1024

def empty : Breaker := ⟨.empty, [], 0⟩

def circuit (b : Breaker) (route : String) : Circuit := (b.routes.get? route).getD .fresh

def state (b : Breaker) (route : String) : CircuitState := (b.circuit route).state

/-- Adds a change of state to those to be collected. -/
def report (e : CircuitEvent) (b : Breaker) : Breaker :=
  if b.pending.length < mostPending then { b with pending := b.pending ++ [e] }
  else { b with pending := b.pending.drop 1 ++ [e], dropped := b.dropped + 1 }

/-- Puts a circuit in the place it has moved to. -/
def apply (route : String) (now : Timestamp) (m : Circuit.Move) (b : Breaker) : Breaker :=
  let source := b.state route
  let b := { b with routes := b.routes.insert route m.circuit }
  match m.reason with
  | some reason => b.report ⟨route, source, m.circuit.state, now, reason⟩
  | none => b

def request (cfg : CircuitConfig) (route : String) (now : Timestamp) (b : Breaker) :
    Passage × Breaker :=
  let (p, m) := (b.circuit route).request cfg now
  (p, b.apply route now m)

def cancelTrial (route : String) (b : Breaker) : Breaker :=
  { b with routes := b.routes.modify route Circuit.cancelTrial }

def success (cfg : CircuitConfig) (route : String) (now : Timestamp) (b : Breaker) : Breaker :=
  b.apply route now ((b.circuit route).success cfg now)

def failure (cfg : CircuitConfig) (route : String) (now : Timestamp) (b : Breaker) : Breaker :=
  b.apply route now ((b.circuit route).failure cfg now)

/-- Collects the pending changes. -/
def drain (b : Breaker) : List CircuitEvent × Breaker :=
  (b.pending, { b with pending := [], dropped := 0 })

def describe (b : Breaker) : String :=
  Diagnostic.record "CircuitBreaker"
    [("routes", natText b.routes.size), ("pending_events", natText b.pending.length),
      ("dropped_events", natText b.dropped)]

end Breaker

end Courier
