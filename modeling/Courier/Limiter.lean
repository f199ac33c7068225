import Courier.Config
import Courier.Table

/-!
Hard limits on calls to the outside: sliding windows over the times of past calls, one for all
routes and one per route. A call needs room in both, and a refused call takes none.
-/

namespace Courier

/-- The answer to a call that asks for room. -/
structure RateDecision where
  allowed : Bool
  /-- How long until the fuller window has room, in seconds; zero when allowed. -/
  retryAfterSecs : Float

namespace RateDecision

def allow : RateDecision := ⟨true, 0.0⟩

/-- Refuses, with a wait of at least one millisecond. -/
def deny (wait : Span) : RateDecision := ⟨false, floatOfInt (max wait.toMillis 1) / 1000.0⟩

/-- The wait in whole milliseconds, rounded up. -/
def waitMillis (d : RateDecision) : Nat := ceilOfFloat (d.retryAfterSecs * 1000.0)

def toJson (d : RateDecision) : Json :=
  Json.sorted
    [("allowed", .bool d.allowed), ("retry_after_secs", Json.ofFloat d.retryAfterSecs)]

def read : Json → Reading RateDecision :=
  Json.readRecord ["allowed", "retry_after_secs"] fun f =>
    RateDecision.mk <$> f.required "allowed" Json.readBool
      <*> f.required "retry_after_secs" Json.readFloat

end RateDecision

/-- The times of past calls that may still count, oldest first. -/
abbrev Window := List Timestamp

namespace Window

/-- Forgets calls that left the window by `now`. -/
def trim (limit : WindowLimit) (now : Timestamp) (w : Window) : Window :=
  let horizon := now.sub limit.window
  w.dropWhile fun t => t ≤ horizon

/-- How long a call has to wait for room, if it has to. -/
def blocked (limit : WindowLimit) (now : Timestamp) (w : Window) : Option Span :=
  if w.length < limit.maxEvents then none
  else some (((w.head?.getD now).add limit.window).since now)

/-- Takes out the last call made at `t`. -/
def remove (t : Timestamp) (w : Window) : Window := (w.reverse.erase t).reverse

end Window

/-- How full a window is. -/
structure WindowUse where
  scope : String
  used : Nat
  limit : WindowLimit
deriving DecidableEq

structure Limiter where
  overall : Window
  routes : Table String Window

namespace Limiter

def empty : Limiter := ⟨[], .empty⟩

/-- The longer of two waits. -/
def longerWait : Option Span → Option Span → Option Span
  | none, w => w
  | w, none => w
  | some a, some b => some (a.orLonger b)

/-- A window under an optional limit: trimmed, with the wait it asks for. -/
def consult (limit : Option WindowLimit) (now : Timestamp) (w : Window) : Window × Option Span :=
  match limit with
  | none => (w, none)
  | some l => (w.trim l now, (w.trim l now).blocked l now)

/-- Records a call in a window that is limited. -/
def note (limit : Option WindowLimit) (now : Timestamp) (w : Window) : Window :=
  if limit.isSome then w ++ [now] else w

def routeWindow (s : Limiter) (route : String) : Window := (s.routes.get? route).getD []

/-- Asks for room for a call on `route`. -/
def request (c : RateLimitConfig) (route : String) (now : Timestamp) (s : Limiter) :
    RateDecision × Limiter :=
  let limit := c.forRoute route
  let (all, waitAll) := consult c.overall now s.overall
  let (own, waitOwn) := consult limit now (s.routeWindow route)
  match longerWait waitAll waitOwn with
  | some wait => (.deny wait, ⟨all, s.routes.insert route own⟩)
  | none => (.allow, ⟨note c.overall now all, s.routes.insert route (note limit now own)⟩)

/-- Gives back the room taken at `t` for a call that was never made. -/
def refund (c : RateLimitConfig) (route : String) (t : Timestamp) (s : Limiter) : Limiter :=
  ⟨if c.overall.isSome then s.overall.remove t else s.overall,
    s.routes.modify route (Window.remove t)⟩

/-- The windows trimmed to `now`. -/
def settle (c : RateLimitConfig) (now : Timestamp) (s : Limiter) : Limiter :=
  ⟨(consult c.overall now s.overall).1,
    s.routes.mapValues fun route w => (consult (c.forRoute route) now w).1⟩

/-- The use of every limited window at `now`: first the overall one, then by route. -/
def usage (c : RateLimitConfig) (now : Timestamp) (s : Limiter) : List WindowUse × Limiter :=
  let s := s.settle c now
  let all := match c.overall with
    | some l => [⟨"global", s.overall.length, l⟩]
    | none => []
  let routes := s.routes.entries.mergeSort fun a b => !(b.1 < a.1)
  (all ++ routes.filterMap fun (route, w) =>
    (c.forRoute route).map fun l => ⟨route, w.length, l⟩, s)

def describe (s : Limiter) : String :=
  Diagnostic.record "SlidingWindowRateLimiter"
    [("global_used", natText s.overall.length), ("routes", natText s.routes.size)]

end Limiter

end Courier
