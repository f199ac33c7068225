/-!
Instants and lengths of time, in whole nanoseconds. Both types are bounded, and arithmetic that
would leave the range stops at the bound it crosses, so no deadline ever wraps around.
-/

namespace Courier

/-- The longest `Span`, `2 ^ 63 - 1` milliseconds. -/
def longestNanos : Int := 9223372036854775807000000

/-- A length of time in nanoseconds, forward or backward. -/
structure Span where
  nanos : Int
  lower : -longestNanos ≤ nanos
  upper : nanos ≤ longestNanos
deriving DecidableEq

namespace Span

theorem ext {a b : Span} (h : a.nanos = b.nanos) : a = b := by
  cases a; cases b; simp at h; subst h; rfl

/-- The span nearest to `n` nanoseconds. -/
def clamp (n : Int) : Span where
  nanos := max (-longestNanos) (min longestNanos n)
  lower := by unfold longestNanos; omega
  upper := by unfold longestNanos; omega

def zero : Span := clamp 0

/-- The longest span. -/
def longest : Span := clamp longestNanos

/-- The longest span that runs backward. -/
def shortest : Span := clamp (-longestNanos)

def ofSeconds (n : Int) : Span := clamp (n * 1000000000)

def ofMillis (n : Int) : Span := clamp (n * 1000000)

/-- Whole milliseconds, cut toward zero. -/
def toMillis (d : Span) : Int := d.nanos.tdiv 1000000

def neg (d : Span) : Span where
  nanos := -d.nanos
  lower := by have := d.upper; omega
  upper := by have := d.lower; omega

instance : LE Span := ⟨fun a b => a.nanos ≤ b.nanos⟩
instance : LT Span := ⟨fun a b => a.nanos < b.nanos⟩
instance (a b : Span) : Decidable (a ≤ b) := inferInstanceAs (Decidable (a.nanos ≤ b.nanos))
instance (a b : Span) : Decidable (a < b) := inferInstanceAs (Decidable (a.nanos < b.nanos))

/-- The longer of two spans. -/
def orLonger (a b : Span) : Span := if a ≤ b then b else a

theorem clamp_of_mem {n : Int} (lo : -longestNanos ≤ n) (hi : n ≤ longestNanos) :
    (clamp n).nanos = n := by
  simp only [clamp]; omega

end Span

/-- The first instant, in nanoseconds from 1970-01-01T00:00:00Z. -/
def firstNanos : Int := -8334601228800000000000

/-- The last instant, in nanoseconds from 1970-01-01T00:00:00Z. -/
def lastNanos : Int := 8210266876799999999999

/-- An instant, in nanoseconds from 1970-01-01T00:00:00Z. -/
structure Timestamp where
  nanos : Int
  lower : firstNanos ≤ nanos
  upper : nanos ≤ lastNanos
deriving DecidableEq

namespace Timestamp

theorem ext {a b : Timestamp} (h : a.nanos = b.nanos) : a = b := by
  cases a; cases b; simp at h; subst h; rfl

/-- The instant nearest to `n`. -/
def clamp (n : Int) : Timestamp where
  nanos := max firstNanos (min lastNanos n)
  lower := by unfold firstNanos lastNanos; omega
  upper := by unfold firstNanos lastNanos; omega

/-- The instant `n`, if there is one. -/
def ofNanos? (n : Int) : Option Timestamp :=
  if h : firstNanos ≤ n ∧ n ≤ lastNanos then some ⟨n, h.1, h.2⟩ else none

def epoch : Timestamp := clamp 0

def first : Timestamp := clamp firstNanos

def last : Timestamp := clamp lastNanos

instance : Inhabited Timestamp := ⟨epoch⟩
instance : LE Timestamp := ⟨fun a b => a.nanos ≤ b.nanos⟩
instance : LT Timestamp := ⟨fun a b => a.nanos < b.nanos⟩
instance (a b : Timestamp) : Decidable (a ≤ b) := inferInstanceAs (Decidable (a.nanos ≤ b.nanos))
instance (a b : Timestamp) : Decidable (a < b) := inferInstanceAs (Decidable (a.nanos < b.nanos))

/-- `t + d`, stopping at the ends of time. -/
def add (t : Timestamp) (d : Span) : Timestamp := clamp (t.nanos + d.nanos)

/-- `t - d`, stopping at the ends of time. -/
def sub (t : Timestamp) (d : Span) : Timestamp := clamp (t.nanos - d.nanos)

/-- `t + d`, if that is an instant. -/
def add? (t : Timestamp) (d : Span) : Option Timestamp := ofNanos? (t.nanos + d.nanos)

/-- How long after `s` the instant `t` is. -/
def since (t s : Timestamp) : Span where
  nanos := t.nanos - s.nanos
  lower := by
    have := t.lower; have := s.upper
    unfold firstNanos at *; unfold lastNanos at *; unfold longestNanos; omega
  upper := by
    have := t.upper; have := s.lower
    unfold firstNanos at *; unfold lastNanos at *; unfold longestNanos; omega

theorem clamp_of_mem {n : Int} (lo : firstNanos ≤ n) (hi : n ≤ lastNanos) : (clamp n).nanos = n := by
  simp only [clamp]; omega

end Timestamp

end Courier
