import Courier.Proofs.Time

/-! Arithmetic on instants and spans at the ends of their ranges. A result within the range is
exact, and one beyond it is the end that was crossed. So no result is on the wrong side of what it
was computed from, and the order is kept throughout. -/

namespace Courier

namespace Timestamp

variable {t : Timestamp} {d : Span}

theorem clamp_of_lt {n : Int} (h : n < firstNanos) : clamp n = first := by
  refine Timestamp.ext ?_
  simp only [first, clamp, firstNanos, lastNanos] at h ⊢
  omega

theorem clamp_of_gt {n : Int} (h : lastNanos < n) : clamp n = last := by
  refine Timestamp.ext ?_
  simp only [last, clamp, firstNanos, lastNanos] at h ⊢
  omega

theorem nanos_add_of_mem (lower : firstNanos ≤ t.nanos + d.nanos)
    (upper : t.nanos + d.nanos ≤ lastNanos) : (t.add d).nanos = t.nanos + d.nanos :=
  clamp_of_mem lower upper

/-- Time ends on the side that the span runs to. -/
theorem add_of_not_mem
    (outside : ¬ (firstNanos ≤ t.nanos + d.nanos ∧ t.nanos + d.nanos ≤ lastNanos)) :
    t.add d = if d < .zero then first else last := by
  have lower := t.lower
  have upper := t.upper
  split
  · rename_i backward
    have backward : d.nanos < 0 := backward
    exact clamp_of_lt (by omega)
  · rename_i forward
    have forward : ¬ d.nanos < 0 := forward
    exact clamp_of_gt (by omega)

/-- The sum where there is one, and the end of time on the side of the span where there is none. -/
theorem add_eq_getD (t : Timestamp) (d : Span) :
    t.add d = (t.add? d).getD (if d < .zero then first else last) := by
  unfold add? ofNanos?
  split
  · rename_i within
    exact Timestamp.ext (nanos_add_of_mem within.1 within.2)
  · rename_i outside
    exact add_of_not_mem outside

/-- The difference likewise, where time ends on the other side of the span. -/
theorem sub_eq_getD (t : Timestamp) (d : Span) :
    t.sub d = (ofNanos? (t.nanos - d.nanos)).getD (if d < .zero then last else first) := by
  have lower := t.lower
  have upper := t.upper
  unfold ofNanos?
  split
  · rename_i within
    exact Timestamp.ext (clamp_of_mem within.1 within.2)
  · rename_i outside
    rw [Option.getD_none]
    split
    · rename_i backward
      have backward : d.nanos < 0 := backward
      exact clamp_of_gt (by omega)
    · rename_i forward
      have forward : ¬ d.nanos < 0 := forward
      exact clamp_of_lt (by omega)

theorem le_add (t : Timestamp) (forward : Span.zero ≤ d) : t ≤ t.add d := by
  have forward : 0 ≤ d.nanos := forward
  have upper := t.upper
  show t.nanos ≤ (t.add d).nanos
  simp only [add, clamp]
  omega

theorem sub_le (t : Timestamp) (forward : Span.zero ≤ d) : t.sub d ≤ t := by
  have forward : 0 ≤ d.nanos := forward
  have lower := t.lower
  show (t.sub d).nanos ≤ t.nanos
  simp only [sub, clamp]
  omega

end Timestamp

namespace Span

/-- `n` nanoseconds, or as near to them as spans come. -/
structure Clamps (d : Span) (n : Int) : Prop where
  exact : -longestNanos ≤ n → n ≤ longestNanos → d.nanos = n
  shortest : n < -longestNanos → d = shortest
  longest : longestNanos < n → d = longest

theorem clamps_clamp (n : Int) : (clamp n).Clamps n where
  exact := clamp_of_mem
  shortest short := by
    refine Span.ext ?_
    simp only [clamp, Span.shortest, longestNanos] at short ⊢
    omega
  longest long := by
    refine Span.ext ?_
    simp only [clamp, Span.longest, longestNanos] at long ⊢
    omega

theorem ofSeconds_mono {n n' : Int} (h : n ≤ n') : ofSeconds n ≤ ofSeconds n' :=
  clamp_mono (by omega)

theorem zero_le_ofSeconds {n : Int} (h : 0 ≤ n) : zero ≤ ofSeconds n := clamp_mono (by omega)

end Span

/-- Addition and subtraction are exact as long as they stay in time, and stop at the end that they
would cross. They keep the order of instants and of spans, and so do the spans made of whole seconds
and milliseconds, which are exact as long as there are such spans. -/
structure Saturates : Prop where
  add_exact {t : Timestamp} {d : Span} : firstNanos ≤ t.nanos + d.nanos →
    t.nanos + d.nanos ≤ lastNanos → (t.add d).nanos = t.nanos + d.nanos
  add_end {t : Timestamp} {d : Span} :
    ¬ (firstNanos ≤ t.nanos + d.nanos ∧ t.nanos + d.nanos ≤ lastNanos) →
      t.add d = if d < .zero then .first else .last
  add_checked (t : Timestamp) (d : Span) :
    t.add d = (t.add? d).getD (if d < .zero then .first else .last)
  sub_checked (t : Timestamp) (d : Span) :
    t.sub d = (Timestamp.ofNanos? (t.nanos - d.nanos)).getD (if d < .zero then .last else .first)
  sub_eq (t : Timestamp) (d : Span) : t.sub d = t.add d.neg
  add_mono {t t' : Timestamp} {d d' : Span} : t ≤ t' → d ≤ d' → t.add d ≤ t'.add d'
  sub_mono {t t' : Timestamp} {d d' : Span} : t ≤ t' → d' ≤ d → t.sub d ≤ t'.sub d'
  le_add (t : Timestamp) {d : Span} : Span.zero ≤ d → t ≤ t.add d
  sub_le (t : Timestamp) {d : Span} : Span.zero ≤ d → t.sub d ≤ t
  seconds (n : Int) : (Span.ofSeconds n).Clamps (n * 1000000000)
  millis (n : Int) : (Span.ofMillis n).Clamps (n * 1000000)
  seconds_mono {n n' : Int} : n ≤ n' → Span.ofSeconds n ≤ Span.ofSeconds n'
  millis_mono {n n' : Int} : n ≤ n' → Span.ofMillis n ≤ Span.ofMillis n'

theorem saturates : Saturates where
  add_exact := Timestamp.nanos_add_of_mem
  add_end := Timestamp.add_of_not_mem
  add_checked := Timestamp.add_eq_getD
  sub_checked := Timestamp.sub_eq_getD
  sub_eq := Timestamp.sub_eq_add_neg
  add_mono := Timestamp.add_mono
  sub_mono := Timestamp.sub_mono
  le_add t _ := t.le_add
  sub_le t _ := t.sub_le
  seconds _ := Span.clamps_clamp _
  millis _ := Span.clamps_clamp _
  seconds_mono := Span.ofSeconds_mono
  millis_mono := Span.ofMillis_mono

end Courier
