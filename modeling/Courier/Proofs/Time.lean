import Courier.Time.Basic

/-! The order of instants and of spans. -/

namespace Courier

theorem Span.not_le {a b : Span} : ¬ a ≤ b ↔ b < a := Int.not_le

theorem Span.clamp_mono {n n' : Int} (h : n ≤ n') : Span.clamp n ≤ Span.clamp n' := by
  show (Span.clamp n).nanos ≤ (Span.clamp n').nanos
  simp only [Span.clamp]
  omega

theorem Span.ofMillis_mono {n n' : Int} (h : n ≤ n') : Span.ofMillis n ≤ Span.ofMillis n' :=
  Span.clamp_mono (by omega)

theorem Span.ofMillis_le {n : Int} (h : 0 ≤ n) : (Span.ofMillis n).nanos ≤ n * 1000000 := by
  simp only [Span.ofMillis, Span.clamp, longestNanos]
  omega

theorem Span.ofMillis_nonneg {n : Int} (h : 0 ≤ n) : 0 ≤ (Span.ofMillis n).nanos := by
  simp only [Span.ofMillis, Span.clamp, longestNanos]
  omega

theorem Span.toMillis_le {d : Span} (h : 0 ≤ d.nanos) : d.toMillis.toNat * 1000000 ≤ d.nanos := by
  rw [toMillis, Int.tdiv_eq_ediv_of_nonneg h]
  omega

namespace Timestamp

theorem le_refl (a : Timestamp) : a ≤ a := Int.le_refl a.nanos

theorem le_trans {a b c : Timestamp} (h : a ≤ b) (h' : b ≤ c) : a ≤ c := Int.le_trans h h'

theorem lt_of_lt_of_le {a b c : Timestamp} (h : a < b) (h' : b ≤ c) : a < c :=
  Int.lt_of_lt_of_le h h'

theorem lt_of_le_of_lt {a b c : Timestamp} (h : a ≤ b) (h' : b < c) : a < c :=
  Int.lt_of_le_of_lt h h'

theorem not_le {a b : Timestamp} : ¬ a ≤ b ↔ b < a := Int.not_le

theorem not_lt {a b : Timestamp} : ¬ a < b ↔ b ≤ a := Int.not_lt

theorem le_last (t : Timestamp) : t ≤ last := t.upper

theorem sub_eq_add_neg (t : Timestamp) (d : Span) : t.sub d = t.add d.neg := by
  refine Timestamp.ext ?_
  show (clamp (t.nanos - d.nanos)).nanos = (clamp (t.nanos + -d.nanos)).nanos
  rw [Int.sub_eq_add_neg]

/-- Also where the addition stops at an end of time. -/
theorem add_mono {t t' : Timestamp} {d d' : Span} (later : t ≤ t') (longer : d ≤ d') :
    t.add d ≤ t'.add d' := by
  have later : t.nanos ≤ t'.nanos := later
  have longer : d.nanos ≤ d'.nanos := longer
  show (t.add d).nanos ≤ (t'.add d').nanos
  simp only [add, clamp]
  omega

theorem sub_mono {t t' : Timestamp} {d d' : Span} (later : t ≤ t') (shorter : d' ≤ d) :
    t.sub d ≤ t'.sub d' := by
  rw [sub_eq_add_neg, sub_eq_add_neg]
  exact add_mono later (Int.neg_le_neg shorter)

theorem sub_le_sub {a b : Timestamp} (h : a ≤ b) (d : Span) : a.sub d ≤ b.sub d :=
  sub_mono h (Int.le_refl d.nanos)

theorem add_le_add (t : Timestamp) {d d' : Span} (h : d ≤ d') : t.add d ≤ t.add d' :=
  add_mono (le_refl t) h

/-- A span of `n` nanoseconds at most leads no further than those. -/
theorem add_nanos_le (t : Timestamp) {d : Span} {n : Int} (least : 0 ≤ n) (most : d.nanos ≤ n) :
    (t.add d).nanos ≤ t.nanos + n := by
  have := t.lower
  simp only [add, clamp]
  omega

theorem add_since (t u : Timestamp) : t.add (u.since t) = u := by
  have sum : t.nanos + (u.nanos - t.nanos) = u.nanos := by omega
  refine Timestamp.ext ?_
  show (clamp (t.nanos + (u.nanos - t.nanos))).nanos = u.nanos
  rw [sum, clamp_of_mem u.lower u.upper]

/-- No time is left until an instant that is over. -/
theorem no_time_left {a b : Timestamp} (h : b ≤ a) : (b.since a).orLonger .zero = .zero := by
  have h : b.nanos ≤ a.nanos := h
  have past : b.since a ≤ .zero := by
    show b.nanos - a.nanos ≤ 0
    omega
  rw [Span.orLonger, if_pos past]

theorem time_left_nanos {a b : Timestamp} (h : a ≤ b) :
    ((b.since a).orLonger .zero).nanos = b.nanos - a.nanos := by
  have h : a.nanos ≤ b.nanos := h
  unfold Span.orLonger
  split
  · rename_i past
    have past : b.nanos - a.nanos ≤ 0 := past
    show 0 = b.nanos - a.nanos
    omega
  · rfl

/-- Whoever waits for an instant that is to come gets there. -/
theorem add_time_left {a b : Timestamp} (h : Span.zero < (b.since a).orLonger .zero) :
    a.add ((b.since a).orLonger .zero) = b := by
  unfold Span.orLonger at h ⊢
  split at h
  · exact absurd h (Int.lt_irrefl _)
  · rename_i ahead
    rw [if_neg ahead, add_since]

theorem add_nanos_of_time_left {a b : Timestamp} (h : Span.zero < (b.since a).orLonger .zero) :
    a.nanos + ((b.since a).orLonger .zero).nanos = b.nanos := by
  unfold Span.orLonger at h ⊢
  split at h
  · exact absurd h (Int.lt_irrefl _)
  · rename_i ahead
    rw [if_neg ahead]
    show a.nanos + (b.nanos - a.nanos) = b.nanos
    omega

/-- When no time is left, an instant is over. -/
theorem le_of_since {a b : Timestamp} (h : ¬ Span.zero < (a.since b).orLonger .zero) : a ≤ b := by
  show a.nanos ≤ b.nanos
  unfold Span.orLonger at h
  split at h
  · rename_i past
    have past : a.nanos - b.nanos ≤ 0 := past
    omega
  · have h : ¬ 0 < a.nanos - b.nanos := h
    omega

end Timestamp

end Courier
