import Courier.Proofs.Number.Exact
import Courier.Proofs.Time
import Courier.Retry

/-! The waits before a job is tried again, in exact arithmetic: an anchor that grows with the
attempts up to a cap, a band around it, a floor below it and the rounding to milliseconds. Each of
these keeps the order of what it is given, so the waits keep the order of attempts and draws. -/

namespace Courier.RetryConfig

open Quantity

variable (c : RetryConfig ℚ)

/-- The factor by which the anchor grows. -/
def growth : ℚ := max c.factor 1

/-- The share of the anchor by which a wait may differ from it. -/
def jitter : ℚ := min 1 (max 0 c.jitterRatio)

/-- Where in the band around its anchor a wait lies, as a share of the anchor. -/
def place (unit : ℚ) : ℚ := 1 - c.jitter + 2 * c.jitter * min 1 (max 0 unit)

/-- How often the anchor has grown. -/
def steps (attempts : ℕ) : ℕ := min (attempts - 1) (2 ^ 31 - 1)

theorem one_le_growth : 1 ≤ c.growth := le_max_right _ _

theorem jitter_nonneg : 0 ≤ c.jitter := le_min zero_le_one (le_max_left _ _)

theorem jitter_le_one : c.jitter ≤ 1 := min_le_left _ _

theorem place_mono : Monotone c.place := by
  intro u v h
  have clamped : min 1 (max 0 u) ≤ min 1 (max 0 v) := min_le_min_left _ (max_le_max_left _ h)
  have := mul_le_mul_of_nonneg_left clamped c.jitter_nonneg
  unfold place
  linarith

theorem one_sub_jitter_le_place (u : ℚ) : 1 - c.jitter ≤ c.place u := by
  have clamped : (0 : ℚ) ≤ min 1 (max 0 u) := le_min zero_le_one (le_max_left _ _)
  have := mul_nonneg c.jitter_nonneg clamped
  unfold place
  linarith

theorem place_le_one_add_jitter (u : ℚ) : c.place u ≤ 1 + c.jitter := by
  have := mul_le_mul_of_nonneg_left (min_le_left 1 (max 0 u)) c.jitter_nonneg
  unfold place
  linarith

theorem place_nonneg (u : ℚ) : 0 ≤ c.place u :=
  (sub_nonneg.2 c.jitter_le_one).trans (c.one_sub_jitter_le_place u)

theorem anchor_eq (attempts : ℕ) :
    c.anchor attempts = min (c.baseDelayMs * c.growth ^ steps attempts) c.maxDelayMs := by
  have grown : (0 : ℚ) ≤ min (c.baseDelayMs * c.growth ^ steps attempts) c.maxDelayMs :=
    le_min (mul_nonneg (Nat.cast_nonneg _) (pow_nonneg (zero_le_one.trans c.one_le_growth) _))
      (Nat.cast_nonneg _)
  simp only [anchor, pow_rat, ofInt_rat, atLeast_rat, atMost_rat, mul_rat, one_rat, zero_rat]
  exact max_eq_left grown

theorem anchor_nonneg (attempts : ℕ) : 0 ≤ c.anchor attempts := le_max_right _ _

theorem anchor_le (attempts : ℕ) : c.anchor attempts ≤ c.maxDelayMs := by
  rw [anchor_eq]
  exact min_le_right _ _

theorem anchor_mono : Monotone c.anchor := by
  intro a b h
  rw [anchor_eq, anchor_eq]
  have fewer : steps a ≤ steps b := by unfold steps; omega
  exact min_le_min_right _ (mul_le_mul_of_nonneg_left (pow_le_pow_right₀ c.one_le_growth fewer)
    (Nat.cast_nonneg _))

/-- An anchor that the cap does not cut is larger than the one before by the whole factor. -/
theorem anchor_mul_growth_le {attempts : ℕ} (first : 1 ≤ attempts) (most : attempts < 2 ^ 31)
    (uncut : c.baseDelayMs * c.growth ^ attempts ≤ c.maxDelayMs) :
    c.anchor attempts * c.growth ≤ c.anchor (attempts + 1) := by
  obtain ⟨n, rfl⟩ : ∃ n, attempts = n + 1 := ⟨attempts - 1, by omega⟩
  have before : steps (n + 1) = n := by unfold steps; omega
  have after : steps (n + 1 + 1) = n + 1 := by unfold steps; omega
  rw [anchor_eq, anchor_eq, before, after, min_eq_left uncut, pow_succ, ← mul_assoc]
  exact mul_le_mul_of_nonneg_right (min_le_left _ _) (zero_le_one.trans c.one_le_growth)

theorem delay_eq (attempts : ℕ) (unit : ℚ) : c.delay attempts unit =
    Span.ofMillis (nearest (max (c.anchor attempts * c.place unit) (c.minDelayMs : ℚ))) := by
  simp only [delay, between_rat, ofInt_rat, atLeast_rat, add_rat, sub_rat, mul_rat, one_rat,
    zero_rat]
  congr 3
  unfold place jitter
  push_cast
  ring

/-- A wait is no shorter than another whose place in its band is no further out. -/
theorem delay_le_delay {a b : ℕ} {u v : ℚ}
    (h : c.anchor a * c.place u ≤ c.anchor b * c.place v) : c.delay a u ≤ c.delay b v := by
  rw [delay_eq, delay_eq]
  exact Span.ofMillis_mono (nearest_mono (max_le_max_right _ h))

theorem delay_mono {a b : ℕ} {u v : ℚ} (later : a ≤ b) (further : u ≤ v) :
    c.delay a u ≤ c.delay b v :=
  c.delay_le_delay (mul_le_mul (c.anchor_mono later) (c.place_mono further) (c.place_nonneg u)
    (c.anchor_nonneg b))

theorem minDelay_le_delay (floor : c.minDelayMs < 2 ^ 62) (attempts : ℕ) (unit : ℚ) :
    (c.minDelayMs * 1000000 : ℤ) ≤ (c.delay attempts unit).nanos := by
  have least : (c.minDelayMs : ℤ) ≤
      nearest (max (c.anchor attempts * c.place unit) (c.minDelayMs : ℚ)) := by
    rw [← nearest_natCast (show c.minDelayMs < 2 ^ 63 by omega)]
    exact nearest_mono (le_max_right _ _)
  rw [delay_eq]
  refine le_trans (le_of_eq ?_) (Span.ofMillis_mono least)
  rw [Span.ofMillis, Span.clamp_of_mem] <;> unfold longestNanos <;> omega

theorem delay_le_round (attempts : ℕ) (unit : ℚ) : (c.delay attempts unit).nanos ≤
    round (max (c.minDelayMs : ℚ) (c.maxDelayMs * (1 + c.jitter))) * 1000000 := by
  have most : max (c.anchor attempts * c.place unit) (c.minDelayMs : ℚ) ≤
      max (c.minDelayMs : ℚ) (c.maxDelayMs * (1 + c.jitter)) := by
    rw [max_comm]
    exact max_le_max_left _ (mul_le_mul (c.anchor_le attempts) (c.place_le_one_add_jitter unit)
      (c.place_nonneg unit) (Nat.cast_nonneg _))
  have nonneg : (0 : ℚ) ≤ max (c.minDelayMs : ℚ) (c.maxDelayMs * (1 + c.jitter)) :=
    le_max_of_le_left (Nat.cast_nonneg _)
  have rounded := (nearest_mono most).trans (nearest_le_round nonneg)
  have forward := halfAway_of_nonneg nonneg ▸ halfAway_nonneg nonneg
  rw [delay_eq]
  exact (Span.ofMillis_mono rounded).trans (Span.ofMillis_le forward)

/-- Where the bands of two attempts do not overlap, the later one waits longer. -/
theorem delay_le_delay_succ (apart : 1 + c.jitter ≤ c.growth * (1 - c.jitter)) {attempts : ℕ}
    (first : 1 ≤ attempts) (most : attempts < 2 ^ 31)
    (uncut : c.baseDelayMs * c.growth ^ attempts ≤ c.maxDelayMs) (u v : ℚ) :
    c.delay attempts u ≤ c.delay (attempts + 1) v := by
  refine c.delay_le_delay ?_
  calc c.anchor attempts * c.place u
      ≤ c.anchor attempts * (1 + c.jitter) :=
        mul_le_mul_of_nonneg_left (c.place_le_one_add_jitter u) (c.anchor_nonneg attempts)
    _ ≤ c.anchor attempts * (c.growth * (1 - c.jitter)) :=
        mul_le_mul_of_nonneg_left apart (c.anchor_nonneg attempts)
    _ = c.anchor attempts * c.growth * (1 - c.jitter) := (mul_assoc _ _ _).symm
    _ ≤ c.anchor (attempts + 1) * (1 - c.jitter) :=
        mul_le_mul_of_nonneg_right (c.anchor_mul_growth_le first most uncut)
          (sub_nonneg.2 c.jitter_le_one)
    _ ≤ c.anchor (attempts + 1) * c.place v :=
        mul_le_mul_of_nonneg_left (c.one_sub_jitter_le_place v) (c.anchor_nonneg _)

/-- The waits of any configuration. Later attempts and higher draws do not shorten them; they lie
between the shortest wait and the longest one with its jitter; and where the bands of successive
attempts do not overlap, which is so as long as the growth makes up for the jitter and the cap does
not interfere, no draw for an attempt is longer than any draw for the next. -/
theorem delay_spread (c : RetryConfig ℚ) :
    (∀ a b u v, a ≤ b → u ≤ v → c.delay a u ≤ c.delay b v) ∧
    (∀ a u, (c.minDelayMs < 2 ^ 62 → (c.minDelayMs * 1000000 : ℤ) ≤ (c.delay a u).nanos) ∧
      (c.delay a u).nanos ≤
        round (max (c.minDelayMs : ℚ) (c.maxDelayMs * (1 + c.jitter))) * 1000000) ∧
    (1 + c.jitter ≤ c.growth * (1 - c.jitter) → ∀ a, 1 ≤ a → a < 2 ^ 31 →
      c.baseDelayMs * c.growth ^ a ≤ c.maxDelayMs → ∀ u v, c.delay a u ≤ c.delay (a + 1) v) :=
  ⟨fun _ _ _ _ => c.delay_mono,
    fun a u => ⟨fun floor => c.minDelay_le_delay floor a u, c.delay_le_round a u⟩,
    fun apart _ first most uncut => c.delay_le_delay_succ apart first most uncut⟩

/-- The usual waits, in exact arithmetic. -/
def usualExact : RetryConfig ℚ := ⟨5, 2000, 2, 300000, 1 / 5, 100⟩

theorem delay_spread_usualExact : usualExact.minDelayMs < 2 ^ 62 ∧
    1 + usualExact.jitter ≤ usualExact.growth * (1 - usualExact.jitter) ∧
    usualExact.baseDelayMs * usualExact.growth ^ 3 ≤ usualExact.maxDelayMs ∧
    100 * 1000000 ≤ (usualExact.delay 3 1).nanos ∧ usualExact.delay 2 0 ≤ usualExact.delay 3 1 ∧
    usualExact.delay 3 1 ≤ usualExact.delay 4 0 := by
  obtain ⟨mono, bounds, apart⟩ := usualExact.delay_spread
  have floor : usualExact.minDelayMs < 2 ^ 62 := by decide
  have wide : 1 + usualExact.jitter ≤ usualExact.growth * (1 - usualExact.jitter) := by
    norm_num [usualExact, jitter, growth]
  have uncut : usualExact.baseDelayMs * usualExact.growth ^ 3 ≤ usualExact.maxDelayMs := by
    norm_num [usualExact, growth]
  exact ⟨floor, wide, uncut, (bounds 3 1).1 floor, mono 2 3 0 1 (by decide) (by norm_num),
    apart wide 3 (by decide) (by decide) uncut 1 0⟩

end Courier.RetryConfig
