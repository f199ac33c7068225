import Mathlib
import Courier.Number.Quantity

/-! The rationals as quantities: the arithmetic of delays without any rounding but the last one, to
whole milliseconds. -/

namespace Courier

/-- The nearest whole number, a half going away from zero. -/
def halfAway (q : ℚ) : ℤ := if 0 ≤ q then ⌊q + 1 / 2⌋ else ⌈q - 1 / 2⌉

/-- `n` held within 64 signed bits. -/
def within64 (n : ℤ) : ℤ := max (-9223372036854775808) (min 9223372036854775807 n)

instance : Quantity ℚ where
  ofInt n := n
  add := (· + ·)
  sub := (· - ·)
  mul := (· * ·)
  div := (· / ·)
  lt a b := decide (a < b)
  le a b := decide (a ≤ b)
  atLeast := max
  atMost := min
  nearest q := within64 (halfAway q)

theorem halfAway_of_nonneg {q : ℚ} (h : 0 ≤ q) : halfAway q = round q := by
  rw [halfAway, if_pos h, round_eq]

theorem halfAway_intCast (n : ℤ) : halfAway n = n := by
  rw [halfAway]
  split_ifs with h
  · rw [Int.floor_intCast_add]
    norm_num
  · rw [sub_eq_add_neg, Int.ceil_intCast_add]
    norm_num

theorem halfAway_mono : Monotone halfAway := by
  intro p q h
  unfold halfAway
  split_ifs with hp hq hq
  · exact Int.floor_le_floor (by linarith)
  · exact absurd (hp.trans h) hq
  · have below : ⌈p - 1 / 2⌉ ≤ 0 := Int.ceil_le.2 (by push_cast; linarith)
    have above : 0 ≤ ⌊q + 1 / 2⌋ := Int.le_floor.2 (by push_cast; linarith)
    exact below.trans above
  · exact Int.ceil_le_ceil (by linarith)

theorem halfAway_nonneg {q : ℚ} (h : 0 ≤ q) : 0 ≤ halfAway q := by
  rw [← halfAway_intCast 0]
  exact halfAway_mono (by exact_mod_cast h)

/-- Whole numbers may be added before or after. -/
theorem halfAway_add_natCast {q : ℚ} (h : 0 ≤ q) (n : ℕ) : halfAway (q + n) = halfAway q + n := by
  rw [halfAway_of_nonneg h, halfAway_of_nonneg (by positivity), round_add_natCast]

theorem within64_mono : Monotone within64 := by
  intro m n h
  unfold within64
  omega

theorem within64_add_le (n : ℤ) (k : ℕ) : within64 (n + k) ≤ within64 n + k := by
  unfold within64
  omega

theorem within64_le {n : ℤ} (h : 0 ≤ n) : within64 n ≤ n := by
  unfold within64
  omega

namespace Quantity

section

variable (a b : ℚ)

@[simp] theorem ofInt_rat (n : ℤ) : (ofInt n : ℚ) = n := rfl

@[simp] theorem zero_rat : (zero : ℚ) = 0 := Int.cast_zero

@[simp] theorem one_rat : (one : ℚ) = 1 := Int.cast_one

@[simp] theorem add_rat : add a b = a + b := rfl

@[simp] theorem sub_rat : sub a b = a - b := rfl

@[simp] theorem mul_rat : mul a b = a * b := rfl

@[simp] theorem div_rat : div a b = a / b := rfl

@[simp] theorem atLeast_rat : atLeast a b = max a b := rfl

@[simp] theorem atMost_rat : atMost a b = min a b := rfl

theorem lt_rat_iff : lt a b = true ↔ a < b := decide_eq_true_iff

theorem le_rat_iff : le a b = true ↔ a ≤ b := decide_eq_true_iff

end

theorem nearest_mono : Monotone (nearest : ℚ → ℤ) := within64_mono.comp halfAway_mono

/-- So many whole units more make the nearest whole number larger by no more than that. -/
theorem nearest_add_natCast_le {q : ℚ} (h : 0 ≤ q) (n : ℕ) :
    nearest (q + n) ≤ nearest q + n := by
  show within64 (halfAway (q + n)) ≤ within64 (halfAway q) + n
  rw [halfAway_add_natCast h]
  exact within64_add_le _ _

theorem nearest_le_round {q : ℚ} (h : 0 ≤ q) : nearest q ≤ round q := by
  show within64 (halfAway q) ≤ round q
  rw [← halfAway_of_nonneg h]
  exact within64_le (halfAway_nonneg h)

theorem nearest_natCast {n : ℕ} (h : n < 2 ^ 63) : nearest (n : ℚ) = n := by
  show within64 (halfAway (n : ℤ)) = n
  rw [halfAway_intCast, within64]
  omega

theorem nearest_nonneg {q : ℚ} (h : 0 ≤ q) : 0 ≤ nearest q := by
  have none : nearest ((0 : ℕ) : ℚ) = 0 := nearest_natCast (by norm_num)
  rw [← none]
  exact nearest_mono (by exact_mod_cast h)

theorem between_rat (low high x : ℚ) : between low high x = min high (max low x) := by
  simp only [between, lt_rat_iff]
  rw [max_def, min_def]
  split_ifs <;> grind

theorem powFrom_rat (acc x : ℚ) (n : ℕ) : powFrom acc x n = acc * x ^ n := by
  induction n using Nat.strongRecOn generalizing acc x with
  | ind n ih =>
    have parts := Nat.mod_add_div n 2
    have factor : (if n % 2 = 1 then mul acc x else acc) = acc * x ^ (n % 2) := by
      rcases Nat.mod_two_eq_zero_or_one n with even | odd
      · simp [even]
      · rw [if_pos odd, odd, pow_one, mul_rat]
    rw [powFrom, factor]
    split_ifs with last
    · rw [last, Nat.mul_zero, Nat.add_zero] at parts
      rw [parts]
    · rw [ih (n / 2) (by omega), mul_rat]
      calc acc * x ^ (n % 2) * (x * x) ^ (n / 2)
          = acc * x ^ (n % 2 + 2 * (n / 2)) := by rw [pow_add, pow_mul, pow_two, mul_assoc]
        _ = acc * x ^ n := by rw [parts]

theorem pow_rat (x : ℚ) (n : ℕ) : pow x n = x ^ n := by
  rw [pow, powFrom_rat, one_rat, one_mul]

end Quantity

end Courier
