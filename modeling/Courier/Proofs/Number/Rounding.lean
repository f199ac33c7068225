import Mathlib

/-! Rounding to the nearest double, a half going to the even one. A mantissa under reduction carries
two bits for what was dropped, and they say all that has to be known of it; the rounded number is
the value of a function that grows with its argument. -/

namespace Courier

open Float.Model Float.Model.UnpackedFloat

/-- The nearest whole number, a half going to the even one. -/
def halfEven (q : ℚ) : ℤ :=
  if Int.fract q < 1 / 2 then ⌊q⌋ else if 1 / 2 < Int.fract q then ⌊q⌋ + 1 else ⌊q⌋ + ⌊q⌋ % 2

theorem floor_le_halfEven (q : ℚ) : ⌊q⌋ ≤ halfEven q ∧ halfEven q ≤ ⌊q⌋ + 1 := by
  unfold halfEven
  split_ifs <;> omega

theorem halfEven_intCast (n : ℤ) : halfEven n = n := by
  simp [halfEven]

theorem halfEven_natCast (n : ℕ) : halfEven n = n := by
  exact_mod_cast halfEven_intCast n

theorem halfEven_mono : Monotone halfEven := by
  intro p q hpq
  rcases (Int.floor_mono hpq).lt_or_eq with lower | same
  · have := (floor_le_halfEven p).2
    have := (floor_le_halfEven q).1
    omega
  · have : Int.fract p ≤ Int.fract q := by
      rw [Int.fract, Int.fract, same]
      linarith
    unfold halfEven
    rw [same]
    split_ifs <;> first | omega | linarith

theorem abs_halfEven_sub_le (q : ℚ) : |halfEven q - q| ≤ 1 / 2 := by
  have parts := Int.floor_add_fract q
  have := Int.fract_nonneg q
  have := Int.fract_lt_one q
  unfold halfEven
  rw [abs_le]
  split_ifs with down up
  · constructor <;> linarith
  · push_cast
    constructor <;> linarith
  · have half : Int.fract q = 1 / 2 := le_antisymm (not_lt.1 up) (not_lt.1 down)
    rcases Int.emod_two_eq_zero_or_one ⌊q⌋ with even | odd
    · rw [even]
      push_cast
      constructor <;> linarith
    · rw [odd]
      push_cast
      constructor <;> linarith

/-- The two bits of a reduced mantissa place `q` between it and the next one. -/
def Approximates : ExtendedMantissa → ℚ → Prop
  | ⟨m, false, false⟩, q => q = m
  | ⟨m, false, true⟩, q => m < q ∧ q < m + 1 / 2
  | ⟨m, true, false⟩, q => q = m + 1 / 2
  | ⟨m, true, true⟩, q => m + 1 / 2 < q ∧ q < m + 1

namespace Approximates

variable {em : ExtendedMantissa} {q : ℚ}

theorem exact (m : ℕ) : Approximates (.ofMantissaAndAccuracy m .exact) m := rfl

/-- A quotient is placed by what is left over. -/
theorem quotient (a : ℕ) {b : ℕ} (hb : 0 < b) :
    Approximates (.ofMantissaAndAccuracy (a / b) (accuracyOfFraction (a % b) b)) (a / b) := by
  have pos : (0 : ℚ) < b := by exact_mod_cast hb
  have whole : (a : ℚ) = (a / b : ℕ) * b + (a % b : ℕ) := by
    exact_mod_cast (Nat.div_add_mod' a b).symm
  have parts : (a : ℚ) / b = (a / b : ℕ) + (a % b : ℕ) / b := by
    conv_lhs => rw [whole]
    rw [add_div, mul_div_cancel_right₀ _ pos.ne']
  have less : ((a % b : ℕ) : ℚ) / b < 1 := by
    rw [div_lt_one pos]
    exact_mod_cast Nat.mod_lt a hb
  rw [parts]
  unfold accuracyOfFraction
  split_ifs with even
  · rw [even]
    simp [ExtendedMantissa.ofMantissaAndAccuracy, Approximates]
  · have more : (0 : ℚ) < (a % b : ℕ) / b := by
      have : (0 : ℚ) < (a % b : ℕ) := by exact_mod_cast Nat.pos_of_ne_zero even
      positivity
    rcases lt_trichotomy (2 * (a % b)) b with below | half | above
    · have : ((a % b : ℕ) : ℚ) / b < 1 / 2 := by
        rw [div_lt_div_iff₀ pos two_pos, one_mul, mul_comm]
        exact_mod_cast below
      rw [compare_lt_iff_lt.2 below]
      constructor <;> linarith
    · have : ((a % b : ℕ) : ℚ) / b = 1 / 2 := by
        rw [div_eq_div_iff pos.ne' two_ne_zero, one_mul, mul_comm]
        exact_mod_cast half
      rw [compare_eq_iff_eq.2 half, this]
      rfl
    · have : 1 / 2 < ((a % b : ℕ) : ℚ) / b := by
        rw [div_lt_div_iff₀ two_pos pos, one_mul, mul_comm]
        exact_mod_cast above
      rw [compare_gt_iff_gt.2 above]
      constructor <;> linarith

theorem exact_mul_zpow (m : ℕ) (e : ℤ) :
    Approximates (.ofMantissaAndAccuracy m .exact) (m * 2 ^ e / 2 ^ e) := by
  rw [mul_div_cancel_right₀ _ (by positivity)]
  exact exact m

theorem shiftRightOne (h : Approximates em q) : Approximates em.shiftRightOne (q / 2) := by
  obtain ⟨m, r, s⟩ := em
  have halves : (m : ℚ) = 2 * (m / 2 : ℕ) + (m % 2 : ℕ) := by
    exact_mod_cast (Nat.div_add_mod m 2).symm
  -- the last bit of the mantissa becomes the first that was dropped
  rcases Nat.mod_two_eq_zero_or_one m with even | odd
  · rw [even] at halves
    cases r <;> cases s <;> simp_all [Approximates, ExtendedMantissa.shiftRightOne] <;>
      constructor <;> linarith
  · rw [odd] at halves
    cases r <;> cases s <;> simp_all [Approximates, ExtendedMantissa.shiftRightOne]
    · linarith
    all_goals constructor <;> linarith

theorem shiftRight (h : Approximates em q) (n : ℕ) : Approximates (em >>> n) (q / 2 ^ n) := by
  induction n with
  | zero =>
    rw [pow_zero, div_one]
    exact h
  | succ n ih =>
    rw [pow_succ, ← div_div]
    exact ih.shiftRightOne

theorem floor_eq (h : Approximates em q) : ⌊q⌋ = em.mantissa := by
  obtain ⟨m, r, s⟩ := em
  rw [Int.floor_eq_iff]
  cases r <;> cases s <;> simp only [Approximates] at h <;> push_cast <;> constructor <;> linarith

/-- A mantissa with an accuracy is what is left of the number before its point. -/
theorem bounds {m : ℕ} {a : Accuracy} (h : Approximates (.ofMantissaAndAccuracy m a) q) :
    m ≤ q ∧ q < m + 1 := by
  have mantissa : (ExtendedMantissa.ofMantissaAndAccuracy m a).mantissa = m := by
    rcases a with _ | (_ | _ | _) <;> rfl
  have floor := h.floor_eq
  rw [mantissa, Int.floor_eq_iff] at floor
  exact_mod_cast floor

/-- The two bits tell what a mantissa is rounded to. -/
theorem roundedMantissa_eq (h : Approximates em q) : (em.roundedMantissa : ℤ) = halfEven q := by
  have floor := h.floor_eq
  have fract : Int.fract q = q - em.mantissa := by
    rw [Int.fract, floor]
    norm_cast
  obtain ⟨m, r, s⟩ := em
  rw [halfEven, fract, floor]
  cases r <;> cases s <;> simp only [Approximates] at h <;>
    simp only [ExtendedMantissa.roundedMantissa, ExtendedMantissa.accuracy,
      Accuracy.roundToNearestEven] <;>
    split_ifs <;> first | omega | linarith

end Approximates

/-- The exponent of the last place of a double near `q`. -/
def lastPlace (q : ℚ) : ℤ := max (Int.log 2 q - 52) (-1074)

/-- The double nearest to `q`, if doubles had no upper bound. -/
def rounded (q : ℚ) : ℚ := halfEven (q / 2 ^ lastPlace q) * 2 ^ lastPlace q

theorem rounded_zero : rounded 0 = 0 := by
  simp [rounded, halfEven]

theorem log_lt_of_lt {q : ℚ} (hq : 0 < q) {n : ℤ} (h : q < 2 ^ n) : Int.log 2 q < n := by
  rw [← Int.lt_zpow_iff_log_lt (by decide) hq]
  exact_mod_cast h

/-- What has no more than 53 digits is rounded to itself. -/
theorem rounded_mul_zpow {k : ℕ} {p : ℤ} (small : k < 2 ^ 53) (least : -1074 ≤ p) :
    rounded (k * 2 ^ p) = k * 2 ^ p := by
  rcases k.eq_zero_or_pos with rfl | pos
  · simp [rounded_zero]
  have digits : Int.log 2 ((k : ℚ) * 2 ^ p) < 53 + p := by
    have : (k : ℚ) < 2 ^ 53 := by exact_mod_cast small
    refine log_lt_of_lt (by positivity) ?_
    rw [zpow_add₀ (by norm_num)]
    gcongr
    exact_mod_cast this
  obtain ⟨n, hn⟩ : ∃ n : ℕ, p = lastPlace (k * 2 ^ p) + n := by
    refine ⟨(p - lastPlace (k * 2 ^ p)).toNat, ?_⟩
    unfold lastPlace
    omega
  have unit : (k : ℚ) * 2 ^ p / 2 ^ lastPlace (k * 2 ^ p) = (k * 2 ^ n : ℕ) := by
    rw [div_eq_iff (by positivity)]
    conv_lhs => rw [hn, zpow_add₀ (by norm_num), zpow_natCast]
    push_cast
    ring
  rw [rounded, unit, halfEven_natCast, Int.cast_natCast, ← unit,
    div_mul_cancel₀ _ (by positivity)]

theorem lastPlace_mono {p q : ℚ} (hp : 0 < p) (h : p ≤ q) : lastPlace p ≤ lastPlace q := by
  have := Int.log_mono_right (b := 2) hp h
  unfold lastPlace
  omega

/-- Above the least exponent a mantissa has all its digits before the point. -/
theorem mantissa_bounds {q : ℚ} (hq : 0 < q) :
    q / 2 ^ lastPlace q < 2 ^ 53 ∧ (lastPlace q ≠ -1074 → 2 ^ 52 ≤ q / 2 ^ lastPlace q) := by
  have pos : (0 : ℚ) < 2 ^ lastPlace q := by positivity
  have above : q < 2 ^ (Int.log 2 q + 1) := by
    exact_mod_cast Int.lt_zpow_succ_log_self (b := 2) (by decide) q
  have below : (2 : ℚ) ^ Int.log 2 q ≤ q := by
    exact_mod_cast Int.zpow_log_le_self (b := 2) (by decide) hq
  constructor
  · rw [div_lt_iff₀ pos]
    calc q < 2 ^ (Int.log 2 q + 1) := above
      _ ≤ 2 ^ (53 + lastPlace q) := by
        apply zpow_le_zpow_right₀ (by norm_num)
        unfold lastPlace
        omega
      _ = 2 ^ 53 * 2 ^ lastPlace q := by
        rw [zpow_add₀ (by norm_num)]
        norm_num
  · intro least
    have place : lastPlace q = Int.log 2 q - 52 := by
      unfold lastPlace at least ⊢
      omega
    rw [le_div_iff₀ pos]
    calc (2 : ℚ) ^ 52 * 2 ^ lastPlace q = 2 ^ Int.log 2 q := by
          rw [place, ← zpow_natCast, ← zpow_add₀ (by norm_num)]
          norm_num
      _ ≤ q := below

theorem halfEven_mantissa_bounds {q : ℚ} (hq : 0 < q) :
    0 ≤ halfEven (q / 2 ^ lastPlace q) ∧ halfEven (q / 2 ^ lastPlace q) ≤ 2 ^ 53 ∧
      (lastPlace q ≠ -1074 → 2 ^ 52 ≤ halfEven (q / 2 ^ lastPlace q)) := by
  obtain ⟨below, above⟩ := mantissa_bounds hq
  have pos : 0 ≤ q / 2 ^ lastPlace q := by positivity
  refine ⟨?_, ?_, fun least => ?_⟩
  · have := halfEven_mono (a := (0 : ℕ)) (by exact_mod_cast pos)
    rwa [halfEven_natCast] at this
  · have := halfEven_mono (b := (2 ^ 53 : ℕ)) (by exact_mod_cast below.le)
    rwa [halfEven_natCast] at this
  · have := halfEven_mono (a := (2 ^ 52 : ℕ)) (by exact_mod_cast above least)
    rwa [halfEven_natCast] at this

theorem rounded_nonneg {q : ℚ} (hq : 0 ≤ q) : 0 ≤ rounded q := by
  rcases hq.eq_or_lt with rfl | hq
  · rw [rounded_zero]
  · have : (0 : ℚ) ≤ halfEven (q / 2 ^ lastPlace q) := by
      exact_mod_cast (halfEven_mantissa_bounds hq).1
    unfold rounded
    positivity

theorem rounded_mono {p q : ℚ} (hp : 0 ≤ p) (h : p ≤ q) : rounded p ≤ rounded q := by
  rcases hp.eq_or_lt with rfl | hp
  · rw [rounded_zero]
    exact rounded_nonneg h
  have hq := hp.trans_le h
  rcases (lastPlace_mono hp h).eq_or_lt with same | finer
  · have : (halfEven (p / 2 ^ lastPlace q) : ℚ) ≤ halfEven (q / 2 ^ lastPlace q) := by
      exact_mod_cast halfEven_mono (by gcongr)
    unfold rounded
    rw [same]
    gcongr
  · -- a power of two stands between them
    have least : lastPlace q ≠ -1074 := by
      have : -1074 ≤ lastPlace p := le_max_right _ _
      omega
    have most : (halfEven (p / 2 ^ lastPlace p) : ℚ) ≤ 2 ^ 53 := by
      exact_mod_cast (halfEven_mantissa_bounds hp).2.1
    have fewest : (2 : ℚ) ^ 52 ≤ halfEven (q / 2 ^ lastPlace q) := by
      exact_mod_cast (halfEven_mantissa_bounds hq).2.2 least
    calc rounded p ≤ 2 ^ 53 * 2 ^ lastPlace p := by
          unfold rounded
          gcongr
      _ = 2 ^ 52 * 2 ^ (lastPlace p + 1) := by
          rw [zpow_add_one₀ (by norm_num)]
          ring
      _ ≤ 2 ^ 52 * 2 ^ lastPlace q := by
          have : lastPlace p + 1 ≤ lastPlace q := finer
          gcongr
          norm_num
      _ ≤ rounded q := by
          unfold rounded
          gcongr

/-- Above the least exponents a number is rounded by half a place at most. -/
theorem abs_rounded_sub_le {q : ℚ} (normal : 2 ^ (-1022 : ℤ) ≤ q) :
    |rounded q - q| ≤ q / 2 ^ 53 := by
  have hq : 0 < q := lt_of_lt_of_le (by positivity) normal
  have unit : (0 : ℚ) < 2 ^ lastPlace q := by positivity
  have place : lastPlace q = Int.log 2 q - 52 := by
    have : -1022 ≤ Int.log 2 q :=
      (Int.zpow_le_iff_le_log (by decide) hq).1 (by exact_mod_cast normal)
    unfold lastPlace
    omega
  have below : (2 : ℚ) ^ lastPlace q ≤ q / 2 ^ 52 := by
    have : (2 : ℚ) ^ Int.log 2 q ≤ q := by
      exact_mod_cast Int.zpow_log_le_self (b := 2) (by decide) hq
    rw [place, zpow_sub₀ (by norm_num)]
    norm_num at this ⊢
    linarith
  have apart : rounded q - q = (halfEven (q / 2 ^ lastPlace q) - q / 2 ^ lastPlace q) *
      2 ^ lastPlace q := by
    rw [sub_mul, div_mul_cancel₀ _ unit.ne']
    rfl
  rw [apart, abs_mul, abs_of_pos unit]
  calc |halfEven (q / 2 ^ lastPlace q) - q / 2 ^ lastPlace q| * 2 ^ lastPlace q
      ≤ 1 / 2 * 2 ^ lastPlace q := by
        gcongr
        exact abs_halfEven_sub_le _
    _ ≤ 1 / 2 * (q / 2 ^ 52) := by gcongr
    _ = q / 2 ^ 53 := by ring

end Courier
