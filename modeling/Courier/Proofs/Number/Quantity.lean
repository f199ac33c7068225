import Courier.Pacing
import Courier.Proofs.Number.Float
import Courier.Proofs.Time

/-! The arithmetic of delays on doubles. A quantity that is not negative stays so under what delays
are computed with, or it becomes undefined and gives way; what is left is at least as large as what
it was made of, and so is the nearest whole number. -/

namespace Courier

open Float.Model Float.Model.UnpackedFloat

/-- Undefined, zero or positive. -/
def NotNegative : UnpackedFloat → Prop
  | .infinity s | .finite s _ _ _ => s = .positive
  | _ => True

namespace NotNegative

variable {u u' : UnpackedFloat}

theorem zero (s : Sign) : NotNegative (.zero s) := trivial

theorem unpack_components (e : BitVec 11) (m : BitVec 52) :
    NotNegative (UnpackedFloat.unpack Format.binary64
      (packComponents Format.binary64 .positive e m)) := by
  simp only [UnpackedFloat.unpack, unpackSign_packComponents, Sign.ofBitVec_toBitVec]
  split_ifs <;> trivial

theorem pack (h : NotNegative u) : NotNegative (Float.Model.pack u).unpack := by
  cases u with
  | zero s =>
    rw [unpack_pack_zero]
    trivial
  | notANumber => exact unpack_components _ _
  | infinity s =>
    cases h
    exact unpack_components _ _
  | finite s m e hm =>
    cases h
    change NotNegative (UnpackedFloat.unpack Format.binary64 (UnpackedFloat.pack _ _))
    rw [pack_finite]
    split_ifs <;> exact unpack_components _ _

theorem round (m : ℕ) (e : ℤ) (a : Accuracy) :
    NotNegative (roundWithAccuracy Format.binary64 .positive m e a) := by
  unfold roundWithAccuracy
  dsimp only
  split_ifs <;> trivial

theorem mul (h : NotNegative u) (h' : NotNegative u') :
    NotNegative (UnpackedFloat.mul Format.binary64 u u') := by
  cases u <;> cases u' <;> first | trivial | (cases h; cases h'; first | rfl | exact round _ _ _)

theorem div (h : NotNegative u) {m : ℕ} {e : ℤ} {hm : 0 < m} :
    NotNegative (UnpackedFloat.div Format.binary64 u (.finite .positive m e hm)) := by
  cases u <;> first | trivial | (cases h; first | rfl | exact round _ _ _)

/-- What is at least a number that is not negative is not negative. -/
theorem of_le (h : NotNegative u) (le : u.le u' = true) : NotNegative u' := by
  cases u' with
  | zero | notANumber => trivial
  | infinity s | finite s =>
    cases s with
    | positive => rfl
    | negative => cases u <;> first | cases le | (cases h; cases le)

/-- A double that is not negative stands for a number, or is undefined. -/
theorem weighs {x : Float.Model} (h : NotNegative x.unpack) :
    x.unpack = .notANumber ∨ ∃ v, Weighs x.unpack v := by
  generalize hu : x.unpack = u at h
  cases u with
  | notANumber => exact Or.inl rfl
  | zero s => exact Or.inr ⟨0, .zero s⟩
  | infinity s =>
    cases h
    exact Or.inr ⟨_, .infinity⟩
  | finite s m e hm =>
    cases h
    obtain ⟨fits, most⟩ := fits_unpack hu
    exact Or.inr ⟨_, .finite fits most⟩

end NotNegative

theorem notNegative_ofNat (n : ℕ) : NotNegative (UnpackedFloat.ofNat Format.binary64 n) := by
  unfold UnpackedFloat.ofNat UnpackedFloat.ofInt UnpackedFloat.normalize
  split
  · rename_i h
    rw [compare_lt_iff_lt] at h
    omega
  · trivial
  · exact .round _ _ _

theorem notNegative_ofScientific (n : ℕ) (e : ℤ) :
    NotNegative (UnpackedFloat.ofScientific Format.binary64 n e) := by
  unfold UnpackedFloat.ofScientific
  split_ifs
  · trivial
  · rfl
  · trivial
  · exact .round _ _ _
  · exact .round _ _ _

/-- A whole number that is not negative, as a double. -/
theorem notNegative_floatOfInt {n : ℤ} (h : 0 ≤ n) : NotNegative (floatOfInt n).toModel.unpack := by
  rw [floatOfInt, if_neg (by omega), Float.ofNat]
  change NotNegative (Float.ofScientific _ _ _).toModel.unpack
  unfold Float.ofScientific
  simp only [Bool.false_eq_true, if_false]
  split_ifs
  · have one : NotNegative (Float.exactlyRepresentablePowersOfTen[0]).toModel.unpack := by rfl
    generalize Float.exactlyRepresentablePowersOfTen[0] = x at one
    have whole : NotNegative n.natAbs.toUInt64.toFloat.toModel.unpack := (notNegative_ofNat _).pack
    exact NotNegative.pack (whole.mul one)
  · exact (notNegative_ofScientific _ _).pack

theorem weighs_ofNat (n : ℕ) :
    Weighs (Float.Model.pack (UnpackedFloat.ofNat Format.binary64 n)).unpack
      (min (rounded n) (2 ^ 1024)) := by
  rcases n.eq_zero_or_pos with rfl | pos
  · rw [Nat.cast_zero, rounded_zero, min_eq_left (by positivity)]
    exact (Weighs.zero _).pack
  · have more : (0 : ℤ) < n := by exact_mod_cast pos
    have weighs := weighs_normalized pos 0
    rw [zpow_zero, mul_one] at weighs
    simpa only [UnpackedFloat.ofNat, UnpackedFloat.ofInt, UnpackedFloat.normalize,
      compare_gt_iff_gt.2 more, Int.toNat_natCast] using weighs

theorem le_infinity_of_le {q : ℚ} (h : q ≤ 2 ^ (53 : ℤ)) : q ≤ 2 ^ 1024 :=
  h.trans (pow_le_pow_right₀ (by norm_num) (by norm_num : 53 ≤ 1024))

/-- A whole number of no more than 53 digits is a double. -/
theorem min_rounded_natCast {n : ℕ} (small : n < 2 ^ 53) :
    min (rounded n) (2 ^ 1024) = (n : ℚ) := by
  have exact := rounded_mul_zpow small (p := 0) (by norm_num)
  rw [zpow_zero, mul_one] at exact
  rw [exact, min_eq_left (le_infinity_of_le (by exact_mod_cast small.le))]

theorem weighs_floatOfInt {n : ℤ} (h : 0 ≤ n) (small : n < 2 ^ 53) :
    Weighs (floatOfInt n).toModel.unpack n := by
  obtain ⟨k, rfl⟩ := Int.eq_ofNat_of_zero_le h
  have small : k < 2 ^ 53 := by exact_mod_cast small
  have same : k.toUInt64.toNat = k := Nat.mod_eq_of_lt (small.trans (by norm_num))
  have whole : Weighs k.toUInt64.toFloat.toModel.unpack
      (min (rounded k.toUInt64.toNat) (2 ^ 1024)) := weighs_ofNat _
  rw [same, min_rounded_natCast small] at whole
  have one : ((2 ^ 52 : ℕ) : ℚ) * 2 ^ (-52 : ℤ) = 1 := by norm_num
  have unit : (Float.exactlyRepresentablePowersOfTen[0]).toModel.unpack =
      .finite .positive (2 ^ 52) (-52) (by norm_num) := by rfl
  have product :
      Weighs (k.toUInt64.toFloat * Float.exactlyRepresentablePowersOfTen[0]).toModel.unpack
        (min (rounded (k * ((2 ^ 52 : ℕ) * 2 ^ (-52 : ℤ)))) (2 ^ 1024)) :=
    whole.mul unit (by rw [one])
  rw [one, mul_one, min_rounded_natCast small] at product
  rw [floatOfInt, if_neg (by omega), Float.ofNat]
  change Weighs (Float.ofScientific k false 0).toModel.unpack k
  unfold Float.ofScientific
  rw [dif_pos ⟨small, by norm_num⟩]
  exact product

theorem weighs_ofScientific (n : ℕ) : Weighs
    (Float.Model.pack (UnpackedFloat.ofScientific Format.binary64 n 0)).unpack
      (min (rounded n) (2 ^ 1024)) := by
  rcases n.eq_zero_or_pos with rfl | pos
  · rw [Nat.cast_zero, rounded_zero, min_eq_left (by positivity)]
    exact (Weighs.zero _).pack
  · have value : ((n <<< 53 : ℕ) : ℚ) * 2 ^ (-53 : ℤ) = n := by
      have same := shiftLeft_mul_zpow n 0 53
      rwa [zpow_zero, mul_one] at same
    have shifted : 0 < n <<< 53 := Nat.shiftLeft_eq n 53 ▸ by positivity
    have coarser : (-53 : ℤ) ≤ Format.binary64.targetExponent (totalExponent (n <<< 53) (-53)) := by
      have least : 0 ≤ Int.log 2 (n : ℚ) := by
        rw [Int.log_natCast]
        exact Int.natCast_nonneg _
      rw [← lastPlace_mul_zpow shifted, value, lastPlace]
      omega
    have weighs := weighs_round shifted (.exact_mul_zpow _ _) coarser
    rw [value] at weighs
    have small : ¬ (0 : ℤ) < -(2 ^ Format.binary64.exponentBits + (n.log2 : ℤ)) := by
      have : (0 : ℤ) ≤ 2 ^ Format.binary64.exponentBits := by positivity
      omega
    have scientific : UnpackedFloat.ofScientific Format.binary64 n 0 =
        roundWithAccuracy Format.binary64 .positive (n <<< 53) (-53) .exact := by
      unfold UnpackedFloat.ofScientific
      rw [dif_neg pos.ne', if_neg (by decide), if_neg small, if_pos le_rfl, UnpackedFloat.mul]
      have digits : Format.binary64.mantissaBits = 53 := rfl
      rw [digits, Int.toNat_zero, pow_zero, mul_one, Int.add_zero]
      rfl
    rw [scientific]
    exact weighs

/-- Whole numbers that are not negative are numbers as doubles, too. -/
theorem exists_weighs_floatOfInt {n : ℤ} (h : 0 ≤ n) :
    ∃ v, Weighs (floatOfInt n).toModel.unpack v := by
  by_cases small : n < 2 ^ 53
  · exact ⟨n, weighs_floatOfInt h small⟩
  · refine ⟨min (rounded n.natAbs) (2 ^ 1024), ?_⟩
    rw [floatOfInt, if_neg (by omega), Float.ofNat]
    change Weighs (Float.ofScientific n.natAbs false 0).toModel.unpack _
    unfold Float.ofScientific
    rw [dif_neg (by omega)]
    exact weighs_ofScientific n.natAbs

theorem unpack_thousand :
    (floatOfInt 1000).toModel.unpack = .finite .positive 8796093022208000 (-43) (by norm_num) := by
  rfl

theorem float_lt_iff {x y : Float} : x < y ↔ x.toModel.unpack.lt y.toModel.unpack = true :=
  decide_eq_true_iff

theorem float_le_iff {x y : Float} : x ≤ y ↔ x.toModel.unpack.le y.toModel.unpack = true :=
  decide_eq_true_iff

theorem le_of_lt_unpacked {u u' : UnpackedFloat} (h : u.lt u' = true) : u.le u' = true := by
  rw [UnpackedFloat.lt, beq_iff_eq] at h
  rw [UnpackedFloat.le, h]
  rfl

theorem zero_eq : (Quantity.zero : Float) = 0 := rfl

theorem unpack_zero : (0 : Float).toModel.unpack = .zero .positive := by
  rfl

theorem isNaN_pack : (Float.Model.pack .notANumber).unpack.isNaN = true := by
  rfl

/-- A positive double stands for a number, and it is more than zero. -/
theorem weighs_of_pos {x : Float} (h : 0 < x) : (∃ v, Weighs x.toModel.unpack v) ∧ ¬ x ≤ 0 := by
  rw [float_lt_iff, unpack_zero] at h
  rw [float_le_iff, unpack_zero]
  have positive : NotNegative x.toModel.unpack := (NotNegative.zero _).of_le (le_of_lt_unpacked h)
  rcases positive.weighs with undefined | weighs
  · rw [undefined] at h
    cases h
  · refine ⟨weighs, fun le => ?_⟩
    obtain ⟨v, weighs⟩ := weighs
    generalize x.toModel.unpack = u at h le weighs
    cases weighs with
    | zero => cases h
    | finite | infinity => cases le

theorem notNegative_of_le {x : Float} (h : 0 ≤ x) : NotNegative x.toModel.unpack := by
  rw [float_le_iff, unpack_zero] at h
  exact (NotNegative.zero _).of_le h

theorem floor_add_half (n : ℕ) : ⌊(n : ℚ) + 1 / 2⌋₊ = n := by
  rw [Nat.floor_eq_iff (by positivity)]
  constructor <;> linarith

theorem wholeMagnitude_eq (m : ℕ) (e : ℤ) :
    wholeMagnitude m e = ⌊(m : ℚ) * 2 ^ e + 1 / 2⌋₊ := by
  unfold wholeMagnitude
  split_ifs with h
  · have whole : (m : ℚ) * 2 ^ e = (m * 2 ^ e.toNat : ℕ) := by
      conv_lhs => rw [← Int.toNat_of_nonneg h, zpow_natCast]
      push_cast
      rfl
    rw [whole, floor_add_half]
    rfl
  · obtain ⟨k, hk⟩ : ∃ k, (-e).toNat = k + 1 := ⟨(-e).toNat - 1, by omega⟩
    have exponent : e = -((k + 1 : ℕ) : ℤ) := by omega
    have quotient : (m : ℚ) * 2 ^ e + 1 / 2 = (m + 2 ^ k : ℕ) / (2 ^ (k + 1) : ℕ) := by
      rw [exponent, zpow_neg, zpow_natCast]
      push_cast
      field_simp
      ring
    rw [hk, quotient, Nat.floor_div_eq_div, Nat.add_sub_cancel]
    rfl

theorem wholeAbove_eq (m : ℕ) (e : ℤ) : wholeAbove m e = ⌈(m : ℚ) * 2 ^ e⌉₊ := by
  unfold wholeAbove
  split_ifs with h
  · have whole : (m : ℚ) * 2 ^ e = (m * 2 ^ e.toNat : ℕ) := by
      conv_lhs => rw [← Int.toNat_of_nonneg h, zpow_natCast]
      push_cast
      rfl
    rw [whole, Nat.ceil_natCast]
    rfl
  · obtain ⟨k, hk⟩ : ∃ k : ℕ, e = -k := ⟨(-e).toNat, by omega⟩
    have quotient : (m : ℚ) * 2 ^ e = m / (2 ^ k : ℕ) := by
      rw [hk, zpow_neg, zpow_natCast]
      push_cast
      rfl
    have digits : (-e).toNat = k := by omega
    have pos : 0 < 2 ^ k := by positivity
    rw [digits, quotient]
    refine eq_of_forall_ge_iff fun n => ?_
    rw [Nat.ceil_le, div_le_iff₀ (by exact_mod_cast pos)]
    norm_cast
    change (m + (2 ^ k - 1)) / 2 ^ k ≤ n ↔ m ≤ n * 2 ^ k
    rw [Nat.div_le_iff_le_mul_add_pred pos, mul_comm]
    omega

/-- A thousandth that is off by a rounding still leads back: the two roundings together are off by
less than a half, and halves are not rounded here. -/
theorem rounded_thousandfold_bounds {n : ℕ} {r : ℚ} (pos : 1 ≤ n) (small : n ≤ 2 ^ 52)
    (error : |r - n / 1000| ≤ n / 1000 / 2 ^ 53) :
    (n : ℚ) - 1 / 2 ≤ rounded (r * 1000) ∧ rounded (r * 1000) ≤ n + 1 := by
  have least : (1 : ℚ) ≤ n := by exact_mod_cast pos
  have most : (n : ℚ) ≤ 2 ^ 52 := by exact_mod_cast small
  obtain ⟨below, above⟩ := abs_le.1 error
  have lower : (n : ℚ) - 1 / 2 ≤ r * 1000 := by linarith
  have upper : r * 1000 ≤ n + 1 := by linarith
  have half := rounded_mul_zpow (k := 2 * n - 1) (p := -1) (by omega) (by norm_num)
  have next := rounded_mul_zpow (k := n + 1) (p := 0) (by omega) (by norm_num)
  have cast : ((2 * n - 1 : ℕ) : ℚ) * 2 ^ (-1 : ℤ) = n - 1 / 2 := by
    rw [Nat.cast_sub (by omega)]
    push_cast
    norm_num
    ring
  rw [cast] at half
  rw [zpow_zero, mul_one, Nat.cast_add, Nat.cast_one] at next
  exact ⟨half ▸ rounded_mono (by linarith) lower, next ▸ rounded_mono (by linarith) upper⟩

namespace Weighs

variable {x y : Float} {v w : ℚ}

theorem notNegative {u : UnpackedFloat} (h : Weighs u v) : NotNegative u := by
  cases h <;> trivial

/-- The whole number nearest to what a double stands for. -/
theorem wholeOfFloat_eq (h : Weighs x.toModel.unpack v) :
    wholeOfFloat x = min 9223372036854775807 (⌊v + 1 / 2⌋₊ : ℤ) := by
  unfold wholeOfFloat
  generalize x.toModel.unpack = u at h
  cases h with
  | zero s =>
    have half := floor_add_half 0
    rw [Nat.cast_zero] at half
    rw [half]
    norm_num
  | finite fits most =>
    simp only [Sign.apply, wholeMagnitude_eq]
    omega
  | infinity =>
    have whole := floor_add_half (2 ^ 1024)
    rw [Nat.cast_pow, Nat.cast_ofNat] at whole
    have large : (9223372036854775807 : ℤ) ≤ (2 ^ 1024 : ℕ) := by
      have less : (9223372036854775807 : ℤ) ≤ 2 ^ 63 := by norm_num
      rw [Nat.cast_pow, Nat.cast_ofNat]
      exact less.trans (pow_le_pow_right₀ (by norm_num) (by norm_num))
    rw [whole, min_eq_left large]
    rfl

/-- The least whole number from what a double stands for on. -/
theorem ceilOfFloat_eq (h : Weighs x.toModel.unpack v) :
    ceilOfFloat x = min 18446744073709551615 ⌈v⌉₊ := by
  unfold ceilOfFloat
  generalize x.toModel.unpack = u at h
  cases h with
  | zero s =>
    rw [Nat.ceil_zero]
    rfl
  | finite fits most =>
    rw [← wholeAbove_eq]
  | infinity =>
    have whole := Nat.ceil_natCast (R := ℚ) (2 ^ 1024)
    rw [Nat.cast_pow, Nat.cast_ofNat] at whole
    have large : 18446744073709551615 ≤ 2 ^ 1024 := by
      have less : 18446744073709551615 ≤ 2 ^ 64 := by norm_num
      exact less.trans (pow_le_pow_right₀ (by norm_num) (by norm_num))
    rw [whole, min_eq_left large]

/-- A positive number that is not too large is a mantissa with an exponent. -/
theorem exists_finite {u : UnpackedFloat} (h : Weighs u v) (pos : 0 < v) (less : v < 2 ^ 1024) :
    ∃ m e, ∃ hm : 0 < m, u = .finite .positive m e hm ∧ (m : ℚ) * 2 ^ e = v := by
  cases h with
  | zero => exact absurd pos (lt_irrefl 0)
  | infinity => exact absurd less (lt_irrefl _)
  | @finite m e hm fits most => exact ⟨m, e, hm, rfl, rfl⟩

theorem wholeOfFloat_mono (hx : Weighs x.toModel.unpack v) (hy : Weighs y.toModel.unpack w)
    (le : v ≤ w) : wholeOfFloat x ≤ wholeOfFloat y := by
  rw [hx.wholeOfFloat_eq, hy.wholeOfFloat_eq]
  gcongr

theorem not_isNaN (h : Weighs x.toModel.unpack v) : x.isNaN = false := by
  change x.toModel.unpack.isNaN = false
  generalize x.toModel.unpack = u at h
  cases h <;> rfl

theorem atLeast_zero (h : Weighs x.toModel.unpack v) :
    Quantity.atLeast x (Quantity.zero : Float) = x := by
  rw [zero_eq]
  have least : ¬ x < 0 := fun below => by
    rw [float_lt_iff, unpack_zero] at below
    generalize x.toModel.unpack = u at h below
    cases h <;> cases below
  change (if x.isNaN then _ else if x < _ then _ else x) = x
  rw [h.not_isNaN, if_neg (by decide), if_neg least]

/-- What a double is at most is at least what it stands for. -/
theorem exists_of_le (hx : Weighs x.toModel.unpack v) (le : x ≤ y) :
    ∃ w, Weighs y.toModel.unpack w ∧ v ≤ w := by
  rw [float_le_iff] at le
  rcases (hx.notNegative.of_le le).weighs with undefined | ⟨w, hy⟩
  · rw [undefined] at le
    generalize x.toModel.unpack = u at le
    cases u <;> cases le
  · exact ⟨w, hy, hx.le hy le⟩

/-- Adding what is not negative makes a double larger, or undefined. -/
theorem add_cases (hx : Weighs x.toModel.unpack v) (hy : NotNegative y.toModel.unpack) :
    (x + y).isNaN = true ∨ ∃ w, Weighs (x + y).toModel.unpack w ∧ v ≤ w := by
  rcases hy.weighs with undefined | ⟨w, hy⟩
  · left
    change (Float.Model.pack (UnpackedFloat.add _ x.toModel.unpack _)).unpack.isNaN = _
    rw [undefined]
    generalize x.toModel.unpack = u
    cases u <;> exact isNaN_pack
  · refine Or.inr ⟨_, hx.add hy, ?_⟩
    have := hx.nonneg
    have more : rounded v ≤ rounded (v + w) :=
      rounded_mono (by positivity) (le_add_of_nonneg_right hy.nonneg)
    calc v = min (rounded v) (2 ^ 1024) := hx.min_rounded.symm
      _ ≤ min (rounded (v + w)) (2 ^ 1024) := min_le_min_right _ more

/-- Milliseconds of a delay. -/
theorem thousandfold (h : Weighs x.toModel.unpack v) :
    Weighs (Quantity.mul x (Quantity.ofInt 1000 : Float)).toModel.unpack
      (min (rounded (v * 1000)) (2 ^ 1024)) := by
  have thousand : ((8796093022208000 : ℕ) : ℚ) * 2 ^ (-43 : ℤ) = 1000 := by norm_num
  have := h.mul unpack_thousand (by rw [thousand]; norm_num)
  rwa [thousand] at this

/-- A number of milliseconds is turned into seconds and back, and rounded up: it comes back, or one
more does. -/
theorem ceilOfFloat_thousandths {n : ℕ} (pos : 1 ≤ n) (small : n ≤ 2 ^ 52)
    (h : Weighs x.toModel.unpack n) :
    n ≤ ceilOfFloat (x / 1000.0 * 1000.0) ∧ ceilOfFloat (x / 1000.0 * 1000.0) ≤ n + 1 := by
  have least : (1 : ℚ) ≤ n := by exact_mod_cast pos
  have most : (n : ℚ) + 1 ≤ 2 ^ (53 : ℤ) := by
    exact_mod_cast (by omega : n + 1 ≤ 2 ^ 53)
  have thousand : ((8796093022208000 : ℕ) : ℚ) * 2 ^ (-43 : ℤ) = 1000 := by norm_num
  have divisor : (1000.0 : Float).toModel.unpack =
      .finite .positive 8796093022208000 (-43) (by norm_num) := by rfl
  have normal : ∀ k : ℤ, k ≤ -10 → (2 : ℚ) ^ k ≤ n / 1000 := fun k hk =>
    calc (2 : ℚ) ^ k ≤ 2 ^ (-10 : ℤ) := zpow_le_zpow_right₀ (by norm_num) hk
      _ ≤ n / 1000 := by
        norm_num
        linarith
  obtain ⟨m, e, hm, unpacked, value⟩ := h.exists_finite (lt_of_lt_of_le one_pos least)
    ((lt_add_one _).trans_le (le_infinity_of_le most))
  obtain ⟨r, hr⟩ : ∃ r, rounded ((n : ℚ) / 1000) = r := ⟨_, rfl⟩
  have error := abs_rounded_sub_le (normal (-1022) (by norm_num))
  rw [hr] at error
  have seconds : Weighs (x / 1000.0).toModel.unpack r := by
    have quotient := Weighs.div unpacked divisor
      (by rw [value, thousand]; exact normal (-1000) (by norm_num))
    have := (abs_le.1 error).2
    rw [value, thousand, hr, min_eq_left (le_infinity_of_le (by linarith))] at quotient
    exact quotient
  obtain ⟨lower, upper⟩ := rounded_thousandfold_bounds pos small error
  have back : Weighs (x / 1000.0 * 1000.0).toModel.unpack (rounded (r * 1000)) := by
    have product := seconds.mul divisor (by rw [thousand]; norm_num)
    rw [thousand, min_eq_left (le_infinity_of_le (upper.trans most))] at product
    exact product
  have least_ceil : n - 1 < ⌈rounded (r * 1000)⌉₊ := by
    rw [Nat.lt_ceil, Nat.cast_sub pos, Nat.cast_one]
    linarith
  have most_ceil : ⌈rounded (r * 1000)⌉₊ ≤ n + 1 := by
    rw [Nat.ceil_le]
    exact_mod_cast upper
  rw [back.ceilOfFloat_eq]
  omega

/-- A longer delay is a longer span. -/
theorem ofQuantity_mono (hx : Weighs x.toModel.unpack v) (hy : Weighs y.toModel.unpack w)
    (le : v ≤ w) : Span.ofQuantity x ≤ Span.ofQuantity y := by
  have := hx.nonneg
  have millis : min (rounded (v * 1000)) (2 ^ 1024) ≤ min (rounded (w * 1000)) (2 ^ 1024) :=
    min_le_min_right _ (rounded_mono (by positivity) (by gcongr))
  have := hx.thousandfold.wholeOfFloat_mono hy.thousandfold millis
  rw [Span.ofQuantity, Span.ofQuantity, hx.atLeast_zero, hy.atLeast_zero]
  exact Span.ofMillis_mono this

/-- A number sees to it that the larger of two is not negative, nor undefined. -/
theorem notNegative_atLeast (h : Weighs y.toModel.unpack v) :
    NotNegative (Quantity.atLeast x y).toModel.unpack := by
  change NotNegative (if x.isNaN then y else if x < y then y else x).toModel.unpack
  split_ifs with undefined less
  · exact h.notNegative
  · exact h.notNegative
  · rw [float_lt_iff] at less
    generalize x.toModel.unpack = u at less ⊢
    cases u with
    | zero | notANumber => trivial
    | infinity s | finite s =>
      cases s with
      | positive => rfl
      | negative =>
        generalize y.toModel.unpack = w at less h
        cases h <;> exact absurd rfl less
end Weighs

theorem NotNegative.wholeOfFloat_nonneg {x : Float} (h : NotNegative x.toModel.unpack) :
    0 ≤ wholeOfFloat x := by
  rcases h.weighs with undefined | ⟨v, weighs⟩
  · rw [wholeOfFloat, undefined]
    decide
  · rw [weighs.wholeOfFloat_eq]
    omega

end Courier
