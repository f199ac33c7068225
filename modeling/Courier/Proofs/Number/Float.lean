import Courier.Number.Quantity
import Courier.Proofs.Number.Rounding

/-! Doubles as the numbers they stand for. A sum or a product of doubles that are not negative is
the rounded sum or product of what they stand for, so it grows with them. -/

namespace Courier

open Float.Model Float.Model.UnpackedFloat

/-- The mantissa and the exponent of a double, an exponent that is too large apart. -/
structure Fits (m : ℕ) (e : ℤ) : Prop where
  small : m < 2 ^ 53
  least : -1074 ≤ e
  full : e = -1074 ∨ 2 ^ 52 ≤ m

theorem targetExponent_eq (m : ℕ) (e : ℤ) :
    Format.binary64.targetExponent (totalExponent m e) = max (m.log2 + e - 52) (-1074) := by
  simp only [Format.targetExponent, totalExponent, Format.mantissaBits, Format.minExponent]
  norm_num
  omega

theorem zpow_log2_le {m : ℕ} (hm : 0 < m) (e : ℤ) : (2 : ℚ) ^ (m.log2 + e) ≤ m * 2 ^ e := by
  have : (2 : ℚ) ^ m.log2 ≤ m := by exact_mod_cast Nat.log2_self_le hm.ne'
  rw [zpow_add₀ (by norm_num), zpow_natCast]
  gcongr

theorem le_zpow_log2 (m : ℕ) (e : ℤ) : ((m : ℚ) + 1) * 2 ^ e ≤ 2 ^ (m.log2 + e + 1) := by
  have : (m : ℚ) + 1 ≤ 2 ^ (m.log2 + 1) := by exact_mod_cast Nat.lt_log2_self
  rw [add_right_comm, zpow_add₀ (by norm_num),
    show (m.log2 : ℤ) + 1 = (m.log2 + 1 : ℕ) from rfl, zpow_natCast]
  gcongr

/-- The last place of a number is that of its mantissa, whatever comes after the point. -/
theorem lastPlace_of_floor {m : ℕ} (hm : 0 < m) {e : ℤ} {q : ℚ} (below : (m : ℚ) * 2 ^ e ≤ q)
    (above : q < (m + 1) * 2 ^ e) :
    lastPlace q = Format.binary64.targetExponent (totalExponent m e) := by
  have pos : 0 < q := lt_of_lt_of_le (by positivity) below
  have least := (Int.zpow_le_iff_le_log (b := 2) (by decide) pos).1
    (by exact_mod_cast (zpow_log2_le hm e).trans below)
  have most := log_lt_of_lt pos (above.trans_le (le_zpow_log2 m e))
  rw [lastPlace, targetExponent_eq]
  omega

/-- The digits of a quotient are those of its operands, or one less. -/
theorem quotient_bounds {m m' : ℕ} (hm : 0 < m) (hm' : 0 < m') (e e' : ℤ) :
    (2 : ℚ) ^ (m.log2 + e - (m'.log2 + e' + 1)) ≤ (m * 2 ^ e) / (m' * 2 ^ e') ∧
      (m * 2 ^ e : ℚ) / (m' * 2 ^ e') < 2 ^ (m.log2 + e + 1 - (m'.log2 + e')) := by
  have pos : (0 : ℚ) < m' * 2 ^ e' := by positivity
  have below : ∀ (k : ℕ) (x : ℤ), (k : ℚ) * 2 ^ x < 2 ^ (k.log2 + x + 1) := fun k x =>
    (mul_lt_mul_of_pos_right (lt_add_one (k : ℚ)) (by positivity)).trans_le (le_zpow_log2 k x)
  rw [zpow_sub₀ (by norm_num), zpow_sub₀ (by norm_num)]
  exact ⟨div_le_div₀ (by positivity) (zpow_log2_le hm e) pos (below m' e').le,
    div_lt_div₀ (below m e) (zpow_log2_le hm' e') (by positivity) (by positivity)⟩

theorem lastPlace_mul_zpow {m : ℕ} (hm : 0 < m) (e : ℤ) :
    lastPlace (m * 2 ^ e) = Format.binary64.targetExponent (totalExponent m e) := by
  refine lastPlace_of_floor hm le_rfl ?_
  gcongr
  exact lt_add_one _

theorem Fits.target_le {m : ℕ} {e : ℤ} (fits : Fits m e) :
    Format.binary64.targetExponent (totalExponent m e) ≤ e := by
  have : m.log2 ≤ 52 := by
    by_cases hm : m = 0
    · simp [hm]
    · have := (Nat.log2_lt hm).2 fits.small
      omega
  have := fits.least
  rw [targetExponent_eq]
  omega

/-- A double is rounded to itself. -/
theorem Fits.rounded_eq {m : ℕ} {e : ℤ} (fits : Fits m e) : rounded (m * 2 ^ e) = m * 2 ^ e :=
  rounded_mul_zpow fits.small fits.least

/-- Nothing is dropped from a mantissa that fits. -/
theorem Fits.shift_eq {m : ℕ} {e : ℤ} (fits : Fits m e) :
    shiftToTargetExponent Format.binary64 m e .exact = (⟨m, false, false⟩, e) := by
  have none_dropped : (Format.binary64.targetExponent (totalExponent m e) - e).toNat = 0 := by
    have := fits.target_le
    omega
  rw [shiftToTargetExponent, shiftToExponent, none_dropped]
  simp only [Nat.cast_zero, add_zero]
  rfl

/-- A mantissa that was rounded up to one place more gives up its last place, which is zero. -/
theorem shift_carry {e : ℤ} (least : -1074 ≤ e) :
    shiftToTargetExponent Format.binary64 (2 ^ 53) e .exact =
      (⟨2 ^ 52, false, false⟩, e + 1) := by
  have one_dropped :
      (Format.binary64.targetExponent (totalExponent (2 ^ 53) e) - e).toNat = 1 := by
    rw [targetExponent_eq, Nat.log2_two_pow]
    omega
  rw [shiftToTargetExponent, shiftToExponent, one_dropped]
  rfl

/-- What is rounded as the hardware does it is the rounded number. -/
theorem roundWithAccuracy_eq {m : ℕ} {e : ℤ} {a : Accuracy} {q : ℚ} (hm : 0 < m)
    (approx : Approximates (.ofMantissaAndAccuracy m a) (q / 2 ^ e))
    (coarser : e ≤ Format.binary64.targetExponent (totalExponent m e)) (s : Sign) :
    ∃ r x, Fits r x ∧ (r : ℚ) * 2 ^ x = rounded q ∧
      roundWithAccuracy Format.binary64 s m e a =
        if h : r = 0 then .zero s else .finite s r x (Nat.pos_of_ne_zero h) := by
  obtain ⟨t, ht⟩ : ∃ t, Format.binary64.targetExponent (totalExponent m e) = t := ⟨_, rfl⟩
  rw [ht] at coarser
  have unit : (0 : ℚ) < 2 ^ e := by positivity
  obtain ⟨below, above⟩ := approx.bounds
  rw [le_div_iff₀ unit] at below
  rw [div_lt_iff₀ unit] at above
  have place : lastPlace q = t := ht ▸ lastPlace_of_floor hm below above
  have pos : 0 < q := lt_of_lt_of_le (by positivity) below
  obtain ⟨em, hem⟩ : ∃ em, ExtendedMantissa.ofMantissaAndAccuracy m a >>> (t - e).toNat = em :=
    ⟨_, rfl⟩
  have first : shiftToTargetExponent Format.binary64 m e a = (em, t) := by
    rw [shiftToTargetExponent, shiftToExponent, ht, hem]
    congr 1
    omega
  have scaled : q / 2 ^ e / 2 ^ (t - e).toNat = q / 2 ^ t := by
    have : t = e + (t - e).toNat := by omega
    conv_rhs => rw [this, zpow_add₀ (by norm_num), zpow_natCast]
    rw [div_div]
  have mantissa : (em.roundedMantissa : ℤ) = halfEven (q / 2 ^ t) := by
    rw [← hem, (approx.shiftRight _).roundedMantissa_eq, scaled]
  obtain ⟨-, most, fewest⟩ := halfEven_mantissa_bounds pos
  rw [place, ← mantissa] at most fewest
  have least : -1074 ≤ t := place ▸ le_max_right _ _
  have value : (em.roundedMantissa : ℚ) * 2 ^ t = rounded q := by
    rw [rounded, place, ← mantissa]
    rfl
  rcases Nat.lt_or_ge em.roundedMantissa (2 ^ 53) with small | large
  · have fits : Fits em.roundedMantissa t := ⟨small, least, by omega⟩
    refine ⟨_, _, fits, value, ?_⟩
    simp only [roundWithAccuracy, first, fits.shift_eq]
  · have full : em.roundedMantissa = 2 ^ 53 := by omega
    refine ⟨2 ^ 52, t + 1, ⟨by norm_num, by omega, Or.inr le_rfl⟩, ?_, ?_⟩
    · rw [← value, full, zpow_add_one₀ (by norm_num)]
      push_cast
      ring
    · simp only [roundWithAccuracy, first, full, shift_carry least]

theorem infinity_eq : (2 : ℚ) ^ 1024 = 2 ^ 53 * 2 ^ (971 : ℤ) := by
  rw [show (971 : ℤ) = (971 : ℕ) from rfl, zpow_natCast, ← pow_add]

/-- The double is a number that is not negative and stands for `v`, where an infinite one stands
for the first number that is too large. -/
inductive Weighs : UnpackedFloat → ℚ → Prop
  | zero (s : Sign) : Weighs (.zero s) 0
  | finite {m : ℕ} {e : ℤ} {h : 0 < m} (fits : Fits m e) (most : e ≤ 971) :
    Weighs (.finite .positive m e h) (m * 2 ^ e)
  | infinity : Weighs (.infinity .positive) (2 ^ 1024)

theorem unpack_pack_infinity (s : Sign) :
    (Float.Model.pack (.infinity s)).unpack = .infinity s := by
  change UnpackedFloat.unpack Format.binary64 (packedInfinity Format.binary64 s) = _
  simp [UnpackedFloat.unpack, packedInfinity]

theorem unpack_pack_zero (s : Sign) : (Float.Model.pack (.zero s)).unpack = .zero s :=
  unpack_packedZero

theorem toNat_implicit {m : ℕ} (full : 2 ^ 52 ≤ m) (small : m < 2 ^ 53) :
    (1#1 ++ BitVec.ofNat 52 m).toNat = m := by
  rw [BitVec.toNat_append, ← Nat.shiftLeft_add_eq_or_of_lt (BitVec.isLt _), BitVec.toNat_ofNat]
  simp [Nat.shiftLeft_eq]
  omega

theorem pack_finite (s : Sign) {m : ℕ} (e : ℤ) (hm : 0 < m) :
    UnpackedFloat.pack Format.binary64 (.finite s m e hm) =
      if 2048 ≤ (e + 1023 + 52).toNat + 1 then packedInfinity Format.binary64 s
      else if m.log2 + 1 = 53 then
        packComponents Format.binary64 s (BitVec.ofNat 11 (e + 1023 + 52).toNat) (BitVec.ofNat 52 m)
      else packComponents Format.binary64 s 0#11 (BitVec.ofNat 52 m) := rfl

theorem unpack_overflow {m : ℕ} {e : ℤ} (large : 971 < e) (s : Sign) (hm : 0 < m) :
    (Float.Model.pack (.finite s m e hm)).unpack = .infinity s := by
  change UnpackedFloat.unpack Format.binary64 (UnpackedFloat.pack _ _) = _
  rw [pack_finite, if_pos (by omega)]
  exact unpack_pack_infinity s

theorem unpack_normal {m : ℕ} {e : ℤ} (full : 2 ^ 52 ≤ m) (small : m < 2 ^ 53) (least : -1074 ≤ e)
    (most : e ≤ 971) (s : Sign) (hm : 0 < m) :
    (Float.Model.pack (.finite s m e hm)).unpack = .finite s m e hm := by
  have digits : m.log2 + 1 = 53 := by
    have := (Nat.le_log2 hm.ne').2 full
    have := (Nat.log2_lt hm.ne').2 small
    omega
  have exponent : (BitVec.ofNat 11 (e + 1023 + 52).toNat).toNat = (e + 1023 + 52).toNat := by
    rw [BitVec.toNat_ofNat]
    omega
  have finite : BitVec.ofNat 11 (e + 1023 + 52).toNat ≠ -1#11 := fun h => by
    have := congrArg BitVec.toNat h
    rw [exponent] at this
    change _ = 2047 at this
    omega
  have normal : BitVec.ofNat 11 (e + 1023 + 52).toNat ≠ 0#11 := fun h => by
    have := congrArg BitVec.toNat h
    rw [exponent] at this
    change _ = 0 at this
    omega
  change UnpackedFloat.unpack Format.binary64 (UnpackedFloat.pack _ _) = _
  rw [pack_finite, if_neg (by omega), if_pos digits]
  simp only [UnpackedFloat.unpack, unpackExponent_packComponents, unpackMantissa_packComponents,
    unpackSign_packComponents, Sign.ofBitVec_toBitVec, if_neg finite, if_neg normal]
  congr 1
  · exact toNat_implicit full small
  · rw [exponent]
    change ((e + 1023 + 52).toNat : ℤ) - (1023 + 52) = e
    omega

theorem unpack_subnormal {m : ℕ} (small : m < 2 ^ 52) (s : Sign) (hm : 0 < m) :
    (Float.Model.pack (.finite s m (-1074) hm)).unpack = .finite s m (-1074) hm := by
  have digits : m.log2 + 1 ≠ 53 := by
    have := (Nat.log2_lt hm.ne').2 small
    omega
  have mantissa : (BitVec.ofNat 52 m).toNat = m := by
    rw [BitVec.toNat_ofNat, Nat.mod_eq_of_lt small]
  have nonzero : BitVec.ofNat 52 m ≠ 0#52 := fun h => by
    have := congrArg BitVec.toNat h
    rw [mantissa] at this
    exact hm.ne' this
  change UnpackedFloat.unpack Format.binary64 (UnpackedFloat.pack _ _) = _
  rw [pack_finite, if_neg (by norm_num), if_neg digits]
  simp only [UnpackedFloat.unpack, unpackExponent_packComponents, unpackMantissa_packComponents,
    unpackSign_packComponents, Sign.ofBitVec_toBitVec, dif_neg nonzero]
  rw [if_neg (by decide), if_pos trivial]
  congr 1

theorem Fits.le_infinity {m : ℕ} {e : ℤ} (fits : Fits m e) (most : e ≤ 971) :
    (m : ℚ) * 2 ^ e ≤ 2 ^ 1024 := by
  have : (m : ℚ) ≤ 2 ^ 53 := by exact_mod_cast fits.small.le
  have : (2 : ℚ) ^ e ≤ 2 ^ (971 : ℤ) := zpow_le_zpow_right₀ (by norm_num) most
  rw [infinity_eq]
  gcongr

/-- A mantissa that fits comes back from its bits, unless its exponent is too large. -/
theorem Fits.weighs {m : ℕ} {e : ℤ} (fits : Fits m e) (hm : 0 < m) :
    Weighs (Float.Model.pack (.finite .positive m e hm)).unpack (min (m * 2 ^ e) (2 ^ 1024)) := by
  rcases lt_or_ge 971 e with large | most
  · have full : (2 : ℚ) ^ 52 ≤ m := by
      exact_mod_cast fits.full.resolve_left (by omega)
    have beyond : (2 : ℚ) ^ 1024 ≤ m * 2 ^ e := by
      have : (2 : ℚ) ^ (972 : ℤ) ≤ 2 ^ e := zpow_le_zpow_right₀ (by norm_num) large
      calc (2 : ℚ) ^ 1024 = 2 ^ 52 * (2 : ℚ) ^ (972 : ℤ) := by
            rw [show (972 : ℤ) = (972 : ℕ) from rfl, zpow_natCast, ← pow_add]
        _ ≤ (m : ℚ) * 2 ^ e := by gcongr
    rw [min_eq_right beyond, unpack_overflow large]
    exact .infinity
  · rw [min_eq_left (fits.le_infinity most)]
    rcases Nat.lt_or_ge m (2 ^ 52) with small | full
    · obtain rfl : e = -1074 := fits.full.resolve_right (by omega)
      rw [unpack_subnormal small]
      exact .finite fits most
    · rw [unpack_normal full fits.small fits.least most]
      exact .finite fits most

/-- The mantissa and the exponent of every finite double fit. -/
theorem fits_unpack {x : Float.Model} {s : Sign} {m : ℕ} {e : ℤ} {h : 0 < m}
    (hx : x.unpack = .finite s m e h) : Fits m e ∧ e ≤ 971 := by
  let bits : BitVec Format.binary64.numBits := x.toBits.toBitVec
  obtain ⟨exponent, hexponent⟩ : ∃ v : BitVec 11, unpackExponent bits = v := ⟨_, rfl⟩
  obtain ⟨mantissa, hmantissa⟩ : ∃ v : BitVec 52, unpackMantissa bits = v := ⟨_, rfl⟩
  change UnpackedFloat.unpack Format.binary64 bits = _ at hx
  have := exponent.isLt
  have digits := mantissa.isLt
  simp only [UnpackedFloat.unpack, hexponent, hmantissa] at hx
  have bias : ((Format.binary64.exponentBias : ℕ) : ℤ) + (52 : ℕ) = 1075 := rfl
  split_ifs at hx with infinite _ least
  · cases hx
    rw [bias, least]
    exact ⟨⟨by omega, by decide, Or.inl (by decide)⟩, by decide⟩
  · cases hx
    have implicit : (1#1 ++ mantissa).toNat = 2 ^ 52 + mantissa.toNat := by
      rw [BitVec.toNat_append, ← Nat.shiftLeft_add_eq_or_of_lt digits]
      rfl
    have finite : exponent.toNat ≠ 2047 := fun h => infinite (BitVec.toNat_inj.1 h)
    have normal : exponent.toNat ≠ 0 := fun h => least (BitVec.toNat_inj.1 h)
    rw [bias, implicit]
    exact ⟨⟨by omega, by omega, Or.inr (by omega)⟩, by omega⟩

/-- What a rounded number stands for. -/
theorem weighs_round {m : ℕ} {e : ℤ} {a : Accuracy} {q : ℚ} (hm : 0 < m)
    (approx : Approximates (.ofMantissaAndAccuracy m a) (q / 2 ^ e))
    (coarser : e ≤ Format.binary64.targetExponent (totalExponent m e)) :
    Weighs (Float.Model.pack (roundWithAccuracy Format.binary64 .positive m e a)).unpack
      (min (rounded q) (2 ^ 1024)) := by
  obtain ⟨r, x, fits, value, round⟩ := roundWithAccuracy_eq hm approx coarser .positive
  rw [round, ← value]
  split_ifs with hr
  · have none_left : min ((r : ℚ) * 2 ^ x) (2 ^ 1024) = 0 := by
      rw [hr]
      norm_num
    rw [none_left]
    rw [unpack_pack_zero]
    exact .zero .positive
  · exact fits.weighs (Nat.pos_of_ne_zero hr)

theorem Weighs.nonneg {u : UnpackedFloat} {v : ℚ} (h : Weighs u v) : 0 ≤ v := by
  cases h <;> positivity

theorem Weighs.le_infinity {u : UnpackedFloat} {v : ℚ} (h : Weighs u v) : v ≤ 2 ^ 1024 := by
  cases h with
  | zero => positivity
  | infinity => exact le_rfl
  | finite fits most => exact fits.le_infinity most

/-- Mantissas and exponents that fit are compared from the exponent on. -/
theorem Fits.le {m m' : ℕ} {e e' : ℤ} (fits : Fits m e) (fits' : Fits m' e')
    (le : ((compare e e').then (compare m m')).isLE = true) : (m : ℚ) * 2 ^ e ≤ m' * 2 ^ e' := by
  rcases lt_trichotomy e e' with lower | rfl | higher
  · have small : (m : ℚ) ≤ 2 ^ 53 := by exact_mod_cast fits.small.le
    have full : (2 : ℚ) ^ 52 ≤ m' := by
      have := fits.least
      exact_mod_cast fits'.full.resolve_left (by omega)
    have : (2 : ℚ) ^ (e + 1) ≤ 2 ^ e' := zpow_le_zpow_right₀ (by norm_num) lower
    calc (m : ℚ) * 2 ^ e ≤ 2 ^ 53 * 2 ^ e := by gcongr
      _ = 2 ^ 52 * (2 : ℚ) ^ (e + 1) := by
        rw [zpow_add_one₀ (by norm_num)]
        ring
      _ ≤ (m' : ℚ) * 2 ^ e' := by gcongr
  · have : m ≤ m' := by
      simpa [compare_eq_iff_eq.2, Nat.isLE_compare] using le
    gcongr
  · rw [compare_gt_iff_gt.2 higher] at le
    cases le

/-- A double is at most another only if what it stands for is. -/
theorem Weighs.le {u u' : UnpackedFloat} {v v' : ℚ} (h : Weighs u v) (h' : Weighs u' v')
    (le : u.le u' = true) : v ≤ v' := by
  cases h with
  | zero => exact h'.nonneg
  | infinity =>
    cases h' with
    | infinity => exact le_rfl
    | zero | finite => cases le
  | finite fits most =>
    cases h' with
    | infinity => exact fits.le_infinity most
    | zero => cases le
    | finite fits' => exact fits.le fits' le

theorem shiftLeft_mul_zpow (m : ℕ) (e : ℤ) (n : ℕ) :
    ((m <<< n : ℕ) : ℚ) * 2 ^ (e - n) = m * 2 ^ e := by
  rw [Nat.shiftLeft_eq, zpow_sub₀ (by norm_num), zpow_natCast]
  push_cast
  field_simp

theorem weighs_normalized {m : ℕ} (hm : 0 < m) (e : ℤ) :
    Weighs (Float.Model.pack (UnpackedFloat.round Format.binary64 .positive m e)).unpack
      (min (rounded (m * 2 ^ e)) (2 ^ 1024)) := by
  obtain ⟨n, hn⟩ : ∃ n, (e - Format.binary64.targetExponent (totalExponent m e)).toNat = n :=
    ⟨_, rfl⟩
  have same := shiftLeft_mul_zpow m e n
  have pos : 0 < m <<< n := Nat.shiftLeft_eq m n ▸ by positivity
  have coarser : e - n ≤ Format.binary64.targetExponent (totalExponent (m <<< n) (e - n)) := by
    rw [← lastPlace_mul_zpow pos, same, lastPlace_mul_zpow hm]
    omega
  rw [UnpackedFloat.round, decreaseExponent, hn, ← same]
  exact weighs_round pos (.exact_mul_zpow _ _) coarser

/-- Two numbers are brought to the smaller exponent, and their mantissas are added. -/
theorem add_finite {m m' : ℕ} (e e' : ℤ) (hm : 0 < m) (hm' : 0 < m') :
    UnpackedFloat.add Format.binary64 (.finite .positive m e hm) (.finite .positive m' e' hm') =
      .round Format.binary64 .positive
        (m <<< (e - min e e').toNat + m' <<< (e' - min e e').toNat) (min e e') := by
  have pos : 0 < m <<< (e - min e e').toNat := Nat.shiftLeft_eq m _ ▸ by positivity
  have sum : (0 : ℤ) < (m <<< (e - min e e').toNat : ℕ) + (m' <<< (e' - min e e').toNat : ℕ) := by
    exact_mod_cast Nat.add_pos_left pos _
  simp only [UnpackedFloat.add, decreaseExponent, Sign.apply, UnpackedFloat.normalize,
    compare_gt_iff_gt.2 sum]
  congr 1

/-- A quotient is computed with all digits before the point that it has down to the exponent `t`,
and what is left over is known by its size. -/
theorem div_finite {m m' : ℕ} {e e' t : ℤ} {n : ℕ} (hm : 0 < m) (hm' : 0 < m')
    (ht : min (e - e') (Format.binary64.targetExponent
      (totalExponent m e - totalExponent m' e')) = t) (hn : e - e' = t + n) :
    UnpackedFloat.div Format.binary64 (.finite .positive m e hm) (.finite .positive m' e' hm') =
      roundWithAccuracy Format.binary64 .positive ((m <<< n) / m') t
        (accuracyOfFraction ((m <<< n) % m') m') := by
  have shift : (e - e' - t).toNat = n := by omega
  simp only [UnpackedFloat.div, divCore, ht, shift]
  rfl

theorem scaled_quotient (m : ℕ) {m' n : ℕ} {e e' t : ℤ} (hm' : 0 < m') (hn : e - e' = t + n) :
    ((m <<< n : ℕ) : ℚ) / m' = (m * 2 ^ e) / (m' * 2 ^ e') / 2 ^ t := by
  have powers : (2 : ℚ) ^ e = 2 ^ t * 2 ^ n * 2 ^ e' := by
    rw [← zpow_natCast, ← zpow_add₀ (by norm_num), ← zpow_add₀ (by norm_num)]
    congr 1
    omega
  rw [powers, Nat.shiftLeft_eq]
  push_cast
  field_simp

/-- Beyond the largest finite double all is rounded to infinity. -/
theorem min_rounded_of_le {q : ℚ} (h : 2 ^ 1024 ≤ q) : min (rounded q) (2 ^ 1024) = 2 ^ 1024 := by
  have fits : Fits (2 ^ 52) 972 := ⟨by norm_num, by norm_num, Or.inr le_rfl⟩
  have same : ((2 ^ 52 : ℕ) : ℚ) * 2 ^ (972 : ℤ) = 2 ^ 1024 := by
    rw [Nat.cast_pow, Nat.cast_ofNat, show (972 : ℤ) = (972 : ℕ) from rfl, zpow_natCast, ← pow_add]
  have exact := fits.rounded_eq
  rw [same] at exact
  exact min_eq_right (exact ▸ rounded_mono (by positivity) h)

namespace Weighs

variable {u : UnpackedFloat} {v w : ℚ}

theorem min_rounded (h : Weighs u v) : min (rounded v) (2 ^ 1024) = v := by
  cases h with
  | zero => rw [rounded_zero, min_eq_left (by positivity)]
  | finite fits most => rw [fits.rounded_eq, min_eq_left (fits.le_infinity most)]
  | infinity => exact min_rounded_of_le le_rfl

theorem pack (h : Weighs u v) : Weighs (Float.Model.pack u).unpack v := by
  cases h with
  | zero s =>
    rw [unpack_pack_zero]
    exact .zero s
  | @finite _ _ hm fits most =>
    have := fits.weighs hm
    rwa [min_eq_left (fits.le_infinity most)] at this
  | infinity =>
    rw [unpack_pack_infinity]
    exact .infinity

/-- A sum stands for the rounded sum. -/
theorem add {x y : Float.Model} (hx : Weighs x.unpack v) (hy : Weighs y.unpack w) :
    Weighs (x.add y).unpack (min (rounded (v + w)) (2 ^ 1024)) := by
  unfold Float.Model.add
  generalize x.unpack = u at hx
  generalize y.unpack = u' at hy
  have hv := hx.nonneg
  have hw := hy.nonneg
  cases hx with
  | zero s =>
    rw [zero_add, hy.min_rounded]
    cases hy with
    | zero s' =>
      rw [UnpackedFloat.add]
      split_ifs <;> exact (Weighs.zero _).pack
    | finite fits most => exact (Weighs.finite fits most).pack
    | infinity => exact Weighs.infinity.pack
  | infinity =>
    rw [min_rounded_of_le (le_add_of_nonneg_right hw)]
    cases hy <;> exact Weighs.infinity.pack
  | @finite m e hm fits most =>
    cases hy with
    | zero s =>
      rw [add_zero, (Weighs.finite (h := hm) fits most).min_rounded]
      exact (Weighs.finite fits most).pack
    | infinity =>
      rw [min_rounded_of_le (le_add_of_nonneg_left hv)]
      exact Weighs.infinity.pack
    | @finite m' e' hm' fits' most' =>
      have left := shiftLeft_mul_zpow m e (e - min e e').toNat
      have right := shiftLeft_mul_zpow m' e' (e' - min e e').toNat
      rw [show e - (e - min e e').toNat = min e e' by omega] at left
      rw [show e' - (e' - min e e').toNat = min e e' by omega] at right
      have pos : 0 < m <<< (e - min e e').toNat := Nat.shiftLeft_eq m _ ▸ by positivity
      rw [add_finite, ← left, ← right, ← add_mul, ← Nat.cast_add]
      exact weighs_normalized (Nat.add_pos_left pos _) _

/-- The product with a finite double from one on stands for the rounded product. -/
theorem mul {x y : Float.Model} {m : ℕ} {e : ℤ} {hm : 0 < m} (hx : Weighs x.unpack v)
    (hy : y.unpack = .finite .positive m e hm) (large : 1 ≤ (m : ℚ) * 2 ^ e) :
    Weighs (x.mul y).unpack (min (rounded (v * (m * 2 ^ e))) (2 ^ 1024)) := by
  obtain ⟨fits, most⟩ := fits_unpack hy
  unfold Float.Model.mul
  rw [hy]
  generalize x.unpack = u at hx
  cases hx with
  | zero s =>
    rw [zero_mul, rounded_zero, min_eq_left (by positivity)]
    exact (Weighs.zero _).pack
  | infinity =>
    rw [min_rounded_of_le (le_mul_of_one_le_right (by positivity) large)]
    exact Weighs.infinity.pack
  | @finite m' e' hm' fits' most' =>
    have product : (m' : ℚ) * 2 ^ e' * (m * 2 ^ e) = (m' * m : ℕ) * 2 ^ (e' + e) := by
      rw [zpow_add₀ (by norm_num)]
      push_cast
      ring
    have coarser : e' + e ≤ Format.binary64.targetExponent (totalExponent (m' * m) (e' + e)) := by
      rw [targetExponent_eq]
      rcases fits'.full with rfl | full'
      · rcases fits.full with rfl | full
        · omega
        · have : 2 ^ 52 ≤ m' * m := le_mul_of_one_le_of_le hm' full
          have := (Nat.le_log2 (Nat.mul_pos hm' hm).ne').2 this
          omega
      · have : 2 ^ 52 ≤ m' * m := le_mul_of_le_of_one_le full' hm
        have := (Nat.le_log2 (Nat.mul_pos hm' hm).ne').2 this
        omega
    rw [product]
    exact weighs_round (Nat.mul_pos hm' hm) (.exact_mul_zpow _ _) coarser

/-- The quotient of two positive doubles stands for the rounded quotient, unless that is very
small. -/
theorem div {x y : Float.Model} {m m' : ℕ} {e e' : ℤ} {hm : 0 < m} {hm' : 0 < m'}
    (hx : x.unpack = .finite .positive m e hm) (hy : y.unpack = .finite .positive m' e' hm')
    (normal : 2 ^ (-1000 : ℤ) ≤ (m * 2 ^ e : ℚ) / (m' * 2 ^ e')) :
    Weighs (x.div y).unpack (min (rounded ((m * 2 ^ e) / (m' * 2 ^ e'))) (2 ^ 1024)) := by
  obtain ⟨t, ht⟩ : ∃ t, min (e - e') (Format.binary64.targetExponent
    (totalExponent m e - totalExponent m' e')) = t := ⟨_, rfl⟩
  obtain ⟨n, hn⟩ : ∃ n : ℕ, e - e' = t + n := ⟨(e - e' - t).toNat, by omega⟩
  have quotient := div_finite hm hm' ht hn
  have scaled := scaled_quotient m hm' hn
  obtain ⟨least, most⟩ := quotient_bounds hm hm' e e'
  generalize (m * 2 ^ e : ℚ) / (m' * 2 ^ e') = q at normal scaled least most ⊢
  have digits : -1000 < m.log2 + e + 1 - (m'.log2 + e') :=
    (zpow_lt_zpow_iff_right₀ (by norm_num : (1 : ℚ) < 2)).1 (normal.trans_lt most)
  have enough : t + 52 ≤ m.log2 + e - (m'.log2 + e' + 1) := by
    simp only [Format.targetExponent, totalExponent, Format.mantissaBits, Format.minExponent] at ht
    norm_num at ht
    omega
  have approx := Approximates.quotient (m <<< n) hm'
  rw [scaled] at approx
  have large : 2 ^ 52 ≤ (m <<< n) / m' := by
    have : (2 : ℚ) ^ 52 ≤ q / 2 ^ t := by
      rw [le_div_iff₀ (by positivity), ← zpow_natCast, ← zpow_add₀ (by norm_num)]
      exact (zpow_le_zpow_right₀ (by norm_num) (by push_cast; omega)).trans least
    have := this.trans_lt approx.bounds.2
    exact Nat.le_of_lt_succ (by exact_mod_cast this)
  have coarser : t ≤ Format.binary64.targetExponent (totalExponent ((m <<< n) / m') t) := by
    have := (Nat.le_log2 (by omega)).2 large
    rw [targetExponent_eq]
    omega
  unfold Float.Model.div
  rw [hx, hy, quotient]
  exact weighs_round (by omega) approx coarser

end Weighs

end Courier
