import Courier.Proofs.Number.Float

/-! The order of all floats, one after another: the negative ones from infinity up to negative zero,
then the positive ones. The bits of a float tell its place there, and a number that is less than
another comes before it. -/

namespace Courier

open Float.Model Float.Model.UnpackedFloat

def signOf : UnpackedFloat → Sign
  | .zero s | .finite s _ _ _ | .infinity s => s
  | .notANumber => .positive

/-- How many floats of its sign lie between zero and a number. -/
def distance : UnpackedFloat → ℤ
  | .zero _ | .notANumber => 0
  | .finite _ m e _ => (e + 1074) * 2 ^ 52 + m
  | .infinity _ => 2047 * 2 ^ 52

/-- Where a number stands among all floats, positive zero at zero. -/
def place (u : UnpackedFloat) : ℤ :=
  match signOf u with
  | .positive => distance u
  | .negative => -1 - distance u

section Bits

variable (b : BitVec Format.binary64.numBits)

theorem toNat_mantissa : (unpackMantissa b : BitVec 52).toNat = b.toNat % 2 ^ 52 := by
  simp [unpackMantissa, Format.binary64]

theorem toNat_exponent : (unpackExponent b : BitVec 11).toNat = b.toNat / 2 ^ 52 % 2 ^ 11 := by
  simp [unpackExponent, Format.binary64, Nat.shiftRight_eq_div_pow]

theorem toNat_sign : (unpackSign b).toNat = b.toNat / 2 ^ 63 % 2 := by
  simp [unpackSign, Format.binary64, Nat.shiftRight_eq_div_pow]

/-- Sign apart, the bits of a number count the floats below it. -/
theorem distance_unpack (defined : UnpackedFloat.unpack Format.binary64 b ≠ .notANumber) :
    distance (UnpackedFloat.unpack Format.binary64 b) = b.toNat % 2 ^ 63 := by
  have mantissa := toNat_mantissa b
  have exponent := toNat_exponent b
  obtain ⟨m, hm⟩ : ∃ m : BitVec 52, unpackMantissa b = m := ⟨_, rfl⟩
  obtain ⟨e, he⟩ : ∃ e : BitVec 11, unpackExponent b = e := ⟨_, rfl⟩
  rw [hm] at mantissa
  rw [he] at exponent
  have bias : ((Format.binary64.exponentBias : ℕ) : ℤ) + (52 : ℕ) = 1075 := rfl
  simp only [UnpackedFloat.unpack, hm, he, bias] at defined ⊢
  split_ifs at defined ⊢ with infinite zero least zero
  · have : e.toNat = 2047 := by rw [infinite]; rfl
    have : m.toNat = 0 := by rw [zero]; rfl
    simp only [distance]
    omega
  · exact absurd rfl defined
  · have : e.toNat = 0 := by rw [least]; rfl
    have : m.toNat = 0 := by rw [zero]; rfl
    simp only [distance]
    omega
  · have : e.toNat = 0 := by rw [least]; rfl
    simp only [distance]
    omega
  · -- a normal number has a leading one that its bits leave out
    have implicit : (1#1 ++ m).toNat = 2 ^ 52 + m.toNat := by
      rw [BitVec.toNat_append, ← Nat.shiftLeft_add_eq_or_of_lt m.isLt]
      rfl
    simp only [distance, implicit]
    push_cast
    omega

theorem signOf_unpack (defined : UnpackedFloat.unpack Format.binary64 b ≠ .notANumber) :
    signOf (UnpackedFloat.unpack Format.binary64 b) = .ofBitVec (unpackSign b) := by
  simp only [UnpackedFloat.unpack] at defined ⊢
  split_ifs at defined ⊢
  any_goals rfl
  exact absurd rfl defined

end Bits

/-- Exponents that fit are compared first, then mantissas: that is the order of the distances. -/
theorem Fits.distance_lt {m m' : ℕ} {e e' : ℤ} (fits : Fits m e) (fits' : Fits m' e')
    (lt : (compare e e').then (compare m m') = .lt) :
    (e + 1074) * 2 ^ 52 + (m : ℤ) < (e' + 1074) * 2 ^ 52 + m' := by
  have := fits.small
  have := fits.least
  have := fits'.full
  rcases lt_trichotomy e e' with lower | rfl | higher
  · omega
  · rw [compare_eq_iff_eq.2 rfl, Ordering.then, compare_lt_iff_lt] at lt
    omega
  · rw [compare_gt_iff_gt.2 higher] at lt
    cases lt

/-- The mantissa and the exponent, if there are any, are those of a double. -/
def Canonical (u : UnpackedFloat) : Prop :=
  ∀ s m e h, u = .finite s m e h → Fits m e ∧ e ≤ 971

theorem canonical_unpack (x : Float.Model) : Canonical x.unpack := fun _ _ _ _ => fits_unpack

namespace Canonical

variable {u u' : UnpackedFloat} {s : Sign} {m m' : ℕ} {e e' : ℤ} {hm : 0 < m} {hm' : 0 < m'}

theorem distance_bounds (hu : Canonical (.finite s m e hm)) :
    0 < distance (.finite s m e hm) ∧ distance (.finite s m e hm) < 2047 * 2 ^ 52 := by
  obtain ⟨fits, most⟩ := hu s m e hm rfl
  have := fits.least
  have := fits.small
  simp only [distance]
  omega

theorem distance_lt (hu : Canonical (.finite s m e hm)) (hu' : Canonical (.finite s m' e' hm'))
    (lt : (compare e e').then (compare m m') = .lt) :
    distance (.finite s m e hm) < distance (.finite s m' e' hm') :=
  (hu s m e hm rfl).1.distance_lt (hu' s m' e' hm' rfl).1 lt

/-- A number that is less than another comes before it. -/
theorem place_lt (hu : Canonical u) (hu' : Canonical u') (lt : u.lt u' = true) :
    place u < place u' := by
  have lt : u.compare u' = some .lt := beq_iff_eq.1 lt
  have zero : ∀ s, distance (.zero s) = 0 := fun _ => rfl
  have infinite : ∀ s, distance (.infinity s) = 2047 * 2 ^ 52 := fun _ => rfl
  rcases u with (_ | _) | _ | (_ | _) | ⟨_ | _, m, e, hm⟩ <;>
    rcases u' with (_ | _) | _ | (_ | _) | ⟨_ | _, m', e', hm'⟩
  all_goals try (cases lt; done)
  all_goals simp only [place, signOf, zero, infinite]
  -- the bounds settle all but two numbers of one sign
  all_goals
    try have bounds := hu.distance_bounds
    try have bounds' := hu'.distance_bounds
    try omega
  · have gt := Option.some.inj lt
    rw [Ordering.swap_then, Int.compare_swap, Nat.compare_swap] at gt
    have := hu'.distance_lt hu gt
    omega
  · exact hu.distance_lt hu' (Option.some.inj lt)

end Canonical

end Courier
