import Mathlib.Algebra.GroupWithZero.Nat
import Mathlib.Data.List.Basic
import Mathlib.Tactic.SplitIfs
import Courier.Text.Blank
import Courier.Text.Decimal

/-! Numbers in decimal are read back as they were written, zeros in front or not, as long as no more
digits follow than are asked for. -/

namespace Courier

namespace Decimal

theorem digitChar_eq (n : Nat) : digitChar n = digitChar (n % 10) := by
  simp [digitChar]

theorem isDigit_digitChar (n : Nat) : isDigit (digitChar n) = true := by
  have digits : ∀ a < 10, isDigit (digitChar a) = true := by decide
  rw [digitChar_eq]
  exact digits _ (Nat.mod_lt _ (by decide))

theorem digitValue_digitChar (n : Nat) : digitValue (digitChar n) = n % 10 := by
  have digits : ∀ a < 10, digitValue (digitChar a) = a := by decide
  rw [digitChar_eq]
  exact digits _ (Nat.mod_lt _ (by decide))

/-- A digit is no white space. -/
theorem not_isBlank_of_isDigit {c : Char} (h : isDigit c = true) : Blank.isBlank c = false := by
  simp only [isDigit, Bool.and_eq_true, decide_eq_true_eq, Char.le_def, UInt32.le_iff_toNat_le] at h
  have lower : 48 ≤ c.toNat := h.1
  have upper : c.toNat ≤ 57 := h.2
  simp only [Blank.isBlank, Bool.or_eq_false_iff, Bool.and_eq_false_iff, decide_eq_false_iff_not]
  omega

theorem value_append (ds : List Char) (c : Char) :
    value (ds ++ [c]) = value ds * 10 + digitValue c := by
  simp [value]

theorem value_ofNat (n : Nat) : value (ofNat n) = n := by
  induction n using ofNat.induct with
  | case1 n small =>
    rw [ofNat, if_pos small]
    simp [value, digitValue_digitChar, Nat.mod_eq_of_lt small]
  | case2 n large ih =>
    rw [ofNat, if_neg large, value_append, ih, digitValue_digitChar]
    omega

theorem all_isDigit_ofNat (n : Nat) : ∀ c ∈ ofNat n, isDigit c = true := by
  induction n using ofNat.induct with
  | case1 n small =>
    rw [ofNat, if_pos small]
    simp [isDigit_digitChar]
  | case2 n large ih =>
    rw [ofNat, if_neg large]
    intro c hc
    rcases List.mem_append.1 hc with hc | hc
    · exact ih c hc
    · rw [List.mem_singleton.1 hc]
      exact isDigit_digitChar n

/-- A number below `10 ^ width` has at most `width` digits. -/
theorem length_ofNat_le {width n : Nat} (pos : 0 < width) (h : n < 10 ^ width) :
    (ofNat n).length ≤ width := by
  induction width generalizing n with
  | zero => exact absurd pos (Nat.lt_irrefl 0)
  | succ width ih =>
    rw [ofNat]
    split_ifs with small
    · simp
    · have wide : 0 < width := by
        by_contra none_
        obtain rfl : width = 0 := by omega
        omega
      rw [Nat.pow_succ] at h
      have := ih wide (n := n / 10) (by omega)
      simpa using this

theorem ofNat_ne_nil (n : Nat) : ofNat n ≠ [] := by
  rw [ofNat]
  split_ifs <;> simp

theorem all_isDigit_padded (width n : Nat) : ∀ c ∈ padded width n, isDigit c = true := by
  intro c hc
  rcases List.mem_append.1 hc with hc | hc
  · rw [List.eq_of_mem_replicate hc]
    rfl
  · exact all_isDigit_ofNat n c hc

/-- A number is written with a digit at least. -/
theorem exists_padded_eq_cons (width n : Nat) :
    ∃ d ds, padded width n = d :: ds ∧ isDigit d = true := by
  cases h : padded width n with
  | nil => simp [padded, ofNat_ne_nil] at h
  | cons d ds => exact ⟨d, ds, rfl, all_isDigit_padded width n d (by rw [h]; simp)⟩

theorem value_padded (width n : Nat) : value (padded width n) = n := by
  have zeros : ∀ k ds, value (List.replicate k '0' ++ ds) = value ds := by
    intro k ds
    induction k with
    | zero => rfl
    | succ k ih =>
      rw [List.replicate_succ, List.cons_append, ← ih]
      rfl
  rw [padded, zeros, value_ofNat]

theorem length_padded {width n : Nat} (pos : 0 < width) (h : n < 10 ^ width) :
    (padded width n).length = width := by
  have := length_ofNat_le pos h
  simp [padded]
  omega

/-- Digits are taken up to the first character that is none. -/
theorem takeDigits_append {ds : List Char} (digits : ∀ c ∈ ds, isDigit c = true) {most : Nat}
    (room : ds.length ≤ most) {rest : List Char}
    (stop : ds.length = most ∨ ∀ c ∈ rest.head?, isDigit c = false) :
    takeDigits most (ds ++ rest) = (ds, rest) := by
  induction ds generalizing most with
  | nil =>
    rcases most with _ | most
    · rfl
    · cases rest with
      | nil => rfl
      | cons c rest =>
        have : isDigit c = false := by simpa using stop
        simp [takeDigits, this]
  | cons d ds ih =>
    rcases most with _ | most
    · simp at room
    · have hd := digits d List.mem_cons_self
      have fits : ds.length ≤ most := by simpa using room
      have taken := ih (fun c hc => digits c (List.mem_cons_of_mem _ hc)) fits
        (by simpa using stop)
      simp [takeDigits, hd, taken]

end Decimal

/-- White space is skipped up to the first character that is none. -/
theorem Blank.trimStart_cons {c : Char} (h : isBlank c = false) (cs : List Char) :
    trimStart (c :: cs) = c :: cs := by
  simp [trimStart, h]

end Courier
