import Courier.Proofs.Text.Decimal
import Courier.Proofs.Time.Calendar
import Courier.Time.Rfc3339

/-! The interchange form of an instant is read back as that instant: part by part, each of them up
to the mark that stands after it. -/

namespace Courier.Timestamp

open Decimal TimeOfDay

/-- White space is looked for in vain before a number. -/
theorem trimStart_padded (width n : Nat) (rest : List Char) :
    Blank.trimStart (padded width n ++ rest) = padded width n ++ rest := by
  obtain ⟨d, ds, h, hd⟩ := exists_padded_eq_cons width n
  rw [h]
  exact Blank.trimStart_cons (not_isBlank_of_isDigit hd) _

theorem readPart_padded {width n : Nat} (pos : 0 < width) (small : n < 10 ^ width)
    (rest : List Char) : readPart width (padded width n ++ rest) = some (n, rest) := by
  have length := length_padded pos small
  have taken := takeDigits_append (all_isDigit_padded width n) (Nat.le_of_eq length)
    (Or.inl length : _ ∨ ∀ c ∈ rest.head?, isDigit c = false)
  obtain ⟨d, ds, h, -⟩ := exists_padded_eq_cons width n
  have value : value (d :: ds) = n := h ▸ value_padded width n
  rw [readPart, trimStart_padded, taken, h]
  simp only [value]

theorem readMark_cons {c : Char} (h : Blank.isBlank c = false) (rest : List Char) :
    readMark c (c :: rest) = some rest := by
  simp [readMark, Blank.trimStart_cons h]

/-- Digits that a sign precedes are taken up to the hyphen after them. -/
theorem takeDigits_signed (n : Nat) (rest : List Char) :
    takeDigits (padded 4 n ++ '-' :: rest).length (padded 4 n ++ '-' :: rest) =
      (padded 4 n, '-' :: rest) :=
  takeDigits_append (all_isDigit_padded 4 n) (by simp) (Or.inr (by simp; decide))

theorem readYear_yearText (y : Int) (rest : List Char) :
    readYear (yearText y ++ '-' :: rest) = some (y, '-' :: rest) := by
  unfold yearText
  split_ifs with plain negative
  · have part : readPart 4 (padded 4 y.toNat ++ '-' :: rest) = some (y.toNat, '-' :: rest) :=
      readPart_padded (by decide) (by omega) _
    obtain ⟨d, ds, h, hd⟩ := exists_padded_eq_cons 4 y.toNat
    have start := trimStart_padded 4 y.toNat ('-' :: rest)
    rw [h] at part start ⊢
    have unsigned : d ≠ '-' ∧ d ≠ '+' := by
      constructor <;> rintro rfl <;> cases hd
    rw [readYear, start, List.cons_append]
    split
    · rename_i he
      exact absurd (List.cons.inj he).1 unsigned.1
    · rename_i he
      exact absurd (List.cons.inj he).1 unsigned.2
    · rw [← List.cons_append, part]
      simp only [Option.map_some, Option.some.injEq, Prod.mk.injEq, and_true]
      omega
  all_goals
    obtain ⟨d, ds, h, -⟩ := exists_padded_eq_cons 4 y.natAbs
    have taken := takeDigits_signed y.natAbs rest
    have value := value_padded 4 y.natAbs
    rw [h] at taken value
    rw [List.cons_append, readYear, Blank.trimStart_cons (by decide), h]
    simp only [taken, value, Option.some.injEq, Prod.mk.injEq, and_true]
    omega

/-- A fraction is written in as many digits as it needs, in threes, and its value is theirs with
zeros behind. -/
theorem readFraction_fractionText {nano : Nat} (small : nano < 1000000000) :
    readFraction (fractionText nano ++ ['Z']) = some (nano, ['Z']) := by
  have read : ∀ width n, 0 < width → width ≤ 9 → n < 10 ^ width →
      readFraction ('.' :: padded width n ++ ['Z']) = some (n * 10 ^ (9 - width), ['Z']) := by
    intro width n pos most fits
    have length := length_padded pos fits
    have taken : takeDigits 9 (padded width n ++ ['Z']) = (padded width n, ['Z']) :=
      takeDigits_append (all_isDigit_padded width n) (by omega) (Or.inr (by simp; decide))
    obtain ⟨d, ds, h, -⟩ := exists_padded_eq_cons width n
    have value := value_padded width n
    rw [List.cons_append, readFraction, taken]
    rw [h] at value length ⊢
    simp only [value, length]
    rfl
  unfold fractionText
  split_ifs with whole millis micros
  · rw [whole]
    rfl
  · rw [read 3 _ (by decide) (by decide) (by omega)]
    simp only [Option.some.injEq, Prod.mk.injEq, and_true]
    omega
  · rw [read 6 _ (by decide) (by decide) (by omega)]
    simp only [Option.some.injEq, Prod.mk.injEq, and_true]
    omega
  · rw [read 9 _ (by decide) (by decide) (by omega)]
    simp

theorem bind_of_eq_some {α β : Type} {x : Option α} {f : α → Option β} {a : α} {b : β}
    (h : x = some a) (rest : f a = some b) : (x >>= f) = some b := by
  rw [h]
  exact rest

/-- An instant is read back from its interchange form. -/
theorem ofText?_toText (t : Timestamp) : ofText? t.toText = some t := by
  obtain ⟨days, hdays⟩ : ∃ days, t.nanos / 1000000000 / 86400 = days := ⟨_, rfl⟩
  obtain ⟨s, hs⟩ : ∃ s, (t.nanos / 1000000000 % 86400).toNat = s := ⟨_, rfl⟩
  obtain ⟨nano, hnano⟩ : ∃ nano, (t.nanos % 1000000000).toNat = nano := ⟨_, rfl⟩
  obtain ⟨y, m, d, hd⟩ : ∃ y m d, Date.ofDays days = ⟨y, m, d⟩ := ⟨_, _, _, rfl⟩
  have date : Date.ofParts? y m d = some ⟨y, m, d⟩ := by
    have h := Date.ofParts?_ofDays days
    rwa [hd] at h
  have back : Date.toDays ⟨y, m, d⟩ = days := hd ▸ Date.toDays_ofDays days
  obtain ⟨hm, hday⟩ := Date.month_le_and_day_le date
  have small : nano < 1000000000 := by omega
  have same : (days * 86400 + (s / 3600 * 3600 + s / 60 % 60 * 60 + s % 60 : Nat)) *
      1000000000 + nano = t.nanos := by omega
  have now : ofNanos? t.nanos = some t := dif_pos ⟨t.lower, t.upper⟩
  have part : ∀ n rest, n < 100 → readPart 2 (padded 2 n ++ rest) = some (n, rest) :=
    fun n rest h => readPart_padded (by decide) h rest
  have chars : t.toText.toList = yearText y ++ '-' :: (padded 2 m ++ '-' :: (padded 2 d ++ 'T' ::
      (padded 2 (s / 3600) ++ ':' :: (padded 2 (s / 60 % 60) ++ ':' :: (padded 2 (s % 60) ++
        (fractionText nano ++ ['Z'])))))) := by
    rw [toText, ofTimestamp, hdays, hs, hnano, hd, String.toList_ofList, dateText, clockText]
    simp only [List.append_assoc, List.cons_append]
  rw [ofText?, chars]
  -- one step for each part and each mark
  refine bind_of_eq_some (readYear_yearText y _) ?_
  refine bind_of_eq_some (readMark_cons (by decide) _) ?_
  refine bind_of_eq_some (part m _ (by omega)) ?_
  refine bind_of_eq_some (readMark_cons (by decide) _) ?_
  refine bind_of_eq_some (part d _ (by omega)) ?_
  refine bind_of_eq_some rfl ?_
  refine bind_of_eq_some (part (s / 3600) _ (by omega)) ?_
  refine bind_of_eq_some (readMark_cons (by decide) _) ?_
  refine bind_of_eq_some (part (s / 60 % 60) _ (by omega)) ?_
  refine bind_of_eq_some (readMark_cons (by decide) _) ?_
  refine bind_of_eq_some (part (s % 60) _ (by omega)) ?_
  refine bind_of_eq_some (readFraction_fractionText small) ?_
  refine bind_of_eq_some (a := (0, [])) rfl ?_
  refine bind_of_eq_some date ?_
  rw [if_pos (by omega), back]
  refine bind_of_eq_some (same ▸ now) ?_
  rw [Int.sub_zero, same, now]

end Courier.Timestamp
