import Mathlib.Tactic.IntervalCases
import Mathlib.Tactic.SplitIfs
import Courier.Time.Calendar

/-! From day numbers to dates and back. Four hundred years, after which the calendar repeats itself,
are made of centuries, spans of four years, years and days. -/

namespace Courier.Date

/-- The parts of a day among 400 years that are counted from March. The fourth century and the
fourth year of a span may have a day more than the others. -/
theorem exists_parts {d : Int} (lo : 0 ≤ d) (hi : d < 146097) : ∃ c q k r : Int,
    d = 36524 * c + 1461 * q + 365 * k + r ∧ (0 ≤ c ∧ c ≤ 3) ∧ (0 ≤ q ∧ q ≤ 24) ∧
      (0 ≤ k ∧ k ≤ 3) ∧ (0 ≤ r ∧ r ≤ 365) ∧ (r = 365 → k = 3 ∧ (q = 24 → c = 3)) := by
  obtain ⟨c, hc, c₀, c₁⟩ : ∃ c : Int, (0 ≤ c ∧ c ≤ 3) ∧ 0 ≤ d - 36524 * c ∧
      (d - 36524 * c < 36524 ∨ c = 3 ∧ d - 36524 * c = 36524) := by
    by_cases last : d = 146096
    · exact ⟨3, by omega⟩
    · exact ⟨d / 36524, by omega⟩
  obtain ⟨q, hq, q₀, q₁⟩ : ∃ q : Int, (0 ≤ q ∧ q ≤ 24) ∧ 0 ≤ d - 36524 * c - 1461 * q ∧
      d - 36524 * c - 1461 * q < 1461 := ⟨(d - 36524 * c) / 1461, by omega⟩
  by_cases leap : d - 36524 * c - 1461 * q = 1460
  · exact ⟨c, q, 3, 365, by omega⟩
  · exact ⟨c, q, (d - 36524 * c - 1461 * q) / 365, (d - 36524 * c - 1461 * q) % 365, by omega⟩

/-- The year and the day of the year, by the parts. -/
theorem year_of_parts {d c q k r : Int} (hd : d = 36524 * c + 1461 * q + 365 * k + r)
    (hc : 0 ≤ c ∧ c ≤ 3) (hq : 0 ≤ q ∧ q ≤ 24) (hk : 0 ≤ k ∧ k ≤ 3) (hr : 0 ≤ r ∧ r ≤ 365)
    (leap : r = 365 → k = 3 ∧ (q = 24 → c = 3)) :
    (d - d / 1460 + d / 36524 - d / 146096) / 365 = 100 * c + 4 * q + k ∧
      d - (365 * (100 * c + 4 * q + k) + (100 * c + 4 * q + k) / 4 -
        (100 * c + 4 * q + k) / 100) = r := by
  have spans : d / 1460 = 25 * c + q ∨
      (d / 1460 = 25 * c + q + 1 ∧ 1460 ≤ 24 * c + q + 365 * k + r) := by omega
  have centuries : (d / 36524 = c ∧ d / 146096 = 0) ∨
      (d / 36524 = c + 1 ∧ d / 146096 = 1) := by omega
  omega

/-- A date by the day of a year that is counted from March. -/
def ofYearDay (y r : Int) : Date :=
  let m := (5 * r + 2) / 153
  let month := if m < 10 then m + 3 else m - 9
  ⟨y + (if month ≤ 2 then 1 else 0), month.toNat, (r - (153 * m + 2) / 5 + 1).toNat⟩

/-- Every day number is that of a day of a year. -/
theorem exists_yearDay (n : Int) : ∃ y r : Int, ofDays n = ofYearDay y r ∧
    n = y * 365 + y / 4 - y / 100 + y / 400 + r - 719468 ∧ (0 ≤ r ∧ r ≤ 365) ∧
      (r = 365 → isLeap (y + 1) = true) := by
  obtain ⟨c, q, k, r, hd, hc, hq, hk, hr, leap⟩ :=
    exists_parts (d := n + 719468 - (n + 719468) / 146097 * 146097) (by omega) (by omega)
  obtain ⟨hy, hr'⟩ := year_of_parts hd hc hq hk hr leap
  have same : ofDays n = ofYearDay (100 * c + 4 * q + k + (n + 719468) / 146097 * 400) r := by
    simp only [ofDays, ofYearDay, hy, hr']
  generalize (n + 719468) / 146097 = era at hd same
  clear hy hr'
  have spans : (100 * c + 4 * q + k + era * 400) / 4 = 100 * era + 25 * c + q := by omega
  have centuries : (100 * c + 4 * q + k + era * 400) / 100 = 4 * era + c := by omega
  have cycles : (100 * c + 4 * q + k + era * 400) / 400 = era := by omega
  refine ⟨_, r, same, ?_, hr, fun last => ?_⟩
  · rw [spans, centuries, cycles]
    omega
  · obtain ⟨rfl, full⟩ := leap last
    simp only [isLeap, Bool.and_eq_true, Bool.or_eq_true, decide_eq_true_eq]
    omega

theorem toDays_ofYearDay {y r : Int} (hr : 0 ≤ r ∧ r ≤ 365) :
    (ofYearDay y r).toDays = y * 365 + y / 4 - y / 100 + y / 400 + r - 719468 := by
  simp only [ofYearDay, toDays]
  split_ifs <;> omega

/-- The calendar has the day. -/
theorem ofParts?_ofYearDay {y r : Int} (hr : 0 ≤ r ∧ r ≤ 365)
    (leap : r = 365 → isLeap (y + 1) = true) :
    ofParts? (ofYearDay y r).year (ofYearDay y r).month (ofYearDay y r).day =
      some (ofYearDay y r) := by
  obtain ⟨m, hm⟩ : ∃ m, (5 * r + 2) / 153 = m := ⟨_, rfl⟩
  have hm₀ : 0 ≤ m := by omega
  have hm₁ : m ≤ 11 := by omega
  refine if_pos ?_
  simp only [ofYearDay, hm]
  by_cases february : m = 11
  · subst february
    by_cases last : r = 365
    · simp [daysIn, leap last]
      omega
    · simp [daysIn]
      split_ifs <;> omega
  · interval_cases m <;> first | omega | (simp [daysIn]; omega)

theorem toDays_ofDays (n : Int) : (ofDays n).toDays = n := by
  obtain ⟨y, r, hn, same, hr, -⟩ := exists_yearDay n
  rw [hn, toDays_ofYearDay hr, same]

theorem ofParts?_ofDays (n : Int) :
    ofParts? (ofDays n).year (ofDays n).month (ofDays n).day = some (ofDays n) := by
  obtain ⟨y, r, hn, -, hr, leap⟩ := exists_yearDay n
  rw [hn, ofParts?_ofYearDay hr leap]

theorem month_le_and_day_le {y : Int} {m d : Nat} {date : Date}
    (h : ofParts? y m d = some date) : m ≤ 12 ∧ d ≤ 31 := by
  unfold ofParts? at h
  split_ifs at h with valid
  have short : daysIn y m ≤ 31 := by
    unfold daysIn
    split
    · split_ifs <;> omega
    all_goals omega
  omega

end Courier.Date
