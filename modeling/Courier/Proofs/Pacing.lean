import Courier.Proofs.Number.Quantity
import Courier.Proofs.Table

/-! What pacing keeps of a route: only a send moves the time of the last send, and a route with a
delay is let through only when that delay has gone by. -/

namespace Courier.Pacing

/-- When the last send on a route was recorded. -/
def lastSent {F : Type} [Quantity F] (p : Pacing F) (route : String) : Option Timestamp :=
  (pace p route).lastSentAt

section

variable {F : Type} [Quantity F] {p : Pacing F}

theorem pace_update (route : String) (f : Pace F → Pace F) (p : Pacing F) (r : String) :
    pace (update route f p) r = if r = route then f (pace p route) else pace p r := by
  rw [pace, update, Table.get?_insert]
  split_ifs <;> rfl

theorem lastSent_recordSend (route : String) (t : Timestamp) (p : Pacing F) (r : String) :
    lastSent (recordSend route t p) r = if r = route then some t else lastSent p r := by
  rw [lastSent, recordSend, pace_update]
  split_ifs <;> rfl

theorem lastSent_recordSuccess (c : PacingConfig F) (route : String) (p : Pacing F) (r : String) :
    lastSent (recordSuccess c route p) r = lastSent p r := by
  rw [lastSent, lastSent, pace, pace, recordSuccess, Table.get?_modify]
  split_ifs with h
  · subst h
    cases p.get? r <;> rfl
  · rfl

theorem lastSent_recordFailure (c : PacingConfig F) (route : String) (o : Outcome) (p : Pacing F)
    (r : String) : lastSent (recordFailure c route o p) r = lastSent p r := by
  unfold recordFailure
  split_ifs
  · rw [lastSent, pace_update]
    split_ifs with h
    · rw [h]
      rfl
    · rfl
  · rfl

end

variable {c : PacingConfig Float} {d : Float}

/-- Waiting in the queue only makes the spacing of a route longer, up to the longest. -/
theorem exists_spacing (pos : 0 < d) (most : d ≤ c.maxDelaySecs) (penalty : 0 ≤ c.lagPenaltyPerSec)
    (lag : Span) : ∃ v w, Weighs d.toModel.unpack v ∧
      Weighs (spacing c d lag).toModel.unpack w ∧ v ≤ w := by
  obtain ⟨⟨v, hd⟩, -⟩ := weighs_of_pos pos
  obtain ⟨w, hmax, atMost⟩ := hd.exists_of_le most
  obtain ⟨x, hx⟩ : ∃ x : Float, Quantity.mul (Quantity.div (Quantity.ofInt (max lag.toMillis 0))
    (Quantity.ofInt 1000)) c.lagPenaltyPerSec = x := ⟨_, rfl⟩
  have notNegative : NotNegative x.toModel.unpack := by
    rw [← hx]
    refine NotNegative.pack (.mul (NotNegative.pack ?_) (notNegative_of_le penalty))
    change NotNegative
      (Float.Model.UnpackedFloat.div _ _ (floatOfInt 1000).toModel.unpack)
    rw [unpack_thousand]
    exact (notNegative_floatOfInt (le_max_right _ _)).div
  have spacing_eq : spacing c d lag =
      if (d + x).isNaN then c.maxDelaySecs
      else if c.maxDelaySecs < d + x then c.maxDelaySecs else d + x := by
    rw [spacing, hx]
    rfl
  rw [spacing_eq]
  rcases hd.add_cases notNegative with undefined | ⟨sum, hsum, more⟩
  · rw [if_pos undefined]
    exact ⟨v, w, hd, hmax, atMost⟩
  · have defined : ¬ (d + x).isNaN = true := by
      rw [hsum.not_isNaN]
      nofun
    rw [if_neg defined]
    split_ifs
    · exact ⟨v, w, hd, hmax, atMost⟩
    · exact ⟨v, sum, hd, hsum, more⟩

theorem ofQuantity_le_spacing (pos : 0 < d) (most : d ≤ c.maxDelaySecs)
    (penalty : 0 ≤ c.lagPenaltyPerSec) (lag : Span) :
    Span.ofQuantity d ≤ Span.ofQuantity (spacing c d lag) := by
  obtain ⟨v, w, hd, hs, le⟩ := exists_spacing pos most penalty lag
  exact hd.ofQuantity_mono hs le

/-- A route that need not wait is past the delay after its last send. -/
theorem add_le_of_wait {p : Pacing Float} {route : String} {lag : Span} {now last : Timestamp}
    (sent : lastSent p route = some last) (delayed : delay p route = d) (pos : 0 < d)
    (most : d ≤ c.maxDelaySecs) (penalty : 0 ≤ c.lagPenaltyPerSec)
    (free : ¬ Span.zero < wait c route lag now p) : last.add (Span.ofQuantity d) ≤ now := by
  obtain ⟨-, slow⟩ := weighs_of_pos pos
  rw [lastSent, pace] at sent
  rw [delay, pace] at delayed
  rw [wait] at free
  cases hs : p.get? route with
  | none =>
    rw [hs] at sent
    cases sent
  | some s =>
    simp only [hs, Option.getD_some] at sent delayed free
    have spaced := ofQuantity_le_spacing pos most penalty lag
    have slowed : ¬ Quantity.le d Quantity.zero = true := fun le => slow (of_decide_eq_true le)
    rw [Pace.wait, delayed, if_neg slowed, sent] at free
    exact Timestamp.le_trans (last.add_le_add spaced) (Timestamp.le_of_since free)

end Courier.Pacing
