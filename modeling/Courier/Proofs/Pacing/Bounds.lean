import Courier.Proofs.Throttle

/-! How far pacing slows a route down, in exact arithmetic. A delay grows under pressure only, never
beyond the longest delay of the settings, and no lag of a job makes a route wait longer than that.
-/

namespace Courier.Pacing

open Quantity

theorem occursIn_iff (needle hay : List Char) : occursIn needle hay = true ↔ needle <:+: hay := by
  induction hay with
  | nil => rw [occursIn, List.isEmpty_iff, List.infix_nil]
  | cons c cs ih =>
    rw [occursIn, Bool.or_eq_true, List.isPrefixOf_iff_prefix, ih, List.infix_cons_iff]

theorem toLower_eq (c : Char) :
    (if 'A' ≤ c && c ≤ 'Z' then Char.ofNat (c.toNat + 32) else c) = c.toLower := by
  have same : ('A' ≤ c && c ≤ 'Z') = true ↔ c.val ≥ 'A'.val ∧ c.val ≤ 'Z'.val := by
    rw [Bool.and_eq_true, decide_eq_true_iff, decide_eq_true_iff]
    rfl
  unfold Char.toLower
  split_ifs with ascii capital capital
  · have upper : c.toNat ≤ 90 := UInt32.le_iff_toNat_le.1 capital.2
    have valid : (c.toNat + 32).isValidChar := Or.inl (by omega)
    refine Char.ext (UInt32.toNat_inj.1 ?_)
    rw [Char.ofNat, dif_pos valid]
    show c.toNat + 32 = (c.val + 32).toNat
    rw [UInt32.toNat_add]
    show c.toNat + 32 = (c.toNat + 32) % 2 ^ 32
    omega
  · exact absurd (same.1 ascii) capital
  · exact absurd (same.2 capital) ascii
  · rfl

theorem lowered_eq (s : String) : lowered s = s.toList.map Char.toLower :=
  List.map_congr_left fun c _ => toLower_eq c

/-- A failure of the environment with one of the signatures in its reason, capital letters and
small ones being the same. -/
def Presses {F : Type} (c : PacingConfig F) (o : Outcome) : Prop :=
  o.isEnvironmentFailure = true ∧ ∃ reason, o.reason = some reason ∧ ∃ s ∈ c.pressureSignatures,
    ∃ part, part <:+: reason.toList ∧ s.toList.map Char.toLower = part.map Char.toLower

theorem isPressure_iff {F : Type} [Quantity F] (c : PacingConfig F) (o : Outcome) :
    isPressure c o = true ↔ Presses c o := by
  unfold isPressure Presses
  cases o.reason with
  | none => simp
  | some reason =>
    simp only [Bool.and_eq_true, List.any_eq_true, occursIn_iff, lowered_eq, List.infix_map_iff,
      Option.some.injEq, exists_eq_left']

section

variable {c : PacingConfig ℚ} {p : Pacing ℚ} {route : String}

/-- The longest delay as a span of time, rounded to whole milliseconds. -/
theorem nanos_ofQuantity_le (most : 0 ≤ c.maxDelaySecs) {q : ℚ} (h : q ≤ c.maxDelaySecs) :
    (Span.ofQuantity q).nanos ≤ round (c.maxDelaySecs * 1000) * 1000000 := by
  have least : 0 ≤ c.maxDelaySecs * 1000 := by positivity
  have longer : (Span.ofQuantity q).nanos ≤ (Span.ofQuantity c.maxDelaySecs).nanos := by
    simpa using ofQuantity_le (k := 0) (x := q) (y := c.maxDelaySecs) (by simpa using h)
  have longest : Span.ofQuantity c.maxDelaySecs = .ofMillis (nearest (c.maxDelaySecs * 1000)) := by
    simp [Span.ofQuantity, max_eq_left most]
  rw [longest] at longer
  have whole := Span.ofMillis_le (nearest_nonneg least)
  have rounded := nearest_le_round least
  omega

/-- All that can happen to the delay of a route. -/
theorem delay_heed (c : PacingConfig ℚ) (p : Pacing ℚ) (a : Action) (route : String) :
    delay (heed c p a) route = delay p route ∨
      (a = .pacingSuccess route ∧
        delay (heed c p a) route = max (delay p route - c.stepSecs) 0) ∨
      ∃ o, a = .pacingFailure route o ∧ Presses c o ∧
        delay (heed c p a) route = grown c (delay p route) := by
  cases a with
  | pacingSend r t =>
    left
    rw [heed, recordSend, delay, pace_update]
    split_ifs with own
    · rw [own, delay]
    · rfl
  | pacingSuccess r =>
    rw [heed, recordSuccess, delay, delay, pace, pace, Table.get?_modify]
    split_ifs with own
    · subst own
      cases p.get? route with
      | none => exact Or.inl rfl
      | some s => exact Or.inr (Or.inl ⟨rfl, rfl⟩)
    · exact Or.inl rfl
  | pacingFailure r o =>
    rw [heed, recordFailure]
    split_ifs with pressure
    · rw [delay, pace_update]
      split_ifs with own
      · subst own
        exact Or.inr (Or.inr ⟨o, rfl, (isPressure_iff c o).1 pressure, rfl⟩)
      · exact Or.inl rfl
    · exact Or.inl rfl
  | _ => exact Or.inl rfl

/-- Every route's delay is one that the settings allow. -/
def Bounded (c : PacingConfig ℚ) (p : Pacing ℚ) : Prop :=
  ∀ route, 0 ≤ delay p route ∧ delay p route ≤ c.maxDelaySecs

theorem bounded_empty (most : 0 ≤ c.maxDelaySecs) : Bounded c Table.empty := fun _ => ⟨le_rfl, most⟩

theorem grown_mem (most : 0 ≤ c.maxDelaySecs) (d : ℚ) :
    0 ≤ grown c d ∧ grown c d ≤ c.maxDelaySecs := by
  rw [grown, atLeast_rat, zero_rat]
  exact ⟨le_max_right _ _, max_le (min_le_right _ _) most⟩

theorem shortened_mem (step : 0 ≤ c.stepSecs) {d : ℚ} (least : 0 ≤ d) :
    0 ≤ max (d - c.stepSecs) 0 ∧ max (d - c.stepSecs) 0 ≤ d :=
  ⟨le_max_right _ _, max_le (by linarith) least⟩

/-- An action keeps the bounds: a success shortens a delay to nothing at most, and a failure
lengthens it to the longest one at most. -/
theorem Bounded.heed (step : 0 ≤ c.stepSecs) (most : 0 ≤ c.maxDelaySecs) (h : Bounded c p)
    (a : Action) : Bounded c (heed c p a) := by
  intro route
  obtain ⟨least, within⟩ := h route
  rcases delay_heed c p a route with same | ⟨-, shorter⟩ | ⟨o, -, -, longer⟩
  · rw [same]
    exact ⟨least, within⟩
  · rw [shorter]
    obtain ⟨above, below⟩ := shortened_mem step least
    exact ⟨above, below.trans within⟩
  · rw [longer]
    exact grown_mem most _

theorem bounded_foldl (step : 0 ≤ c.stepSecs) (most : 0 ≤ c.maxDelaySecs) (h : Bounded c p)
    (past : List Action) : Bounded c (past.foldl (Pacing.heed c) p) := by
  induction past generalizing p with
  | nil => exact h
  | cons a rest ih => exact ih (h.heed step most a)

theorem Bounded.success_le (h : Bounded c p) (step : 0 ≤ c.stepSecs) (r route : String) :
    delay (recordSuccess c r p) route ≤ delay p route := by
  rcases delay_heed c p (.pacingSuccess r) route with same | ⟨-, shorter⟩ | ⟨o, other, -⟩
  · exact same.le
  · exact shorter.trans_le (shortened_mem step (h route).1).2
  · cases other

theorem Bounded.presses_of_lt (h : Bounded c p) (step : 0 ≤ c.stepSecs) {a : Action}
    (raised : delay p route < delay (Pacing.heed c p a) route) :
    ∃ o, a = .pacingFailure route o ∧ Presses c o := by
  rcases delay_heed c p a route with same | ⟨-, shorter⟩ | ⟨o, own, presses, -⟩
  · exact absurd same raised.ne'
  · exact absurd (shorter.trans_le (shortened_mem step (h route).1).2) raised.not_ge
  · exact ⟨o, own, presses⟩

/-- A route that has to be waited for is ready by the longest delay after its last send. -/
theorem add_wait_le (most : 0 ≤ c.maxDelaySecs) {lag : Span} {now : Timestamp}
    (due : Span.zero < wait c route lag now p) : ∃ last, lastSent p route = some last ∧
      now.nanos + (wait c route lag now p).nanos ≤
        last.nanos + round (c.maxDelaySecs * 1000) * 1000000 := by
  obtain ⟨last, sent, slow, -⟩ := waiting due
  have sent' : (pace p route).lastSentAt = some last := sent
  have slowed : ¬ le (pace p route).delaySecs zero = true := by
    rw [le_rat_iff, zero_rat, not_le]
    exact slow
  rw [wait_eq, Pace.wait, if_neg slowed, sent'] at due
  refine ⟨last, sent, ?_⟩
  rw [wait_eq, Pace.wait, if_neg slowed, sent']
  dsimp only at due ⊢
  rw [Timestamp.add_nanos_of_time_left due]
  have shorter : spacing c (pace p route).delaySecs lag ≤ c.maxDelaySecs :=
    (spacing_eq _ _ _).trans_le (min_le_right _ _)
  have whole : 0 ≤ round (c.maxDelaySecs * 1000) :=
    (nearest_nonneg (by positivity)).trans (nearest_le_round (by positivity))
  exact last.add_nanos_le (by omega) (nanos_ofQuantity_le most shorter)

/-- How far `p` slows routes down, and what would slow them down more. -/
structure Steady (c : PacingConfig ℚ) (p : Pacing ℚ) : Prop where
  bounded : Bounded c p
  success_le (r route : String) : delay (recordSuccess c r p) route ≤ delay p route
  presses {a : Action} {route : String} : delay p route < delay (Pacing.heed c p a) route →
    ∃ o, a = .pacingFailure route o ∧ Presses c o
  ready {route : String} {lag : Span} {now : Timestamp} : Span.zero < wait c route lag now p →
    ∃ last, lastSent p route = some last ∧ now.nanos + (wait c route lag now p).nanos ≤
      last.nanos + round (c.maxDelaySecs * 1000) * 1000000

/-- Pacing is steady at every point of every run, whatever the multiplier and the penalty for the
lag of a job are. -/
theorem steady_foldl {c : PacingConfig ℚ} (step : 0 ≤ c.stepSecs) (most : 0 ≤ c.maxDelaySecs)
    (past : List Action) : Steady c (past.foldl (heed c) Table.empty) := by
  have bounded := bounded_foldl step most (bounded_empty most) past
  exact ⟨bounded, bounded.success_le step, bounded.presses_of_lt step, add_wait_le most⟩

end

/-- Settings under which a delay starts again from one step at each failure. -/
def forgetful : PacingConfig ℚ := ⟨1, -3, 2, 1 / 2, ["TOO MANY"]⟩

/-- A route under pressure, with a job that has been waiting for long. -/
theorem steady_foldl_forgetful :
    let run : List Action := [.pacingSend "r" .epoch,
      .pacingFailure "r" (.environment "429 too many requests"),
      .pacingFailure "r" (.environment "connection reset")]
    let p := run.foldl (heed forgetful) Table.empty
    (0 ≤ forgetful.stepSecs ∧ 0 ≤ forgetful.maxDelaySecs) ∧
      (delay p "r" = 1 ∧ wait forgetful "r" (.ofSeconds 100) .epoch p = .ofSeconds 2) ∧
      Steady forgetful p := by
  intro run p
  have step : 0 ≤ forgetful.stepSecs := by norm_num [forgetful]
  have most : 0 ≤ forgetful.maxDelaySecs := by norm_num [forgetful]
  have slowed : delay p "r" = 1 := by decide +kernel
  have waits : wait forgetful "r" (.ofSeconds 100) .epoch p = .ofSeconds 2 := by decide +kernel
  exact ⟨⟨step, most⟩, ⟨slowed, waits⟩, steady_foldl step most run⟩

end Courier.Pacing
