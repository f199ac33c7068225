import Mathlib.Data.List.Count
import Courier.Limiter
import Courier.Proofs.Time

/-! One sliding window against the log of all calls that were let through. The window forgets calls
from time to time and keeps some that have left it, so it is not the log; but it has every time
that may still count exactly as often as the log has it. -/

namespace Courier

/-- Calls by route and time. -/
abbrev CallLog := List (String × Timestamp)

namespace CallLog

/-- How often the log has the time `t` for the routes in `scope`. -/
def countAt (scope : String → Bool) (t : Timestamp) (log : CallLog) : Nat :=
  log.countP fun x => scope x.1 && x.2 = t

/-- How many calls of the routes in `scope` are in the window that ends with `now`. -/
def used (limit : WindowLimit) (now : Timestamp) (scope : String → Bool) (log : CallLog) : Nat :=
  log.countP fun x => scope x.1 && (now.sub limit.window < x.2 && x.2 ≤ now)

end CallLog

namespace Window

variable {limit : WindowLimit} {later later' : Timestamp → Prop} {scope : String → Bool}
  {log : CallLog} {w : Window} {now : Timestamp}

/-- The window agrees with the log as far as it may matter at the times in `later`. -/
structure Tracks (limit : WindowLimit) (later : Timestamp → Prop) (scope : String → Bool)
    (log : CallLog) (w : Window) : Prop where
  sorted : w.Pairwise (· ≤ ·)
  past : ∀ t ∈ w, ∀ now, later now → t ≤ now
  counts : ∀ now, later now → ∀ t, now.sub limit.window < t → w.count t = log.countAt scope t

theorem trim_eq_filter (sorted : w.Pairwise (· ≤ ·)) (limit : WindowLimit) (now : Timestamp) :
    w.trim limit now = w.filter fun t => now.sub limit.window < t := by
  unfold trim
  induction w with
  | nil => rfl
  | cons a w ih =>
    rw [List.pairwise_cons] at sorted
    by_cases ha : a ≤ now.sub limit.window
    · rw [List.dropWhile_cons_of_pos (by simpa using ha), ih sorted.2,
        List.filter_cons_of_neg (by simpa using Timestamp.not_lt.2 ha)]
    · rw [List.dropWhile_cons_of_neg (by simpa using ha), eq_comm, List.filter_eq_self]
      intro t ht
      have ha := Timestamp.not_le.1 ha
      rcases List.mem_cons.1 ht with rfl | ht
      · simpa using ha
      · simpa using Timestamp.lt_of_lt_of_le ha (sorted.1 t ht)

theorem count_remove (t t' : Timestamp) (w : Window) :
    (w.remove t).count t' = w.count t' - if t = t' then 1 else 0 := by
  rw [remove, List.count_reverse, List.count_erase, List.count_reverse]
  simp

theorem remove_sublist (t : Timestamp) (w : Window) : (w.remove t).Sublist w := by
  unfold remove
  simpa using (List.erase_sublist (a := t) (l := w.reverse)).reverse

namespace Tracks

theorem nil : Tracks limit later scope [] [] :=
  ⟨List.Pairwise.nil, by simp, by simp [CallLog.countAt]⟩

/-- Fewer times to come ask for less. -/
theorem mono (h : Tracks limit later scope log w) (sub : ∀ t, later' t → later t) :
    Tracks limit later' scope log w :=
  ⟨h.sorted, fun t ht now hnow => h.past t ht now (sub now hnow),
    fun now hnow => h.counts now (sub now hnow)⟩

/-- What the log takes in or gives away outside the scope is no matter. -/
theorem of_countAt_eq {log' : CallLog} (h : Tracks limit later scope log w)
    (same : ∀ t, log'.countAt scope t = log.countAt scope t) :
    Tracks limit later scope log' w :=
  ⟨h.sorted, h.past, fun now hnow t ht => by rw [h.counts now hnow t ht, same]⟩

/-- Trimming at `now` loses nothing that may count from then on. -/
theorem trim (h : Tracks limit later scope log w) (from_ : ∀ t, later t → now ≤ t) :
    Tracks limit later scope log (w.trim limit now) := by
  rw [trim_eq_filter h.sorted]
  refine ⟨h.sorted.filter _, fun t ht => h.past t (List.mem_filter.1 ht).1, ?_⟩
  intro now' hnow' t ht
  have inside : now.sub limit.window < t :=
    Timestamp.lt_of_le_of_lt (Timestamp.sub_le_sub (from_ now' hnow') _) ht
  rw [List.count_filter (by simpa using inside)]
  exact h.counts now' hnow' t ht

/-- A call at `now` comes last in the window. -/
theorem note (h : Tracks limit later scope log w) (hw : ∀ t ∈ w, t ≤ now)
    (from_ : ∀ t, later t → now ≤ t) {route : String} (hr : scope route = true) :
    Tracks limit later scope (log ++ [(route, now)]) (w ++ [now]) := by
  refine ⟨?_, ?_, ?_⟩
  · rw [List.pairwise_append]
    refine ⟨h.sorted, List.pairwise_singleton _ _, fun t ht t' ht' => ?_⟩
    rw [List.mem_singleton.1 ht']
    exact hw t ht
  · intro t ht
    rcases List.mem_append.1 ht with ht | ht
    · exact h.past t ht
    · rw [List.mem_singleton.1 ht]
      exact from_
  · intro now' hnow' t ht
    have := h.counts now' hnow' t ht
    simp only [CallLog.countAt] at this
    simp only [CallLog.countAt, List.count_append, List.countP_append, this, Nat.add_left_cancel_iff]
    by_cases he : now = t <;> simp [hr, he]

/-- A call in the log is given back: it leaves the window if the window still has it. -/
theorem remove (h : Tracks limit later scope log w) {route : String} {taken : Timestamp}
    (hmem : (route, taken) ∈ log) (hr : scope route = true) :
    Tracks limit later scope (log.erase (route, taken)) (w.remove taken) := by
  refine ⟨h.sorted.sublist (remove_sublist taken w),
    fun t ht => h.past t ((remove_sublist taken w).subset ht), ?_⟩
  intro now hnow t ht
  rw [count_remove, h.counts now hnow t ht, CallLog.countAt, CallLog.countAt, List.countP_erase]
  simp [hmem, hr]

/-- What is left after trimming at `now` is as much as the log has in the window. -/
theorem length_trim (h : Tracks limit later scope log w) (hnow : later now)
    (hlog : ∀ x ∈ log, x.2 ≤ now) : (w.trim limit now).length = log.used limit now scope := by
  let times := (log.filter fun x => scope x.1).map Prod.snd
  have counted : ∀ t, times.count t = log.countAt scope t := by
    intro t
    simp only [times, CallLog.countAt, List.count, List.countP_map, List.countP_filter]
    refine List.countP_congr fun x _ => ?_
    simp [and_comm]
  have perm : (w.trim limit now).Perm (times.filter fun t => now.sub limit.window < t) := by
    rw [trim_eq_filter h.sorted, List.perm_iff_count]
    intro t
    by_cases ht : now.sub limit.window < t
    · rw [List.count_filter (by simpa using ht), List.count_filter (by simpa using ht), counted]
      exact h.counts now hnow t ht
    · rw [List.count_eq_zero_of_not_mem (by simp [ht]), List.count_eq_zero_of_not_mem (by simp [ht])]
  rw [perm.length_eq, ← List.countP_eq_length_filter, CallLog.used, List.countP_map,
    List.countP_filter]
  refine List.countP_congr fun x hx => ?_
  have := hlog x hx
  simp [this, and_comm]

end Tracks

end Window

end Courier
