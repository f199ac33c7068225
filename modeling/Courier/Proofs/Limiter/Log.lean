import Mathlib.Tactic.SplitIfs
import Courier.Proofs.Limiter.Window
import Courier.Proofs.Table

/-! The limiter against the log of all calls that it let through and that were not given back. The
log is never trimmed and knows nothing of windows; what the limiter answers is what one reads off
the log. -/

namespace Courier

namespace CallLog

def everywhere : String → Bool := fun _ => true

def on (route : String) : String → Bool := fun r => r = route

/-- An optional limit leaves room for one more call. -/
def HasRoom (limit : Option WindowLimit) (now : Timestamp) (scope : String → Bool)
    (log : CallLog) : Prop := ∀ l ∈ limit, log.used l now scope < l.maxEvents

instance (limit : Option WindowLimit) (now : Timestamp) (scope : String → Bool) (log : CallLog) :
    Decidable (log.HasRoom limit now scope) :=
  inferInstanceAs (Decidable (∀ l ∈ limit, log.used l now scope < l.maxEvents))

/-- The use of every limited window, as the log has it. -/
def uses (c : RateLimitConfig) (now : Timestamp) (routes : List String) (log : CallLog) :
    List WindowUse :=
  (c.overall.map fun l => ⟨"global", log.used l now everywhere, l⟩).toList ++
    (routes.mergeSort fun a b => !(b < a)).filterMap fun route =>
      (c.forRoute route).map fun l => ⟨route, log.used l now (on route), l⟩

theorem countAt_snoc_of_ne {route r : String} (hne : route ≠ r) (t now : Timestamp)
    (log : CallLog) : (log ++ [(route, now)]).countAt (on r) t = log.countAt (on r) t := by
  simp [countAt, on, hne]

theorem countAt_erase_of_ne {route r : String} (hne : route ≠ r) (t taken : Timestamp)
    (log : CallLog) : countAt (on r) t (log.erase (route, taken)) = log.countAt (on r) t := by
  simp [countAt, on, List.countP_erase, hne]

end CallLog

open CallLog

namespace Window

variable {limit : Option WindowLimit} {later later' : Timestamp → Prop} {scope : String → Bool}
  {log : CallLog} {w : Window} {now : Timestamp}

/-- Under an optional limit the window agrees with the log; without one nothing is asked of it. -/
def TracksFor (limit : Option WindowLimit) (later : Timestamp → Prop) (scope : String → Bool)
    (log : CallLog) (w : Window) : Prop := ∀ l, limit = some l → Tracks l later scope log w

namespace TracksFor

theorem mono (h : TracksFor limit later scope log w) (sub : ∀ t, later' t → later t) :
    TracksFor limit later' scope log w := fun l hl => (h l hl).mono sub

theorem consult (h : TracksFor limit later scope log w) (now : Timestamp) :
    TracksFor limit (fun t => later t ∧ now ≤ t) scope log (Limiter.consult limit now w).1 := by
  rintro l rfl
  exact ((h l rfl).mono fun t ht => ht.1).trim fun t ht => ht.2

/-- Consulting a window asks for no wait exactly when the log has room. -/
theorem wait_eq_none_iff (h : TracksFor limit later scope log w) (hnow : later now)
    (hlog : ∀ x ∈ log, x.2 ≤ now) :
    (Limiter.consult limit now w).2 = none ↔ log.HasRoom limit now scope := by
  cases limit with
  | none => simp [Limiter.consult, HasRoom]
  | some l =>
    simp only [Limiter.consult, blocked, (h l rfl).length_trim hnow hlog, HasRoom]
    split_ifs with hroom <;> simpa using hroom

theorem length_consult {l : WindowLimit} (h : TracksFor limit later scope log w)
    (hl : limit = some l) (hnow : later now) (hlog : ∀ x ∈ log, x.2 ≤ now) :
    (Limiter.consult limit now w).1.length = log.used l now scope := by
  subst hl
  exact (h l rfl).length_trim hnow hlog

theorem note (h : TracksFor limit later scope log w) (hnow : later now)
    (onward : ∀ t, later t → now ≤ t) {route : String} (hr : scope route = true) :
    TracksFor limit later scope (log ++ [(route, now)]) (Limiter.note limit now w) := by
  rintro l rfl
  exact (h l rfl).note (fun t ht => (h l rfl).past t ht now hnow) onward hr

theorem of_countAt_eq {log' : CallLog} (h : TracksFor limit later scope log w)
    (same : ∀ t, log'.countAt scope t = log.countAt scope t) :
    TracksFor limit later scope log' w := fun l hl => (h l hl).of_countAt_eq same

end TracksFor

end Window

namespace Limiter

variable {c : RateLimitConfig} {later later' : Timestamp → Prop} {log : CallLog} {s : Limiter}
  {route : String} {now taken : Timestamp}

/-- All windows agree with the log. -/
structure Matches (c : RateLimitConfig) (later : Timestamp → Prop) (log : CallLog) (s : Limiter) :
    Prop where
  overall : Window.TracksFor c.overall later everywhere log s.overall
  routes : ∀ r, Window.TracksFor (c.forRoute r) later (on r) log (s.routeWindow r)

theorem routeWindow_insert (all w : Window) (routes : Table String Window) (route r : String) :
    routeWindow ⟨all, routes.insert route w⟩ r =
      if r = route then w else (routes.get? r).getD [] := by
  rw [routeWindow, Table.get?_insert]
  split_ifs <;> rfl

theorem routeWindow_refund (r : String) : (s.refund c route taken).routeWindow r =
    if r = route then (s.routeWindow r).remove taken else s.routeWindow r := by
  rw [routeWindow, refund, Table.get?_modify]
  split_ifs
  · rw [routeWindow]
    cases s.routes.get? r <;> rfl
  · rfl

theorem routeWindow_settle (r : String) : (s.settle c now).routeWindow r =
    (consult (c.forRoute r) now (s.routeWindow r)).1 := by
  rw [routeWindow, settle, Table.get?_mapValues, routeWindow]
  cases s.routes.get? r with
  | some w => rfl
  | none => cases c.forRoute r <;> rfl

theorem longerWait_eq_none_iff (a b : Option Span) :
    longerWait a b = none ↔ a = none ∧ b = none := by
  cases a <;> cases b <;> simp [longerWait]

/-- A call is let through exactly when neither window asks it to wait. What a refused one leaves
are trimmed windows; one that is let through is noted in both. -/
theorem request_cases (c : RateLimitConfig) (route : String) (now : Timestamp) (s : Limiter) :
    let all := consult c.overall now s.overall
    let own := consult (c.forRoute route) now (s.routeWindow route)
    ((all.2 = none ∧ own.2 = none) ∧ (s.request c route now).1.allowed = true ∧
      (s.request c route now).2 = ⟨note c.overall now all.1,
        s.routes.insert route (note (c.forRoute route) now own.1)⟩) ∨
    (¬ (all.2 = none ∧ own.2 = none) ∧ (s.request c route now).1.allowed = false ∧
      (s.request c route now).2 = ⟨all.1, s.routes.insert route own.1⟩) := by
  unfold request
  dsimp only
  rw [← longerWait_eq_none_iff]
  cases longerWait (consult c.overall now s.overall).2
      (consult (c.forRoute route) now (s.routeWindow route)).2 with
  | none => exact Or.inl ⟨rfl, rfl, rfl⟩
  | some wait => exact Or.inr ⟨Option.some_ne_none _, rfl, rfl⟩

namespace Matches

theorem empty (c : RateLimitConfig) (later : Timestamp → Prop) : Matches c later [] empty :=
  ⟨fun _ _ => .nil, fun _ _ _ => .nil⟩

/-- Fewer times to come ask for less. -/
theorem mono (h : Matches c later log s) (sub : ∀ t, later' t → later t) :
    Matches c later' log s := ⟨h.overall.mono sub, fun r => (h.routes r).mono sub⟩

theorem settle (h : Matches c later log s) (now : Timestamp) :
    Matches c (fun t => later t ∧ now ≤ t) log (s.settle c now) where
  overall := h.overall.consult now
  routes r := by
    rw [routeWindow_settle]
    exact (h.routes r).consult now

theorem refund (h : Matches c later log s) (hmem : (route, taken) ∈ log) :
    Matches c later (log.erase (route, taken)) (s.refund c route taken) where
  overall l hl := by
    have := (h.overall l hl).remove hmem rfl
    simpa [Limiter.refund, hl] using this
  routes r := by
    rw [routeWindow_refund]
    split_ifs with hr
    · subst hr
      exact fun l hl => (h.routes r l hl).remove hmem (by simp [on])
    · exact (h.routes r).of_countAt_eq fun t => countAt_erase_of_ne (Ne.symm hr) t taken log

theorem of_insert {all own : Window}
    (hall : Window.TracksFor c.overall later everywhere log all)
    (hown : Window.TracksFor (c.forRoute route) later (on route) log own)
    (others : ∀ r, r ≠ route → Window.TracksFor (c.forRoute r) later (on r) log (s.routeWindow r)) :
    Matches c later log ⟨all, s.routes.insert route own⟩ where
  overall := hall
  routes r := by
    rw [routeWindow_insert]
    split_ifs with hr
    · exact hr ▸ hown
    · exact others r hr

/-- Room is granted exactly when the log has it overall and on the route; what is granted is then
in the log. -/
theorem request (h : Matches c later log s) (hnow : later now) (hlog : ∀ x ∈ log, x.2 ≤ now)
    (route : String) :
    ((s.request c route now).1.allowed = true ↔
      log.HasRoom c.overall now everywhere ∧ log.HasRoom (c.forRoute route) now (on route)) ∧
    Matches c (fun t => later t ∧ now ≤ t)
      (if (s.request c route now).1.allowed then log ++ [(route, now)] else log)
      (s.request c route now).2 := by
  have rest : Matches c (fun t => later t ∧ now ≤ t) log s := h.mono fun t ht => ht.1
  have all := h.overall.consult now
  have own := (h.routes route).consult now
  have here : later now ∧ now ≤ now := ⟨hnow, Timestamp.le_refl now⟩
  rw [← h.overall.wait_eq_none_iff hnow hlog, ← (h.routes route).wait_eq_none_iff hnow hlog]
  rcases request_cases c route now s with ⟨free, allowed, after⟩ | ⟨busy, denied, after⟩
  · rw [allowed, after]
    refine ⟨by simpa using free, of_insert (all.note here (fun t ht => ht.2) rfl)
      (own.note here (fun t ht => ht.2) (by simp [on])) fun r hr => ?_⟩
    exact (rest.routes r).of_countAt_eq fun t => countAt_snoc_of_ne (Ne.symm hr) t now log
  · rw [denied, after]
    exact ⟨by simpa using busy, of_insert all own fun r _ => rest.routes r⟩

/-- The windows are reported as full as the log has them. -/
theorem usage (h : Matches c later log s) (hnow : later now) (hlog : ∀ x ∈ log, x.2 ≤ now) :
    (s.usage c now).1 = log.uses c now s.routes.keys := by
  have own : ∀ e ∈ (s.settle c now).routes.entries, ∀ l, c.forRoute e.1 = some l →
      e.2.length = log.used l now (on e.1) := by
    intro e he l hl
    have window : (s.settle c now).routeWindow e.1 = e.2 := by
      rw [routeWindow, (Table.get?_eq_some_iff _ _ _).2 he, Option.getD_some]
    rw [← window, routeWindow_settle]
    exact (h.routes e.1).length_consult hl hnow hlog
  have keys : (s.settle c now).routes.entries.map Prod.fst = s.routes.keys :=
    Table.keys_mapValues _ _
  unfold Limiter.usage uses
  dsimp only
  congr 1
  · cases hc : c.overall with
    | none => rfl
    | some l =>
      have := h.overall.length_consult hc hnow hlog
      simpa [Limiter.settle, hc] using this
  · rw [← keys, ← List.map_mergeSort (r := fun a b => !(b.1 < a.1)) (fun _ _ _ _ => rfl),
      List.filterMap_map]
    refine List.filterMap_congr fun e he => ?_
    rw [List.mem_mergeSort] at he
    cases hl : c.forRoute e.1 with
    | none => simp [hl]
    | some l => simp [hl, own e he l hl]

end Matches

end Limiter

end Courier
