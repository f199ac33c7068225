import Courier.Proofs.Limiter.Settle
import Courier.Proofs.Number.Quantity

/-! How long a refused call has to wait. What the windows ask for is exact: from then on they have
room, and not before unless room is given back. But the caller is told whole milliseconds, and what
is cut off to make them whole may be missing in the end. -/

namespace Courier

/-- A sum is only cut short at the last instant, and no span between two instants reaches beyond
it. -/
theorem Timestamp.add_since_le_add {t u : Timestamp} {d : Span} (h : 0 ≤ d.nanos) :
    t.add (u.since t) ≤ t.add d ↔ u.since t ≤ d := by
  rw [add_since]
  show u.nanos ≤ max firstNanos (min lastNanos (t.nanos + d.nanos)) ↔ u.nanos - t.nanos ≤ d.nanos
  have := t.lower
  have := u.upper
  omega

namespace Window

variable {limit : Option WindowLimit} {now t : Timestamp} {w w' : Window}

/-- The limit allows a call at all, and a window that starts at `now` ends in time. -/
def Usable (limit : Option WindowLimit) (now : Timestamp) : Prop :=
  ∀ l ∈ limit, 1 ≤ l.maxEvents ∧ now.nanos + l.window.nanos ≤ lastNanos

instance (limit : Option WindowLimit) (now : Timestamp) : Decidable (Usable limit now) :=
  inferInstanceAs (Decidable (∀ l ∈ limit, _))

/-- The window is in order at `now`, and no fuller than it may be. -/
structure Orderly (limit : Option WindowLimit) (now : Timestamp) (w : Window) : Prop where
  sorted : w.Pairwise (· ≤ ·)
  past : ∀ t ∈ w, t ≤ now
  within : ∀ l ∈ limit, w.length ≤ l.maxEvents

theorem consult_sublist (limit : Option WindowLimit) (now : Timestamp) (w : Window) :
    (Limiter.consult limit now w).1.Sublist w := by
  cases limit with
  | none => exact .refl _
  | some l => exact List.dropWhile_sublist _

theorem consult_some (l : WindowLimit) (now : Timestamp) (w : Window) :
    (Limiter.consult (some l) now w).2 = none ↔ (w.trim l now).length < l.maxEvents := by
  rw [Limiter.consult, blocked]
  split_ifs with room <;> simpa using room

/-- A window that has less in it has room where the other has. -/
theorem room_of_sublist (sorted : w.Pairwise (· ≤ ·)) (sub : w'.Sublist w)
    (room : (Limiter.consult limit now w).2 = none) : (Limiter.consult limit now w').2 = none := by
  cases limit with
  | none => rfl
  | some l =>
    rw [consult_some, trim_eq_filter sorted] at room
    rw [consult_some, trim_eq_filter (sorted.sublist sub)]
    exact (sub.filter _).length_le.trans_lt room

/-- A call that is in the window at `now` leaves it when the time of the window is over. -/
theorem leaves_iff {d : Span} {a : Timestamp} (inside : now.sub d < a) (past : a ≤ now)
    (late : now ≤ t) (ends : now.nanos + d.nanos ≤ lastNanos) : a.add d ≤ t ↔ a ≤ t.sub d := by
  have inside : max firstNanos (min lastNanos (now.nanos - d.nanos)) < a.nanos := inside
  have past : a.nanos ≤ now.nanos := past
  have late : now.nanos ≤ t.nanos := late
  have := a.lower
  have := t.upper
  show max firstNanos (min lastNanos (a.nanos + d.nanos)) ≤ t.nanos ↔
    a.nanos ≤ max firstNanos (min lastNanos (t.nanos - d.nanos))
  omega

/-- In a full window it is the oldest call whose leaving makes room. -/
theorem room_after_oldest {l : WindowLimit} {a : Timestamp}
    (full : ¬ (a :: w).length < l.maxEvents) (most : (a :: w).length ≤ l.maxEvents) :
    (trim l t (a :: w)).length < l.maxEvents ↔ a ≤ t.sub l.window := by
  unfold trim
  by_cases gone : a ≤ t.sub l.window
  · have fewer := (List.dropWhile_sublist (l := w) fun t' => t' ≤ t.sub l.window).length_le
    rw [List.dropWhile_cons_of_pos (by simpa using gone)]
    simp only [gone, iff_true]
    exact fewer.trans_lt most
  · rw [List.dropWhile_cons_of_neg (by simpa using gone)]
    simpa only [gone, iff_false] using full

namespace Orderly

theorem nil : Orderly limit now [] := ⟨.nil, by simp, by simp⟩

theorem sublist (h : Orderly limit now w) (sub : w'.Sublist w) : Orderly limit now w' :=
  ⟨h.sorted.sublist sub, fun t ht => h.past t (sub.subset ht),
    fun l hl => sub.length_le.trans (h.within l hl)⟩

theorem later (h : Orderly limit now w) (late : now ≤ t) : Orderly limit t w :=
  ⟨h.sorted, fun t ht => Timestamp.le_trans (h.past t ht) late, h.within⟩

/-- A call is only noted where there is room for it. -/
theorem note (h : Orderly limit now w) (room : (Limiter.consult limit now w).2 = none) :
    Orderly limit now (Limiter.note limit now (Limiter.consult limit now w).1) := by
  have trimmed := h.sublist (consult_sublist limit now w)
  cases limit with
  | none => exact trimmed
  | some l =>
    rw [consult_some] at room
    refine ⟨?_, ?_, ?_⟩
    · refine List.pairwise_append.2 ⟨trimmed.sorted, List.pairwise_singleton _ _, ?_⟩
      intro t ht t' ht'
      rw [List.mem_singleton.1 ht']
      exact trimmed.past t ht
    · intro t ht
      rcases List.mem_append.1 ht with ht | ht
      · exact trimmed.past t ht
      · exact List.mem_singleton.1 ht ▸ Timestamp.le_refl now
    · rintro l' ⟨⟩
      exact List.length_append ▸ room

/-- The wait of a window is over exactly when it has room again. -/
theorem room_iff (h : Orderly limit now w) (usable : Usable limit now) (late : now ≤ t) :
    (Limiter.consult limit t w).2 = none ↔
      ∀ wait ∈ (Limiter.consult limit now w).2, now.add wait ≤ t := by
  cases limit with
  | none => simp [Limiter.consult]
  | some l =>
    obtain ⟨allows, ends⟩ := usable l rfl
    have again : w.trim l t = (w.trim l now).trim l t :=
      (TrimmedTo.of_trim l now w).trim (Timestamp.sub_le_sub late _)
    have most := (consult_sublist (some l) now w).length_le.trans (h.within l rfl)
    change (w.trim l now).length ≤ _ at most
    have inside : ∀ a ∈ w.trim l now, now.sub l.window < a ∧ a ≤ now := by
      intro a ha
      rw [trim_eq_filter h.sorted] at ha
      have := List.mem_filter.1 ha
      exact ⟨by simpa using this.2, h.past a this.1⟩
    rw [consult_some, again, Limiter.consult, blocked]
    generalize w.trim l now = w at most inside
    split_ifs with room
    · have fewer : (w.trim l t).length ≤ w.length := (List.dropWhile_sublist _).length_le
      simpa using fewer.trans_lt room
    · cases w with
      | nil => simp at room; omega
      | cons a w =>
        obtain ⟨after, before⟩ := inside a List.mem_cons_self
        rw [room_after_oldest room most, ← leaves_iff after before late ends]
        simp only [Option.mem_some_iff, forall_eq', List.head?_cons, Option.getD_some,
          Timestamp.add_since]

end Orderly

end Window

namespace Limiter

variable {c : RateLimitConfig} {route : String} {now t again : Timestamp} {s s' : Limiter}
  {wait : Span} {before meanwhile : List Call}

/-- How long a call has to wait for room in both windows, if it has to. -/
def exactWait (c : RateLimitConfig) (route : String) (now : Timestamp) (s : Limiter) :
    Option Span :=
  longerWait (consult c.overall now s.overall).2
    (consult (c.forRoute route) now (s.routeWindow route)).2

theorem request_decision (c : RateLimitConfig) (route : String) (now : Timestamp) (s : Limiter) :
    (s.request c route now).1 = (s.exactWait c route now).elim .allow .deny := by
  unfold request exactWait
  dsimp only
  split
  · rename_i wait
    rw [wait, Option.elim_some]
  · rename_i wait
    rw [wait, Option.elim_none]

theorem allowed_iff (c : RateLimitConfig) (route : String) (now : Timestamp) (s : Limiter) :
    (s.request c route now).1.allowed = true ↔ s.exactWait c route now = none := by
  rw [request_decision]
  cases s.exactWait c route now with
  | none => simp [RateDecision.allow]
  | some wait => simp [RateDecision.deny]

/-- A wait ends at some instant. -/
theorem exists_free (h : s.exactWait c route now = some wait) :
    ∃ free : Timestamp, wait = free.since now := by
  have window : ∀ (limit : Option WindowLimit) (w : Window), ∀ d ∈ (consult limit now w).2,
      ∃ free : Timestamp, d = free.since now := by
    intro limit w d hd
    cases limit with
    | none => cases hd
    | some l =>
      rw [consult, Window.blocked] at hd
      split_ifs at hd
      · cases hd
      · exact ⟨_, (Option.mem_some_iff.1 hd).symm⟩
  unfold exactWait longerWait at h
  split at h
  · exact window _ _ _ h
  · exact window _ _ _ h
  · rename_i a b all own
    obtain rfl : a.orLonger b = wait := Option.some.inj h
    unfold Span.orLonger
    split_ifs
    · exact window _ _ _ own
    · exact window _ _ _ all

/-- The longer wait is over when both are. -/
theorem add_longerWait (a b : Option Span) :
    (∀ wait ∈ longerWait a b, now.add wait ≤ t) ↔
      (∀ wait ∈ a, now.add wait ≤ t) ∧ ∀ wait ∈ b, now.add wait ≤ t := by
  cases a with
  | none => simp [longerWait]
  | some a =>
    cases b with
    | none => simp [longerWait]
    | some b =>
      simp only [longerWait, Option.mem_some_iff, forall_eq', Span.orLonger]
      split_ifs with h
      · exact ⟨fun last => ⟨Timestamp.le_trans (now.add_le_add h) last, last⟩, And.right⟩
      · have h : b ≤ a := Int.le_of_lt (Span.not_le.1 h)
        exact ⟨fun last => ⟨last, Timestamp.le_trans (now.add_le_add h) last⟩, And.left⟩

/-- All windows are in order. -/
structure Orderly (c : RateLimitConfig) (now : Timestamp) (s : Limiter) : Prop where
  overall : Window.Orderly c.overall now s.overall
  routes : ∀ r, Window.Orderly (c.forRoute r) now (s.routeWindow r)

/-- Nothing was noted: every window has what it had, or less. -/
structure Shrinks (s s' : Limiter) : Prop where
  overall : s'.overall.Sublist s.overall
  routes : ∀ r, (s'.routeWindow r).Sublist (s.routeWindow r)

/-- Some windows were trimmed at `now`, and nothing else was done. -/
structure Trims (c : RateLimitConfig) (now : Timestamp) (s s' : Limiter) : Prop where
  overall : s'.overall = (consult c.overall now s.overall).1
  routes : ∀ r, s'.routeWindow r = s.routeWindow r ∨
    s'.routeWindow r = (consult (c.forRoute r) now (s.routeWindow r)).1

namespace Trims

theorem usage (c : RateLimitConfig) (now : Timestamp) (s : Limiter) :
    Trims c now s (s.usage c now).2 :=
  ⟨rfl, fun r => Or.inr (routeWindow_settle r)⟩

theorem refused (h : (s.request c route now).1.allowed = false) :
    Trims c now s (s.request c route now).2 := by
  rcases request_cases c route now s with ⟨-, allowed, -⟩ | ⟨-, -, after⟩
  · rw [h] at allowed
    cases allowed
  · rw [after]
    refine ⟨rfl, fun r => ?_⟩
    rw [routeWindow_insert]
    split_ifs with same
    · exact Or.inr (same ▸ rfl)
    · exact Or.inl rfl

theorem shrinks (h : Trims c now s s') : Shrinks s s' where
  overall := h.overall ▸ Window.consult_sublist _ _ _
  routes r := by
    rcases h.routes r with same | trimmed
    · rw [same]
    · rw [trimmed]
      exact Window.consult_sublist _ _ _

/-- No later call sees that windows were trimmed. -/
theorem exactWait_eq (h : Trims c now s s') (late : now ≤ t) (route : String) :
    s'.exactWait c route t = s.exactWait c route t := by
  have again : ∀ (limit : Option WindowLimit) (w : Window),
      consult limit t (consult limit now w).1 = consult limit t w := fun limit w =>
    ((Window.AlikeFrom.of_consult limit now w).consult late).symm
  rw [exactWait, exactWait, h.overall, again]
  rcases h.routes route with same | trimmed
  · rw [same]
  · rw [trimmed, again]

end Trims

namespace Shrinks

theorem refl (s : Limiter) : Shrinks s s := ⟨.refl _, fun _ => .refl _⟩

theorem trans {s'' : Limiter} (h : Shrinks s s') (h' : Shrinks s' s'') : Shrinks s s'' :=
  ⟨h'.overall.trans h.overall, fun r => (h'.routes r).trans (h.routes r)⟩

theorem refund (c : RateLimitConfig) (route : String) (taken : Timestamp) (s : Limiter) :
    Shrinks s (s.refund c route taken) where
  overall := by
    rw [Limiter.refund]
    split_ifs
    · exact Window.remove_sublist taken _
    · exact .refl _
  routes r := by
    rw [routeWindow_refund]
    split_ifs
    · exact Window.remove_sublist taken _
    · exact .refl _

/-- Where a call would be let through, it still is. -/
theorem exactWait_eq_none (sub : Shrinks s s') (h : Orderly c now s)
    (room : s.exactWait c route t = none) : s'.exactWait c route t = none := by
  rw [exactWait, longerWait_eq_none_iff] at room ⊢
  exact ⟨Window.room_of_sublist h.overall.sorted sub.overall room.1,
    Window.room_of_sublist (h.routes route).sorted (sub.routes route) room.2⟩

end Shrinks

namespace Orderly

theorem empty : Orderly c now empty := ⟨.nil, fun _ => .nil⟩

theorem later (h : Orderly c now s) (late : now ≤ t) : Orderly c t s :=
  ⟨h.overall.later late, fun r => (h.routes r).later late⟩

theorem shrinks (h : Orderly c now s) (sub : Shrinks s s') : Orderly c now s' :=
  ⟨h.overall.sublist sub.overall, fun r => (h.routes r).sublist (sub.routes r)⟩

theorem request (h : Orderly c now s) (route : String) :
    Orderly c now (s.request c route now).2 := by
  rcases request_cases c route now s with ⟨room, -, after⟩ | ⟨-, refused, -⟩
  · rw [after]
    refine ⟨h.overall.note room.1, fun r => ?_⟩
    rw [routeWindow_insert]
    split_ifs with same
    · subst same
      exact (h.routes r).note room.2
    · exact h.routes r
  · exact h.shrinks (Trims.refused refused).shrinks

/-- The wait that is asked for is exact. -/
theorem exactWait_eq_none_iff (h : Orderly c now s) (overall : Window.Usable c.overall now)
    (own : Window.Usable (c.forRoute route) now) (late : now ≤ t) :
    s.exactWait c route t = none ↔ ∀ wait ∈ s.exactWait c route now, now.add wait ≤ t := by
  rw [exactWait, longerWait_eq_none_iff, h.overall.room_iff overall late,
    (h.routes route).room_iff own late, exactWait, add_longerWait]

end Orderly

/-- When the call is made. Room is given back at any time. -/
def Call.time? : Call → Option Timestamp
  | request _ now | usage now => some now
  | refund _ _ => none

/-- The clock does not go back. -/
def Timely (calls : List Call) : Prop := (calls.filterMap Call.time?).Pairwise (· ≤ ·)

instance (calls : List Call) : Decidable (Timely calls) :=
  inferInstanceAs (Decidable ((calls.filterMap Call.time?).Pairwise (· ≤ ·)))

/-- Whatever the caller asks for, it is refused. -/
def Call.Refused (c : RateLimitConfig) (s : Limiter) : Call → Prop
  | request route now => (s.request c route now).1.allowed = false
  | _ => True

instance (c : RateLimitConfig) (s : Limiter) : (call : Call) → Decidable (call.Refused c s)
  | .request route now => inferInstanceAs (Decidable ((s.request c route now).1.allowed = false))
  | .refund _ _ | .usage _ => inferInstanceAs (Decidable True)

/-- None of the calls is let through. -/
def AllRefused (c : RateLimitConfig) : Limiter → List Call → Prop
  | _, [] => True
  | s, call :: calls => call.Refused c s ∧ AllRefused c (call.run c s).2 calls

theorem after_snoc (s : Limiter) (calls : List Call) (call : Call) :
    s.after c (calls ++ [call]) = (call.run c (s.after c calls)).2 := by
  rw [after, List.foldl_append]
  rfl

theorem orderly_after (timely : Timely before) (past : ∀ t ∈ before.filterMap Call.time?, t ≤ now) :
    Orderly c now (empty.after c before) := by
  induction before using List.reverseRecOn generalizing now with
  | nil => exact .empty
  | append_singleton calls call ih =>
    simp only [Timely, List.filterMap_append, List.pairwise_append, List.mem_append, or_imp,
      forall_and] at timely past
    obtain ⟨timely, -, order⟩ := timely
    rw [after_snoc]
    cases call with
    | refund route taken => exact (ih timely past.1).shrinks (.refund c route taken _)
    | request route t =>
      have last : t ≤ now := past.2 t (by simp [Call.time?])
      have orderly := ih timely fun t' ht' => order t' ht' t (by simp [Call.time?])
      exact (orderly.request route).later last
    | usage t => exact (ih timely past.1).shrinks (Trims.usage c t _).shrinks

theorem AllRefused.shrinks {calls : List Call} (h : AllRefused c s calls) :
    Shrinks s (s.after c calls) := by
  induction calls generalizing s with
  | nil => exact .refl s
  | cons call calls ih =>
    obtain ⟨refused, rest⟩ := h
    refine Shrinks.trans ?_ (ih rest)
    cases call with
    | request route now => exact (Trims.refused refused).shrinks
    | refund route taken => exact .refund c route taken s
    | usage now => exact (Trims.usage c now s).shrinks

/-- Calls that neither take room nor give any back change nothing for those that come later. -/
theorem AllRefused.exactWait_eq {calls : List Call} (h : AllRefused c s calls)
    (kept : ∀ route taken, .refund route taken ∉ calls)
    (past : ∀ t' ∈ calls.filterMap Call.time?, t' ≤ t) (route : String) :
    (s.after c calls).exactWait c route t = s.exactWait c route t := by
  induction calls generalizing s with
  | nil => rfl
  | cons call calls ih =>
    obtain ⟨refused, rest⟩ := h
    have further := ih rest (fun r taken => List.not_mem_of_not_mem_cons (kept r taken))
    cases call with
    | request r now =>
      simp only [List.filterMap_cons, Call.time?, List.forall_mem_cons] at past
      exact (further past.2).trans ((Trims.refused refused).exactWait_eq past.1 route)
    | refund r taken => exact absurd List.mem_cons_self (kept r taken)
    | usage now =>
      simp only [List.filterMap_cons, Call.time?, List.forall_mem_cons] at past
      exact (further past.2).trans ((Trims.usage c now s).exactWait_eq past.1 route)

/-- What the caller is told at `now`. -/
def firstAnswer (c : RateLimitConfig) (route : String) (before : List Call) (now : Timestamp) :
    RateDecision := ((empty.after c before).request c route now).1

/-- How long the caller is told to wait. -/
def toldWait (c : RateLimitConfig) (route : String) (before : List Call) (now : Timestamp) : Span :=
  .ofMillis (firstAnswer c route before now).waitMillis

/-- What the caller is told at `again`. -/
def nextAnswer (c : RateLimitConfig) (route : String) (before : List Call) (now : Timestamp)
    (meanwhile : List Call) (again : Timestamp) : RateDecision :=
  ((((empty.after c before).request c route now).2.after c meanwhile).request c route again).1

/-- A call is refused at `now`, and its caller waits and asks once more at `again`. No one else is
let through in the meantime. -/
structure Waits (c : RateLimitConfig) (route : String) (before : List Call) (now : Timestamp)
    (meanwhile : List Call) (again : Timestamp) : Prop where
  timely : Timely (before ++ .request route now :: meanwhile ++ [.request route again])
  refused : (firstAnswer c route before now).allowed = false
  alone : AllRefused c ((empty.after c before).request c route now).2 meanwhile

namespace Waits

theorem order (h : Waits c route before now meanwhile again) :
    Timely before ∧ (∀ t ∈ before.filterMap Call.time?, t ≤ now) ∧ now ≤ again ∧
      ∀ t ∈ meanwhile.filterMap Call.time?, t ≤ again := by
  have timely := h.timely
  simp only [Timely, List.filterMap_append, List.filterMap_cons, List.filterMap_nil, Call.time?,
    List.append_assoc, List.cons_append, List.pairwise_append, List.pairwise_cons,
    List.forall_mem_cons, List.mem_append, or_imp, forall_and] at timely
  obtain ⟨first, ⟨⟨-, late, -⟩, -, -, between, -⟩, past, -⟩ := timely
  exact ⟨first, past, late, between⟩

/-- The second call is let through once the wait is over, and not before unless room was given
back. -/
theorem allowed_iff (h : Waits c route before now meanwhile again)
    (overall : Window.Usable c.overall now) (own : Window.Usable (c.forRoute route) now)
    (exact : (empty.after c before).exactWait c route now = some wait) :
    (now.add wait ≤ again → (nextAnswer c route before now meanwhile again).allowed = true) ∧
    ((∀ r taken, .refund r taken ∉ meanwhile) →
      ((nextAnswer c route before now meanwhile again).allowed = true ↔ now.add wait ≤ again)) := by
  obtain ⟨timely, past, late, between⟩ := h.order
  have orderly := orderly_after (c := c) timely past
  have room := orderly.exactWait_eq_none_iff overall own late
  rw [exact, ← (Trims.refused h.refused).exactWait_eq late route] at room
  simp only [Option.mem_some_iff, forall_eq'] at room
  rw [nextAnswer, Limiter.allowed_iff]
  refine ⟨fun ended => ?_, fun kept => ?_⟩
  · exact h.alone.shrinks.exactWait_eq_none (orderly.request route) (room.2 ended)
  · rw [h.alone.exactWait_eq kept between, room]

end Waits

/-- The told number of milliseconds is the wait with its parts of a millisecond cut off, or one
more. -/
theorem waitMillis_deny (small : max wait.toMillis 1 ≤ 2 ^ 52) :
    max wait.toMillis 1 ≤ (RateDecision.deny wait).waitMillis ∧
      (RateDecision.deny wait).waitMillis ≤ max wait.toMillis 1 + 1 := by
  obtain ⟨n, hn⟩ : ∃ n : ℕ, max wait.toMillis 1 = n :=
    Int.eq_ofNat_of_zero_le (by omega)
  have weighs := weighs_floatOfInt (n := n) (by omega) (by omega)
  have bounds := weighs.ceilOfFloat_thousandths (by omega) (by omega)
  rw [RateDecision.waitMillis, RateDecision.deny, hn]
  exact_mod_cast bounds

/-- Who waits as long as told is let through exactly when the wait is not longer than what was
told, that is, when nothing was cut off or it was made up for. Room that is given back in the
meantime can only help. -/
theorem Waits.allowed_as_told
    (h : Waits c route before now meanwhile (now.add (toldWait c route before now)))
    (overall : Window.Usable c.overall now) (own : Window.Usable (c.forRoute route) now) :
    let told := toldWait c route before now
    let next := nextAnswer c route before now meanwhile (now.add told)
    ∃ wait, (empty.after c before).exactWait c route now = some wait ∧
      firstAnswer c route before now = .deny wait ∧
      (wait ≤ told → next.allowed = true) ∧
      ((∀ r taken, .refund r taken ∉ meanwhile) → (next.allowed = true ↔ wait ≤ told)) ∧
      (max wait.toMillis 1 ≤ 2 ^ 52 →
        max wait.toMillis 1 ≤ (firstAnswer c route before now).waitMillis ∧
        (firstAnswer c route before now).waitMillis ≤ max wait.toMillis 1 + 1) := by
  intro told next
  have refused := h.refused
  have decision := request_decision c route now (empty.after c before)
  rw [← Bool.not_eq_true, firstAnswer, Limiter.allowed_iff] at refused
  obtain ⟨wait, exact⟩ := Option.ne_none_iff_exists'.1 refused
  rw [exact, Option.elim_some] at decision
  obtain ⟨free, rfl⟩ := exists_free exact
  have ended : now.add (free.since now) ≤ now.add told ↔ free.since now ≤ told :=
    Timestamp.add_since_le_add (Span.ofMillis_nonneg (Int.natCast_nonneg _))
  obtain ⟨enough, least⟩ := h.allowed_iff overall own exact
  rw [ended] at enough least
  refine ⟨_, exact, decision, enough, least, ?_⟩
  rw [firstAnswer, decision]
  exact waitMillis_deny

def onePerSecond : RateLimitConfig := ⟨some ⟨1, 1⟩, none, []⟩

def micros (n : Int) : Timestamp := Timestamp.epoch.add (.clamp (n * 1000))

/-- Refused 0.4 s after the call before it, and let through 0.6 s later. -/
theorem allowed_as_told_wholeMillis :
    let before := [Call.request "a" (micros 0)]
    let meanwhile := [Call.request "b" (micros 500000), Call.usage (micros 600000)]
    let again := (micros 400000).add (toldWait onePerSecond "a" before (micros 400000))
    Waits onePerSecond "a" before (micros 400000) meanwhile again ∧
      (nextAnswer onePerSecond "a" before (micros 400000) meanwhile again).allowed = true := by
  intro before meanwhile again
  have waits : Waits onePerSecond "a" before (micros 400000) meanwhile again :=
    ⟨by decide +kernel, by decide +kernel, by decide +kernel, trivial, trivial⟩
  obtain ⟨wait, exact, -, enough, -⟩ :=
    waits.allowed_as_told (by decide +kernel) (by decide +kernel)
  have whole :
      ∀ wait ∈ (empty.after onePerSecond before).exactWait onePerSecond "a" (micros 400000),
        wait ≤ toldWait onePerSecond "a" before (micros 400000) := by decide +kernel
  exact ⟨waits, enough (whole wait exact)⟩

/-- Half a millisecond after the start of a second, a call was let through; at its 999th millisecond
the next has one and a half to wait, is told one, and comes too early. -/
theorem exists_refused_as_told :
    ∃ before now, ∃ again : Timestamp,
      again = now.add (toldWait onePerSecond "a" before now) ∧
      Waits onePerSecond "a" before now [] again ∧
      Window.Usable onePerSecond.overall now ∧ Window.Usable (onePerSecond.forRoute "a") now ∧
      (nextAnswer onePerSecond "a" before now [] again).allowed = false := by
  refine ⟨[.request "a" (micros 500)], micros 999000, micros 1000000, ?_⟩
  refine ⟨by decide +kernel, ⟨by decide +kernel, by decide +kernel, trivial⟩, ?_⟩
  decide +kernel

end Limiter

end Courier
